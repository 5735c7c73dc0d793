import Serveez.Lib.ByteText
import Serveez.Lib.Cut

/-!
# The lines of an ident request

`fakeident_detect_proto` scans the receive buffer for a pair of numbers. Each of its scans may
match nothing, so that both numbers may be missing.

* `detect_iff`: what the function accepts.
* `detectsRight_iff`: it accepts what it should unless a number is missing.
-/

namespace Serveez.Fakeident

open Lib

/-- A scan over the bytes that pass; at the end of the buffer there is nothing left to look at. -/
def skip (pass : UInt8 → Prop) [DecidablePred pass] (p : List UInt8) : Option (List UInt8) :=
  let p := p.dropWhile (pass ·)
  if p = [] then none else some p

def skipComma : List UInt8 → Option (List UInt8)
  | [] => none
  | c :: p => if c = 44 then some p else none

/-- A number, spaces and the comma. -/
def skipFirst (p : List UInt8) : Option (List UInt8) := do
  let p ← skip IsDigitByte p
  let p ← skip (· = 32) p
  skipComma p

/-- Spaces, a number and spaces. -/
def skipSecond (p : List UInt8) : Option (List UInt8) := do
  let p ← skip (· = 32) p
  let p ← skip IsDigitByte p
  skip (· = 32) p

/-- The scans up to the end of the line. -/
def skipPair (recvBuffer : List UInt8) : Option (List UInt8) :=
  (skipFirst recvBuffer).bind skipSecond

def fakeidentDetectProto (recvBuffer : List UInt8) : Bool :=
  match skipPair recvBuffer with
  | none => false
  | some p =>
    let p := if p.head? = some 13 then p.tail else p
    p.head? = some 10

/-- A line of the shape that is looked for: how many spaces it has before the comma, behind it, and
behind the second number. -/
structure IdentLine where
  first : List UInt8
  before : Nat
  after : Nat
  second : List UInt8
  behind : Nat
  cr : Bool
  first_digits : ∀ c ∈ first, IsDigitByte c
  second_digits : ∀ c ∈ second, IsDigitByte c

namespace IdentLine

def spaces (n : Nat) : List UInt8 := List.replicate n 32

def lineEnd (cr : Bool) : List UInt8 := if cr then [13, 10] else [10]

/-- The text of the line, which is what is to come back in the reply. -/
def text (line : IdentLine) : List UInt8 :=
  line.first ++ (spaces line.before ++ 44 :: (spaces line.after ++
    (line.second ++ spaces line.behind)))

def bytes (line : IdentLine) : List UInt8 := line.text ++ lineEnd line.cr

/-- Both numbers are there. -/
def Complete (line : IdentLine) : Prop := line.first ≠ [] ∧ line.second ≠ []

instance (line : IdentLine) : Decidable line.Complete := inferInstanceAs (Decidable (_ ∧ _))

end IdentLine

open IdentLine (spaces lineEnd)

/-! ## Scans -/

theorem skip_cut {pass : UInt8 → Prop} [DecidablePred pass] {front : List UInt8} {c : UInt8}
    (hfront : ∀ d ∈ front, pass d) (hc : ¬ pass c) (back : List UInt8) :
    skip pass (front ++ c :: back) = some (c :: back) := by
  unfold skip
  dsimp only
  rw [dropWhile_cut hfront hc, if_neg (List.cons_ne_nil c back)]

theorem skip_some {pass : UInt8 → Prop} [DecidablePred pass] {p q : List UInt8}
    (h : skip pass p = some q) : p = p.takeWhile (pass ·) ++ q := by
  unfold skip at h
  dsimp only at h
  split_ifs at h
  obtain rfl := Option.some.inj h
  exact List.takeWhile_append_dropWhile.symm

theorem skip_spaces {p q : List UInt8} (h : skip (· = 32) p = some q) :
    ∃ n, p = spaces n ++ q := by
  refine ⟨(p.takeWhile (· = 32)).length, ?_⟩
  have hspaces : p.takeWhile (· = 32) = spaces (p.takeWhile (· = 32)).length :=
    List.eq_replicate_of_mem (fun c hc => of_mem_takeWhile (P := (· = 32)) hc)
  rw [← hspaces]
  exact skip_some h

theorem skip_digits {p q : List UInt8} (h : skip IsDigitByte p = some q) :
    ∃ digits, (∀ c ∈ digits, IsDigitByte c) ∧ p = digits ++ q :=
  ⟨p.takeWhile (IsDigitByte ·), fun _ hc => of_mem_takeWhile hc, skip_some h⟩

theorem skipComma_some {p q : List UInt8} (h : skipComma p = some q) : p = 44 :: q := by
  cases p with
  | nil => exact absurd h.symm (Option.some_ne_none q)
  | cons c p =>
    change (if c = 44 then some p else none) = some q at h
    split_ifs at h with hc
    rw [hc, Option.some.inj h]

theorem of_mem_spaces {n : Nat} {c : UInt8} (hc : c ∈ spaces n) : c = 32 :=
  List.eq_of_mem_replicate hc

theorem exists_spaces (n : Nat) {c : UInt8} (hc : ¬ IsDigitByte c) (rest : List UInt8) :
    ∃ d back, spaces n ++ c :: rest = d :: back ∧ ¬ IsDigitByte d := by
  cases n with
  | zero => exact ⟨c, rest, rfl, hc⟩
  | succ n => exact ⟨32, spaces n ++ c :: rest, rfl, by decide⟩

theorem skip_digits_spaces {digits : List UInt8} (hdigits : ∀ c ∈ digits, IsDigitByte c) (n : Nat)
    {c : UInt8} (hc : ¬ IsDigitByte c) (rest : List UInt8) :
    (digits ++ (spaces n ++ c :: rest)).takeWhile (IsDigitByte ·) = digits ∧
      skip IsDigitByte (digits ++ (spaces n ++ c :: rest)) = some (spaces n ++ c :: rest) := by
  obtain ⟨d, back, heq, hd⟩ := exists_spaces n hc rest
  rw [heq]
  exact ⟨takeWhile_cut hdigits hd back, skip_cut hdigits hd back⟩

/-- What is behind the first number of a line, up to the comma. -/
theorem skipFirst_line {first : List UInt8} (hfirst : ∀ c ∈ first, IsDigitByte c) (n : Nat)
    (rest : List UInt8) : skipFirst (first ++ (spaces n ++ 44 :: rest)) = some rest := by
  unfold skipFirst
  rw [(skip_digits_spaces hfirst n (by decide) rest).2]
  change (skip (· = 32) (spaces n ++ 44 :: rest)).bind skipComma = some rest
  rw [skip_cut (fun d => of_mem_spaces) (by decide)]
  rfl

/-- The spaces behind a number that is missing are skipped with those before it. -/
theorem skip_spaces_digits {digits : List UInt8} (hdigits : ∀ c ∈ digits, IsDigitByte c)
    (n m : Nat) {c : UInt8} (hspace : c ≠ 32) (rest : List UInt8) :
    ∃ k, skip (· = 32) (spaces n ++ (digits ++ (spaces m ++ c :: rest))) =
      some (digits ++ (spaces k ++ c :: rest)) := by
  cases digits with
  | nil =>
    refine ⟨0, ?_⟩
    have hjoin : spaces n ++ ([] ++ (spaces m ++ c :: rest)) = spaces (n + m) ++ c :: rest := by
      unfold spaces
      rw [← List.replicate_append_replicate, List.nil_append, List.append_assoc]
    rw [hjoin]
    exact skip_cut (fun d => of_mem_spaces) hspace rest
  | cons d digits =>
    refine ⟨m, skip_cut (fun d => of_mem_spaces) ?_ _⟩
    intro hd
    have hdigit := hdigits d List.mem_cons_self
    rw [hd] at hdigit
    exact absurd hdigit (by decide)

theorem skipSecond_line {second : List UInt8} (hsecond : ∀ c ∈ second, IsDigitByte c) (n m : Nat)
    {c : UInt8} (hc : ¬ IsDigitByte c) (hspace : c ≠ 32) (rest : List UInt8) :
    skipSecond (spaces n ++ (second ++ (spaces m ++ c :: rest))) = some (c :: rest) := by
  obtain ⟨k, hk⟩ := skip_spaces_digits hsecond n m hspace rest
  unfold skipSecond
  rw [hk]
  change (skip IsDigitByte (second ++ (spaces k ++ c :: rest))).bind (skip (· = 32)) = _
  rw [(skip_digits_spaces hsecond k hc rest).2]
  exact skip_cut (fun d => of_mem_spaces) hspace rest

/-! ## Lines -/

theorem exists_lineEnd (cr : Bool) (rest : List UInt8) : ∃ c back,
    lineEnd cr ++ rest = c :: back ∧ ¬ IsDigitByte c ∧ c ≠ 32 := by
  cases cr with
  | false => exact ⟨10, rest, rfl, by decide, by decide⟩
  | true => exact ⟨13, 10 :: rest, rfl, by decide, by decide⟩

theorem bytes_append (line : IdentLine) (rest : List UInt8) :
    line.bytes ++ rest = line.first ++ (spaces line.before ++ 44 :: (spaces line.after ++
      (line.second ++ (spaces line.behind ++ (lineEnd line.cr ++ rest))))) := by
  unfold IdentLine.bytes IdentLine.text
  simp

theorem skipPair_line (line : IdentLine) (rest : List UInt8) :
    skipPair (line.bytes ++ rest) = some (lineEnd line.cr ++ rest) := by
  obtain ⟨c, back, hend, hc, hspace⟩ := exists_lineEnd line.cr rest
  unfold skipPair
  rw [bytes_append, skipFirst_line line.first_digits, hend]
  exact skipSecond_line line.second_digits _ _ hc hspace back

theorem skipPair_some {recvBuffer q : List UInt8} (h : skipPair recvBuffer = some q) :
    ∃ first before after second behind, (∀ c ∈ first, IsDigitByte c) ∧
      (∀ c ∈ second, IsDigitByte c) ∧
      recvBuffer = first ++ (spaces before ++ 44 :: (spaces after ++ (second ++
        (spaces behind ++ q)))) := by
  obtain ⟨p, hfirst, hsecond⟩ := Option.bind_eq_some_iff.mp h
  obtain ⟨p₁, h₁, hfirst⟩ := Option.bind_eq_some_iff.mp hfirst
  obtain ⟨p₂, h₂, h₃⟩ := Option.bind_eq_some_iff.mp hfirst
  obtain ⟨p₄, h₄, hsecond⟩ := Option.bind_eq_some_iff.mp hsecond
  obtain ⟨p₅, h₅, h₆⟩ := Option.bind_eq_some_iff.mp hsecond
  obtain ⟨first, hdigits₁, rfl⟩ := skip_digits h₁
  obtain ⟨before, rfl⟩ := skip_spaces h₂
  obtain rfl := skipComma_some h₃
  obtain ⟨after, rfl⟩ := skip_spaces h₄
  obtain ⟨second, hdigits₂, rfl⟩ := skip_digits h₅
  obtain ⟨behind, rfl⟩ := skip_spaces h₆
  exact ⟨first, before, after, second, behind, hdigits₁, hdigits₂, rfl⟩

/-- The function accepts what begins with a line, be the numbers there or not. -/
theorem detect_iff (recvBuffer : List UInt8) :
    fakeidentDetectProto recvBuffer = true ↔ ∃ line : IdentLine, line.bytes <+: recvBuffer := by
  unfold fakeidentDetectProto
  constructor
  · intro h
    split at h
    · exact absurd h Bool.false_ne_true
    · rename_i q hq
      obtain ⟨first, before, after, second, behind, hfirst, hsecond, rfl⟩ := skipPair_some hq
      have hcr : ∃ cr rest, q = lineEnd cr ++ rest := by
        cases q with
        | nil => exact absurd h (by decide)
        | cons c q =>
          by_cases hc : c = 13
          · subst hc
            cases q with
            | nil => exact absurd h (by decide)
            | cons d q =>
              have hd : d = 10 := by simpa using h
              exact ⟨true, q, by rw [hd]; rfl⟩
          · have hd : c = 10 := by simpa [hc] using h
            exact ⟨false, q, by rw [hd]; rfl⟩
      obtain ⟨cr, rest, rfl⟩ := hcr
      refine ⟨⟨first, before, after, second, behind, cr, hfirst, hsecond⟩, rest, ?_⟩
      exact bytes_append _ rest
  · rintro ⟨line, rest, rfl⟩
    rw [skipPair_line]
    cases line.cr with
    | false => rfl
    | true => rfl

/-! ## The numbers of a line -/

/-- The two numbers at the start of a buffer. -/
def numbers (recvBuffer : List UInt8) : Option (List UInt8 × List UInt8) := do
  let p ← skipFirst recvBuffer
  let p ← skip (· = 32) p
  some (recvBuffer.takeWhile (IsDigitByte ·), p.takeWhile (IsDigitByte ·))

theorem numbers_line (line : IdentLine) (rest : List UInt8) :
    numbers (line.bytes ++ rest) = some (line.first, line.second) := by
  obtain ⟨c, back, hend, hc, hspace⟩ := exists_lineEnd line.cr rest
  obtain ⟨k, hk⟩ := skip_spaces_digits line.second_digits line.after line.behind hspace back
  unfold numbers
  rw [bytes_append, hend, skipFirst_line line.first_digits,
    (skip_digits_spaces line.first_digits _ (by decide) _).1]
  change (skip (· = 32) _).bind _ = _
  rw [hk, Option.bind_some, (skip_digits_spaces line.second_digits k hc back).1]

/-- The lines that a buffer begins with have the same numbers. -/
theorem prefix_complete_iff {line other : IdentLine} {recvBuffer : List UInt8}
    (hline : line.bytes <+: recvBuffer) (hother : other.bytes <+: recvBuffer) :
    line.Complete ↔ other.Complete := by
  obtain ⟨rest, rfl⟩ := hline
  obtain ⟨rest', heq⟩ := hother
  have hnumbers := numbers_line other rest'
  rw [heq, numbers_line line rest] at hnumbers
  obtain ⟨hfirst, hsecond⟩ := Prod.mk.inj (Option.some.inj hnumbers)
  unfold IdentLine.Complete
  rw [hfirst, hsecond]

/-- A buffer is accepted just when it begins with a line that has both numbers. -/
def DetectsRight (recvBuffer : List UInt8) : Prop :=
  fakeidentDetectProto recvBuffer = true ↔
    ∃ line : IdentLine, line.Complete ∧ line.bytes <+: recvBuffer

/-- It is unless the buffer begins with a line in which a number is missing. -/
theorem detectsRight_iff (recvBuffer : List UInt8) :
    DetectsRight recvBuffer ↔
      ∀ line : IdentLine, line.bytes <+: recvBuffer → line.first ≠ [] ∧ line.second ≠ [] := by
  unfold DetectsRight
  rw [detect_iff]
  constructor
  · intro h line hline
    obtain ⟨other, hcomplete, hother⟩ := h.mp ⟨line, hline⟩
    exact (prefix_complete_iff hother hline).mp hcomplete
  · intro h
    constructor
    · rintro ⟨line, hline⟩
      exact ⟨line, h line hline, hline⟩
    · rintro ⟨line, -, hline⟩
      exact ⟨line, hline⟩

end Serveez.Fakeident
