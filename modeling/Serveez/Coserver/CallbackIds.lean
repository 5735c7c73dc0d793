import Serveez.Coserver.Line
import Serveez.Lib.Filling

/-!
# Ids of callbacks

The id of a callback is an `unsigned int` that goes as a text to the coserver and back, and is the
key of the callback in its hash. `svz_itoa` prints it from the end of a static buffer, and three
loops read a number: the one of `svz_atoi`, the one of `get_id` and the one of `handle_request`.

* `itoa_buffer`: the digits are within the buffer, whatever was in it before.
* `atoi_digits`, `getId_digits`, `parseResponse_digits`: the loops read the same number.
-/

namespace Serveez.Coserver

open Lib

def nul : Char := Char.ofNat 0

/-- `sizeof (buffer)` in `svz_itoa`. -/
def itoaSize : Nat := 32

/-- The loop of `svz_itoa` with the pointer at `p`. It writes in front of the pointer, and in front
of the buffer there is nothing. -/
def itoaLoop : Nat → UInt32 → Block Char itoaSize → Option (Nat × Block Char itoaSize)
  | 0, _, _ => none
  | p + 1, i, buffer =>
    let buffer := buffer.set p (digit (i % 10).toNat)
    if i / 10 = 0 then some (p, buffer) else itoaLoop p (i / 10) buffer

/-- `svz_itoa`, with the pointer that it returns as a position in the buffer. -/
def svzItoaIn (buffer : Block Char itoaSize) (i : UInt32) :
    Option (Nat × Block Char itoaSize) :=
  itoaLoop (itoaSize - 1) i (buffer.set (itoaSize - 1) nul)

/-- The string at a position. -/
def textAt (buffer : Block Char itoaSize) (p : Nat) : Text := stringOf nul (buffer.cells.drop p)

/-- The loop of `svz_atoi`. -/
def atoiLoop : UInt32 → Text → UInt32
  | i, [] => i
  | i, c :: str =>
    if IsDigit c then atoiLoop (i * 10 + UInt32.ofNat (c.toNat - 48)) str else i

def svzAtoi (str : Text) : UInt32 := atoiLoop 0 str

/-! ## Printing -/

theorem drop_set_last {n p : Nat} (buffer : Block Char n) (hp : p < n) (c : Char) :
    (buffer.set p c).cells.drop p = c :: buffer.cells.drop (p + 1) := by
  have hlt : p < (buffer.set p c).cells.length := by
    rw [(buffer.set p c).size]
    exact hp
  rw [List.drop_eq_getElem_cons hlt]
  simp [Block.set, List.drop_set]

theorem printLoop_append (fuel i : Nat) (acc rest : Text) :
    printLoop fuel i (acc ++ rest) = printLoop fuel i acc ++ rest := by
  induction fuel generalizing i acc with
  | zero => rfl
  | succ fuel ih =>
    simp only [printLoop]
    split
    · rfl
    · exact ih (i / 10) (digit (i % 10) :: acc)

/-- There are places for all digits in front of the pointer. -/
theorem itoaLoop_eq {p : Nat} {i : UInt32} {buffer : Block Char itoaSize} (hp : p ≤ itoaSize)
    (hpos : 0 < p) (hi : i.toNat < 10 ^ p) :
    ∃ q after, itoaLoop p i buffer = some (q, after) ∧
      after.cells.drop q = printLoop p i.toNat (buffer.cells.drop p) := by
  induction p generalizing i buffer with
  | zero => omega
  | succ p ih =>
    have hmod : (i % 10).toNat = i.toNat % 10 := by simp
    have hdiv : (i / 10).toNat = i.toNat / 10 := by simp
    have hzero : i / 10 = 0 ↔ i.toNat / 10 = 0 := by
      rw [← UInt32.toNat_inj, hdiv]
      simp
    have hdrop := drop_set_last buffer hp (digit (i % 10).toNat)
    rw [hmod] at hdrop
    simp only [itoaLoop, printLoop, hzero, hmod]
    split
    · exact ⟨p, _, rfl, hdrop⟩
    · rename_i hmore
      have hlt : (i / 10).toNat < 10 ^ p := by
        rw [hdiv, Nat.div_lt_iff_lt_mul (by omega), ← Nat.pow_succ]
        exact hi
      have hleft : 0 < p := by
        rcases Nat.eq_zero_or_pos p with rfl | h
        · rw [hdiv, Nat.pow_zero] at hlt
          omega
        · exact h
      rw [← hdrop, ← hdiv]
      exact ih (by omega) hleft hlt

theorem nul_notMem_itoa (n : Nat) : nul ∉ svzItoa n := by
  intro hmem
  have hdigit : ¬ IsDigit nul := by decide
  exact hdigit (isDigit_of_mem_itoa hmem)

/-- The text is in the buffer, behind what is left of earlier ones. -/
theorem itoa_buffer (buffer : Block Char itoaSize) (n : UInt32) :
    ∃ p after, svzItoaIn buffer n = some (p, after) ∧ textAt after p = svzItoa n.toNat := by
  have hlast : (buffer.set (itoaSize - 1) nul).cells.drop (itoaSize - 1) = [nul] := by
    rw [drop_set_last buffer (by decide) nul, List.drop_eq_nil_of_le]
    rw [buffer.size]
    decide
  obtain ⟨p, after, hloop, hdrop⟩ := @itoaLoop_eq (itoaSize - 1) n
    (buffer.set (itoaSize - 1) nul) (by decide) (by decide) (unsigned_lt_pow n.toNat_lt)
  refine ⟨p, after, hloop, ?_⟩
  rw [textAt, hdrop, hlast]
  have happ := printLoop_append (itoaSize - 1) n.toNat [] [nul]
  rw [List.nil_append] at happ
  rw [happ]
  exact stringOf_append (nul_notMem_itoa n.toNat) []

/-! ## Reading -/

theorem toNat_accumulate (i : UInt32) (c : Char) :
    (i * 10 + UInt32.ofNat (c.toNat - 48)).toNat = accumulate unsignedSize i.toNat c := by
  simp [accumulate, unsignedSize]

theorem atoiLoop_append {digits str : Text} (i : UInt32) (hdigits : ∀ c ∈ digits, IsDigit c)
    (hstr : ∀ c ∈ str.head?, ¬ IsDigit c) :
    (atoiLoop i (digits ++ str)).toNat = digits.foldl (accumulate unsignedSize) i.toNat := by
  induction digits generalizing i with
  | nil =>
    cases str with
    | nil => rfl
    | cons c str => rw [List.nil_append, atoiLoop, if_neg (hstr c rfl), List.foldl_nil]
  | cons c digits ih =>
    rw [List.cons_append, atoiLoop, if_pos (hdigits c List.mem_cons_self), List.foldl_cons,
      ← toNat_accumulate]
    exact ih _ fun d hd => hdigits d (List.mem_cons_of_mem c hd)

theorem atoi_digits {digits str : Text} (hdigits : ∀ c ∈ digits, IsDigit c)
    (hstr : ∀ c ∈ str.head?, ¬ IsDigit c) :
    (svzAtoi (digits ++ str)).toNat = number digits % unsignedSize := by
  rw [svzAtoi, atoiLoop_append 0 hdigits hstr, ← foldl_accumulate]
  rfl

theorem atoi_itoa (n : UInt32) : svzAtoi (svzItoa n.toNat) = n := by
  have hread := @atoiLoop_append (svzItoa n.toNat) [] 0 (fun c hc => isDigit_of_mem_itoa hc)
    (by simp)
  rw [List.append_nil] at hread
  rw [svzAtoi, ← UInt32.toNat_inj, hread]
  exact foldl_itoa n.toNat_lt

theorem getId_digits {digits text : Text} (hdigits : ∀ c ∈ digits, IsDigit c)
    (htext : packetBoundary ∈ text) :
    getId (digits ++ idBoundary :: text) =
      some (number digits % unsignedSize, text.takeWhile (· ≠ packetBoundary)) := by
  rw [getId, scanDigits_append 0 hdigits not_isDigit_idBoundary, foldl_accumulate]
  simp [htext]

theorem parseResponse_digits {digits text : Text} (hdigits : ∀ c ∈ digits, IsDigit c)
    (htext : packetBoundary ∈ text) :
    parseResponse (digits ++ idBoundary :: text) =
      some (number digits % unsignedSize, shown (text.takeWhile (· ≠ packetBoundary))) := by
  rw [parseResponse, scanId_append 0 hdigits, foldl_accumulate]
  simp [htext]

/-! ## Ids -/

/-- Each number is printed within the buffer and read again, different numbers are printed
differently, and all loops read the same number from the same digits. -/
theorem callbackIds_read :
    (∀ (n : UInt32) (buffer : Block Char itoaSize),
      ∃ p after, svzItoaIn buffer n = some (p, after) ∧ textAt after p = svzItoa n.toNat ∧
        svzAtoi (textAt after p) = n) ∧
    (∀ (m n : UInt32) (b b' after after' : Block Char itoaSize) (p q : Nat),
      svzItoaIn b m = some (p, after) → svzItoaIn b' n = some (q, after') → m ≠ n →
      textAt after p ≠ textAt after' q) ∧
    (∀ digits text : Text, (∀ c ∈ digits, IsDigit c) → packetBoundary ∈ text →
      (svzAtoi digits).toNat = number digits % 2 ^ 32 ∧
      (svzAtoi (digits ++ idBoundary :: text)).toNat = number digits % 2 ^ 32 ∧
      (getId (digits ++ idBoundary :: text)).map Prod.fst = some (svzAtoi digits).toNat ∧
      (parseResponse (digits ++ idBoundary :: text)).map Prod.fst =
        some (svzAtoi digits).toNat) := by
  refine ⟨?_, ?_, ?_⟩
  · intro n buffer
    obtain ⟨p, after, heq, htext⟩ := itoa_buffer buffer n
    refine ⟨p, after, heq, htext, ?_⟩
    rw [htext, atoi_itoa]
  · intro m n b b' after after' p q hm hn hne htext
    obtain ⟨p', first, heq, hfirst⟩ := itoa_buffer b m
    obtain ⟨q', second, heq', hsecond⟩ := itoa_buffer b' n
    obtain ⟨rfl, rfl⟩ := Prod.mk.inj (Option.some.inj (hm.symm.trans heq))
    obtain ⟨rfl, rfl⟩ := Prod.mk.inj (Option.some.inj (hn.symm.trans heq'))
    apply hne
    rw [← atoi_itoa m, ← hfirst, htext, hsecond, atoi_itoa]
  · intro digits text hdigits htext
    have hbare := @atoi_digits digits [] hdigits (by simp)
    rw [List.append_nil] at hbare
    have hcolon : ∀ c ∈ (idBoundary :: text).head?, ¬ IsDigit c := by
      simpa using not_isDigit_idBoundary
    refine ⟨hbare, atoi_digits hdigits hcolon, ?_, ?_⟩
    · rw [getId_digits hdigits htext, hbare]
      rfl
    · rw [parseResponse_digits hdigits htext, hbare]
      rfl

/-- The number behind the largest one is read as zero. -/
theorem callbackIds_read_wrapped :
    (svzItoaIn (Block.replicate itoaSize 'x') 4294967295).map (fun r => textAt r.2 r.1) ≠
        (svzItoaIn (Block.replicate itoaSize 'y') 429496729).map (fun r => textAt r.2 r.1) ∧
      (svzAtoi "4294967296".toList).toNat = 0 ∧
      (getId "4294967296:kore\n".toList).map Prod.fst =
        some (svzAtoi "4294967296".toList).toNat ∧
      (parseResponse "4294967296:kore\n".toList).map Prod.fst =
        some (svzAtoi "4294967296".toList).toNat := by
  obtain ⟨hprint, hdiffer, hread⟩ := callbackIds_read
  obtain ⟨p, after, heq, -⟩ := hprint 4294967295 (Block.replicate itoaSize 'x')
  obtain ⟨q, after', heq', -⟩ := hprint 429496729 (Block.replicate itoaSize 'y')
  have hne := hdiffer _ _ _ _ _ _ _ _ heq heq' (by decide)
  obtain ⟨hvalue, -, hget, hparse⟩ :=
    hread "4294967296".toList "kore\n".toList (by simp [IsDigit]) (by decide)
  refine ⟨?_, hvalue, hget, hparse⟩
  simpa [heq, heq'] using hne

end Serveez.Coserver
