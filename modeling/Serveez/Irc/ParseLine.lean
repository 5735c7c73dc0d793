import Serveez.Irc.UserModes
import Serveez.Lib.CInt
import Serveez.Lib.Cut

/-!
# Reading configuration lines

`irc_parse_line` reads a line after a format. Behind a field one character is skipped, whatever it
is; a number may have no digits, a string ends where its buffer is full, what is behind the last
field is not looked at, and at the end of the line the loop ends before a string that is empty.

* `full_iff`: the lines in which all fields of a format are read.
* `laid_outputs`: what is read of a line that is laid out as the format says.
* `parsesRight_iff`: when both are the same.
-/

namespace Serveez.Irc

open Lib

/-- `MAX_TMP_STRLEN` -/
def maxTmpStrlen : Nat := 256

/-- A value that was stored. -/
inductive LineOutput
  | int (value : Int)
  | string (text : List UInt8)

/-- An `int` after an operation. -/
def toInt (i : Int) : Int := i.bmod (2 ^ 32)

/-- The loop over the digits. -/
def readInt (line : List UInt8) : Int :=
  (line.takeWhile isDigit).foldl (fun i c => toInt (toInt (i * 10) + (c.toNat - 48 : Nat))) 0

/-- The loop of a string: what is copied into a buffer of `avail` bytes, in front of the zero byte,
and what is left of the line. -/
def copyString (stop : UInt8) : Nat → List UInt8 → List UInt8 × List UInt8
  | _, [] => ([], [])
  | avail, c :: line =>
    if c = stop ∨ avail ≤ 1 then ([], c :: line)
    else
      let copied := copyString stop (avail - 1) line
      (c :: copied.1, copied.2)

/-- `irc_parse_line`: the values that are stored, which are as many as it returns. -/
def parseLine : List FormatItem → List UInt8 → List LineOutput
  | [], _ => []
  | _ :: _, [] => []
  | .char f :: format, c :: line => if f = c then parseLine format line else []
  | [.decimal], line => [.int (readInt line)]
  | .decimal :: _ :: format, line =>
    .int (readInt line) :: parseLine format ((line.dropWhile isDigit).drop 1)
  | [.string], line => [.string (copyString 0 maxTmpStrlen line).1]
  | .string :: next :: format, line =>
    let copied := copyString (stopAt (next :: format)) maxTmpStrlen line
    .string copied.1 :: parseLine format (copied.2.drop 1)

/-! ## Formats -/

/-- The number of values that a format asks for. -/
def conversions : List FormatItem → Nat
  | [] => 0
  | .char _ :: format => conversions format
  | _ :: format => conversions format + 1

/-- A format ends with a conversion. There is a character behind any other, which is not a digit
when this is a number. -/
def wellFormed : List FormatItem → Bool
  | [] => false
  | .char _ :: format => wellFormed format
  | [.decimal] => true
  | [.string] => true
  | .decimal :: .char c :: format => !isDigit c && wellFormed format
  | .string :: .char _ :: format => wellFormed format
  | _ :: _ :: _ => false

/-- A format of the configuration. -/
structure LineFormat where
  items : List FormatItem
  wf : wellFormed items = true

/-- `%s` and `%d` with colons between them. -/
def fields : List FormatItem → List FormatItem
  | [] => []
  | [item] => [item]
  | item :: items => item :: .char 58 :: fields items

def mFormat : LineFormat :=
  ⟨.char 77 :: .char 58 :: fields [.string, .string, .string, .decimal], rfl⟩

def aFormat : LineFormat := ⟨.char 65 :: .char 58 :: fields [.string, .string, .string], rfl⟩

def yFormat : LineFormat :=
  ⟨.char 89 :: .char 58 :: fields [.decimal, .decimal, .decimal, .decimal, .decimal], rfl⟩

def iFormat : LineFormat :=
  ⟨.char 73 :: .char 58 :: fields [.string, .string, .string, .string, .decimal], rfl⟩

def oFormat : LineFormat :=
  ⟨[.char 79, .char 58, .string, .char 58, .string, .char 58, .string, .char 58, .char 58,
    .decimal], rfl⟩

def kFormat : LineFormat :=
  ⟨[.char 79, .char 58, .string, .char 58, .decimal, .char 45, .decimal, .char 58, .string], rfl⟩

/-! ## Lines -/

/-- The number that some digits stand for. -/
def numberOf (digits : List UInt8) : Nat := digits.foldl (fun n c => 10 * n + (c.toNat - 48)) 0

/-- A line that is laid out as a format says, and its fields. -/
inductive Laid : List FormatItem → List UInt8 → List LineArg → Prop
  | char {c format line args} : Laid format line args → Laid (.char c :: format) (c :: line) args
  | decimal {digits c format line args} : digits ≠ [] → (∀ d ∈ digits, isDigit d = true) →
      Laid format line args →
      Laid (.decimal :: .char c :: format) (digits ++ c :: line)
        (.decimal (numberOf digits) :: args)
  | lastDecimal {digits} : digits ≠ [] → (∀ d ∈ digits, isDigit d = true) →
      Laid [.decimal] digits [.decimal (numberOf digits)]
  | string {text c format line args} : c ∉ text → text.length < maxTmpStrlen →
      Laid format line args →
      Laid (.string :: .char c :: format) (text ++ c :: line) (.string text :: args)
  | lastString {text} : text.length < maxTmpStrlen → Laid [.string] text [.string text]

/-- The lines that are read to the last field: what is behind a number need not be what the format
has there, nor what is behind a string that fills its buffer. -/
inductive Passes : List FormatItem → List UInt8 → Prop
  | char {c format line} : Passes format line → Passes (.char c :: format) (c :: line)
  | decimal {digits c d format line} : (∀ d ∈ digits, isDigit d = true) → isDigit d = false →
      Passes format line → Passes (.decimal :: .char c :: format) (digits ++ d :: line)
  | lastDecimal {line} : line ≠ [] → Passes [.decimal] line
  | string {text c d format line} : c ∉ text →
      (d = c ∧ text.length < maxTmpStrlen) ∨ (d ≠ c ∧ text.length + 1 = maxTmpStrlen) →
      Passes format line → Passes (.string :: .char c :: format) (text ++ d :: line)
  | lastString {line} : line ≠ [] → Passes [.string] line

/-- A line of the configuration, a string. -/
structure ConfigLine where
  bytes : List UInt8
  noZero : 0 ∉ bytes

/-- The value that a field of a line should come to. -/
def outputOf : LineArg → LineOutput
  | .decimal value => .int value
  | .string text => .string text

/-- All values are there just when the line is laid out as the format says, and then they are those
of the line. -/
structure ParsesRight (format : LineFormat) (line : ConfigLine) : Prop where
  full_iff : (parseLine format.items line.bytes).length = conversions format.items ↔
    ∃ args, Laid format.items line.bytes args
  values : ∀ args, Laid format.items line.bytes args →
    parseLine format.items line.bytes = args.map outputOf

/-- A line that is read to the last field is laid out as the format says; if it is, the last field
is not an empty string, and all numbers are numbers of an `int`. -/
structure MeetsFormat (format : LineFormat) (line : ConfigLine) : Prop where
  laid : Passes format.items line.bytes → ∃ args, Laid format.items line.bytes args
  ends : ∀ args, Laid format.items line.bytes args → args.getLast? ≠ some (.string [])
  small : ∀ args, Laid format.items line.bytes args → ∀ n, .decimal n ∈ args → n < 2 ^ 31

/-! ## Numbers -/

theorem toInt_add_toInt (a b : Int) : toInt (toInt a + b) = toInt (a + b) := Int.bmod_add_bmod

theorem toInt_mul_toInt (a b : Int) : toInt (toInt a * b) = toInt (a * b) := Int.bmod_mul_bmod

theorem foldl_toInt (digits : List UInt8) (n : Nat) :
    digits.foldl (fun i c => toInt (toInt (i * 10) + (c.toNat - 48 : Nat))) (toInt n) =
      toInt (digits.foldl (fun n c => 10 * n + (c.toNat - 48)) n : Nat) := by
  induction digits generalizing n with
  | nil => rw [List.foldl_nil, List.foldl_nil]
  | cons c digits ih =>
    have hstep : toInt (toInt (toInt n * 10) + (c.toNat - 48 : Nat)) =
        toInt ((10 * n + (c.toNat - 48) : Nat)) := by
      rw [toInt_add_toInt, ← toInt_add_toInt, toInt_mul_toInt, toInt_add_toInt, Int.natCast_add,
        Int.natCast_mul, Int.mul_comm]
      rfl
    rw [List.foldl_cons, List.foldl_cons, hstep, ih]

theorem readInt_eq (line : List UInt8) :
    readInt line = wrapInt (numberOf (line.takeWhile isDigit)) :=
  foldl_toInt (line.takeWhile isDigit) 0

/-! ## Strings -/

variable {stop : UInt8} {avail : Nat} {text line : List UInt8}

theorem copyString_cut (htext : stop ∉ text) {d : UInt8}
    (hd : (d = stop ∧ text.length < avail) ∨ text.length + 1 = avail) (line : List UInt8) :
    copyString stop avail (text ++ d :: line) = (text, d :: line) := by
  induction text generalizing avail with
  | nil =>
    rw [List.nil_append, copyString, if_pos]
    rcases hd with ⟨rfl, -⟩ | hfull
    · exact Or.inl rfl
    · exact Or.inr (by simpa using hfull.symm.le)
  | cons c text ih =>
    simp only [List.mem_cons, not_or] at htext
    simp only [List.length_cons] at hd
    rw [List.cons_append, copyString, if_neg]
    · dsimp only
      have hrest : (d = stop ∧ text.length < avail - 1) ∨ text.length + 1 = avail - 1 :=
        hd.imp (fun h => ⟨h.1, by omega⟩) (fun h => by omega)
      rw [ih htext.2 hrest]
    · rintro (rfl | hle)
      · exact htext.1 rfl
      · omega

theorem copyString_all (htext : stop ∉ text) (hlength : text.length < avail) :
    copyString stop avail text = (text, []) := by
  induction text generalizing avail with
  | nil => rfl
  | cons c text ih =>
    simp only [List.mem_cons, not_or] at htext
    simp only [List.length_cons] at hlength
    rw [copyString, if_neg]
    · dsimp only
      rw [ih htext.2 (by omega)]
    · rintro (rfl | hle)
      · exact htext.1 rfl
      · omega

/-- What is copied fits into the buffer with its zero byte, and stops where it should or where the
buffer is full. -/
theorem copyString_spec (stop : UInt8) (havail : 0 < avail) (line : List UInt8) :
    ∃ text rest, line = text ++ rest ∧ copyString stop avail line = (text, rest) ∧ stop ∉ text ∧
      text.length < avail ∧
        ∀ d, rest.head? = some d → (d = stop ∧ text.length < avail) ∨ text.length + 1 = avail := by
  induction line generalizing avail with
  | nil => exact ⟨[], [], rfl, rfl, List.not_mem_nil, havail, fun d hd => nomatch hd⟩
  | cons c line ih =>
    by_cases hstop : c = stop ∨ avail ≤ 1
    · refine ⟨[], c :: line, rfl, by rw [copyString, if_pos hstop], List.not_mem_nil, havail, ?_⟩
      intro d hd
      obtain rfl := Option.some.inj hd
      rcases hstop with hstop | hle
      · exact Or.inl ⟨hstop, havail⟩
      · exact Or.inr (by simp only [List.length_nil]; omega)
    · obtain ⟨text, rest, rfl, hcopy, htext, hlength, hrest⟩ := @ih (avail - 1) (by omega)
      simp only [not_or] at hstop
      refine ⟨c :: text, rest, rfl, ?_, ?_, ?_, ?_⟩
      · rw [copyString, if_neg (by simp only [hstop, false_or, not_false_eq_true])]
        dsimp only
        rw [hcopy]
      · simp only [List.mem_cons, not_or]
        exact ⟨fun h => hstop.1 h.symm, htext⟩
      · rw [List.length_cons]
        omega
      · intro d hd
        rw [List.length_cons]
        rcases hrest d hd with ⟨hsame, hlt⟩ | hfull
        · exact Or.inl ⟨hsame, by omega⟩
        · exact Or.inr (by omega)

theorem copyString_take (havail : 0 < avail) (line : List UInt8) :
    (copyString stop avail line).1 = (line.take (avail - 1)).takeWhile (· ≠ stop) ∧
      (copyString stop avail line).2 =
        line.drop ((line.take (avail - 1)).takeWhile (· ≠ stop)).length := by
  obtain ⟨text, rest, rfl, hcopy, htext, hlength, hrest⟩ := copyString_spec stop havail line
  have htake : ((text ++ rest).take (avail - 1)).takeWhile (· ≠ stop) = text := by
    rw [List.take_append, List.take_of_length_le (by omega)]
    cases rest with
    | nil =>
      rw [List.take_nil, List.append_nil]
      exact takeWhile_ne_self htext
    | cons d rest =>
      rcases hrest d rfl with ⟨rfl, -⟩ | hfull
      · cases hroom : avail - 1 - text.length with
        | zero =>
          rw [List.take_zero, List.append_nil]
          exact takeWhile_ne_self htext
        | succ room =>
          rw [List.take_succ_cons]
          exact takeWhile_ne_cut htext _
      · rw [show avail - 1 - text.length = 0 by omega, List.take_zero, List.append_nil]
        exact takeWhile_ne_self htext
  rw [htake, hcopy, List.drop_left]
  exact ⟨rfl, rfl⟩

/-! ## Conversions -/

theorem parseLine_decimal (hline : line ≠ []) (next : FormatItem) (format : List FormatItem) :
    parseLine (.decimal :: next :: format) line =
      .int (readInt line) :: parseLine format ((line.dropWhile isDigit).drop 1) := by
  cases line with
  | nil => exact absurd rfl hline
  | cons c line => rfl

theorem parseLine_string (hline : line ≠ []) (next : FormatItem) (format : List FormatItem) :
    parseLine (.string :: next :: format) line =
      .string (copyString (stopAt (next :: format)) maxTmpStrlen line).1 ::
        parseLine format ((copyString (stopAt (next :: format)) maxTmpStrlen line).2.drop 1) := by
  cases line with
  | nil => exact absurd rfl hline
  | cons c line => rfl

theorem parseLine_last (hline : line ≠ []) :
    parseLine [.decimal] line = [.int (readInt line)] ∧
      parseLine [.string] line = [.string (copyString 0 maxTmpStrlen line).1] := by
  cases line with
  | nil => exact absurd rfl hline
  | cons c line => exact ⟨rfl, rfl⟩

theorem parseLine_nil (format : List FormatItem) : parseLine format [] = [] := by
  cases format with
  | nil => rfl
  | cons item format => rfl

/-- A value as it is stored. -/
def storedAs : LineArg → LineOutput
  | .decimal value => .int (wrapInt value)
  | .string text => .string text

/-- The values of `ircParseLine`, with the numbers of an `int`. -/
theorem parseLine_eq (format : List FormatItem) (line : List UInt8) :
    parseLine format line = (ircParseLine format line).map storedAs := by
  have hroom : 0 < maxTmpStrlen := by decide
  induction format, line using parseLine.induct with
  | case1 => rfl
  | case2 => rfl
  | case3 format c line ih =>
    rw [parseLine, ircParseLine, if_pos rfl, if_pos rfl]
    exact ih
  | case4 f format c line hne => rw [parseLine, ircParseLine, if_neg hne, if_neg hne, List.map_nil]
  | case5 line hline =>
    rw [(parseLine_last hline).1, ircParseLine, readInt_eq]
    · rfl
    · exact hline
  | case6 next format line hline ih =>
    rw [parseLine_decimal hline, ircParseLine, readInt_eq, ih]
    · rfl
    · exact hline
  | case7 line hline =>
    rw [(parseLine_last hline).2, ircParseLine, (copyString_take hroom line).1]
    · rfl
    · exact hline
  | case8 next format line hline copied ih =>
    obtain ⟨htext, hrest⟩ := @copyString_take (stopAt (next :: format)) _ hroom line
    rw [parseLine_string hline, ircParseLine, ih]
    · change _ = _ :: _
      rw [htext, hrest, List.drop_drop]
      rfl
    · exact hline

/-! ## Lines that are read to the last field -/

variable {format : List FormatItem}

theorem conversions_pos (hwf : wellFormed format = true) : 0 < conversions format := by
  induction format with
  | nil => exact absurd hwf (by decide)
  | cons item format ih =>
    cases item with
    | char c => exact ih hwf
    | decimal => exact Nat.succ_pos _
    | string => exact Nat.succ_pos _

/-- There is a character behind a conversion that is not the last. -/
theorem wellFormed_next {next : FormatItem} :
    (wellFormed (.decimal :: next :: format) = true →
      ∃ c, next = .char c ∧ isDigit c = false ∧ wellFormed format = true) ∧
    (wellFormed (.string :: next :: format) = true →
      ∃ c, next = .char c ∧ wellFormed format = true) := by
  cases next with
  | char c =>
    refine ⟨fun h => ⟨c, rfl, ?_⟩, fun h => ⟨c, rfl, h⟩⟩
    simpa [wellFormed] using h
  | decimal => exact ⟨fun h => absurd h Bool.false_ne_true, fun h => absurd h Bool.false_ne_true⟩
  | string => exact ⟨fun h => absurd h Bool.false_ne_true, fun h => absurd h Bool.false_ne_true⟩

theorem not_passes_nil : ¬ Passes format [] := by
  intro h
  generalize hline : ([] : List UInt8) = line at h
  cases h with
  | char => exact absurd hline.symm (List.cons_ne_nil _ _)
  | decimal => simp at hline
  | lastDecimal hne => exact hne hline.symm
  | string => simp at hline
  | lastString hne => exact hne hline.symm

theorem passes_decimal {c : UInt8} {line : List UInt8} :
    Passes (.decimal :: .char c :: format) line ↔
      Passes format ((line.dropWhile isDigit).drop 1) := by
  constructor
  · intro h
    cases h with
    | decimal hdigits hd hrest =>
      rename_i digits d rest
      have hdrop : (digits ++ d :: rest).dropWhile isDigit = d :: rest := by
        have hno : ¬ isDigit d = true := by rw [hd]; exact Bool.false_ne_true
        rw [List.dropWhile_append_of_pos hdigits, List.dropWhile_cons_of_neg hno]
      rw [hdrop]
      exact hrest
  · intro h
    cases hdrop : line.dropWhile isDigit with
    | nil =>
      rw [hdrop] at h
      exact absurd h not_passes_nil
    | cons d rest =>
      have hd : isDigit d = false := by
        have hno := not_of_dropWhile (P := fun c => isDigit c = true) (by simpa using hdrop)
        simpa using hno
      rw [hdrop] at h
      rw [← List.takeWhile_append_dropWhile (p := isDigit) (l := line), hdrop]
      exact .decimal (fun c hc => List.mem_takeWhile_imp hc) hd h

theorem passes_string {c : UInt8} {line : List UInt8} :
    Passes (.string :: .char c :: format) line ↔
      Passes format ((copyString c maxTmpStrlen line).2.drop 1) := by
  constructor
  · intro h
    cases h with
    | string htext hd hrest =>
      rw [copyString_cut htext (hd.imp id (fun h => h.2))]
      exact hrest
  · intro h
    obtain ⟨text, rest, rfl, hcopy, htext, hlength, hrest⟩ :=
      copyString_spec c (by decide : 0 < maxTmpStrlen) line
    rw [hcopy] at h
    cases rest with
    | nil => exact absurd h not_passes_nil
    | cons d rest =>
      apply Passes.string htext ?_ h
      by_cases hsame : d = c
      · exact Or.inl ⟨hsame, hlength⟩
      · exact Or.inr ⟨hsame, (hrest d rfl).resolve_left (fun h => hsame h.1)⟩

/-- All values of a format are read just of the lines that pass. -/
theorem full_iff (hwf : wellFormed format = true) (line : List UInt8) :
    (parseLine format line).length = conversions format ↔ Passes format line := by
  induction format, line using parseLine.induct with
  | case1 => exact absurd hwf Bool.false_ne_true
  | case2 item format =>
    refine iff_of_false ?_ not_passes_nil
    rw [parseLine_nil]
    exact (conversions_pos hwf).ne
  | case3 format c line ih =>
    rw [parseLine, if_pos rfl]
    refine (ih hwf).trans ⟨.char, fun h => ?_⟩
    cases h with
    | char hrest => exact hrest
  | case4 f format c line hne =>
    rw [parseLine, if_neg hne]
    refine iff_of_false (@conversions_pos format hwf).ne (fun h => ?_)
    cases h with
    | char => exact hne rfl
  | case5 line hline =>
    rw [(parseLine_last hline).1]
    exact iff_of_true rfl (.lastDecimal hline)
  | case6 next format line hline ih =>
    obtain ⟨c, rfl, -, hrest⟩ := wellFormed_next.1 hwf
    rw [parseLine_decimal hline, passes_decimal]
    exact Nat.add_right_cancel_iff.trans (ih hrest)
  | case7 line hline =>
    rw [(parseLine_last hline).2]
    exact iff_of_true rfl (.lastString hline)
  | case8 next format line hline copied ih =>
    obtain ⟨c, rfl, hrest⟩ := wellFormed_next.2 hwf
    rw [parseLine_string hline, passes_string]
    exact Nat.add_right_cancel_iff.trans (ih hrest)

/-! ## Lines that are laid out as a format says -/

variable {args : List LineArg}

/-- What is read of the fields of such a line: at its end no string is looked for. -/
def seen (args : List LineArg) : List LineArg :=
  if args.getLast? = some (.string []) then args.dropLast else args

theorem seen_cons (arg : LineArg) (hargs : args ≠ []) : seen (arg :: args) = arg :: seen args := by
  cases args with
  | nil => exact absurd rfl hargs
  | cons next args =>
    unfold seen
    rw [List.getLast?_cons_cons]
    split_ifs
    · rfl
    · rfl

theorem laid_length (h : Laid format line args) :
    args.length = conversions format ∧ args ≠ [] := by
  induction h with
  | char _ ih => exact ih
  | decimal _ _ _ ih => exact ⟨congrArg (· + 1) ih.1, List.cons_ne_nil _ _⟩
  | lastDecimal => exact ⟨rfl, List.cons_ne_nil _ _⟩
  | string _ _ _ ih => exact ⟨congrArg (· + 1) ih.1, List.cons_ne_nil _ _⟩
  | lastString => exact ⟨rfl, List.cons_ne_nil _ _⟩

theorem laid_outputs (h : Laid format line args) (hwf : wellFormed format = true)
    (hzero : 0 ∉ line) : parseLine format line = (seen args).map storedAs := by
  induction h with
  | @char c format line args _ ih =>
    rw [parseLine, if_pos rfl]
    exact ih hwf (fun hmem => hzero (List.mem_cons_of_mem _ hmem))
  | @decimal digits c format line args hne hdigits hlaid ih =>
    obtain ⟨d, hd, hc, hrest⟩ := wellFormed_next.1 hwf
    obtain rfl := FormatItem.char.inj hd
    have hno : ¬ isDigit c = true := by rw [hc]; exact Bool.false_ne_true
    have htake : (digits ++ c :: line).takeWhile isDigit = digits := by
      rw [List.takeWhile_append_of_pos hdigits, List.takeWhile_cons_of_neg hno, List.append_nil]
    have hdrop : (digits ++ c :: line).dropWhile isDigit = c :: line := by
      rw [List.dropWhile_append_of_pos hdigits, List.dropWhile_cons_of_neg hno]
    have hnext := ih hrest (fun hmem =>
      hzero (List.mem_append_right _ (List.mem_cons_of_mem _ hmem)))
    rw [parseLine_decimal (by simp), readInt_eq, htake, hdrop, List.drop_succ_cons,
      List.drop_zero, hnext, seen_cons _ (laid_length hlaid).2]
    rfl
  | @lastDecimal digits hne hdigits =>
    have htake : digits.takeWhile isDigit = digits := List.takeWhile_eq_self_iff.mpr hdigits
    rw [(parseLine_last hne).1, readInt_eq, htake]
    rfl
  | @string text c format line args htext hlength hlaid ih =>
    obtain ⟨d, hd, hrest⟩ := wellFormed_next.2 hwf
    obtain rfl := FormatItem.char.inj hd
    have hnext := ih hrest (fun hmem =>
      hzero (List.mem_append_right _ (List.mem_cons_of_mem _ hmem)))
    have hcopy : copyString (stopAt (.char c :: format)) maxTmpStrlen (text ++ c :: line) =
        (text, c :: line) := copyString_cut htext (Or.inl ⟨rfl, hlength⟩) line
    rw [parseLine_string (by simp), hcopy, List.drop_succ_cons, List.drop_zero, hnext,
      seen_cons _ (laid_length hlaid).2]
    rfl
  | @lastString text hlength =>
    by_cases hempty : text = []
    · subst hempty
      rfl
    · rw [(parseLine_last hempty).2, copyString_all hzero hlength]
      unfold seen
      rw [if_neg (by simpa using hempty)]
      rfl

theorem seen_eq_self_iff (hargs : args ≠ []) :
    (seen args).length = args.length ↔ args.getLast? ≠ some (.string []) := by
  have hpos := List.length_pos_iff.mpr hargs
  unfold seen
  split_ifs with hlast
  · rw [List.length_dropLast]
    exact iff_of_false (by omega) (fun hne => hne hlast)
  · exact iff_of_true rfl hlast

/-- Such a line is read to its last field unless this is an empty string. -/
theorem laid_full_iff (h : Laid format line args) (hwf : wellFormed format = true)
    (hzero : 0 ∉ line) :
    (parseLine format line).length = conversions format ↔ args.getLast? ≠ some (.string []) := by
  rw [laid_outputs h hwf hzero, List.length_map, ← (laid_length h).1]
  exact seen_eq_self_iff (laid_length h).2

theorem map_storedAs_iff (args : List LineArg) :
    args.map storedAs = args.map outputOf ↔ ∀ n, .decimal n ∈ args → wrapInt n = n := by
  rw [List.map_inj_left]
  constructor
  · intro h n hn
    exact LineOutput.int.inj (h _ hn)
  · intro h arg harg
    cases arg with
    | decimal n => exact congrArg LineOutput.int (h n harg)
    | string text => rfl

theorem wrapInt_eq_iff (n : Nat) : wrapInt n = n ↔ n < 2 ^ 31 := by
  refine ⟨fun h => ?_, wrapInt_eq⟩
  have hlt : wrapInt n < 2 ^ 31 := by
    unfold wrapInt
    rw [Int.bmod_def]
    omega
  omega

theorem parsesRight_iff (format : LineFormat) (line : ConfigLine) :
    ParsesRight format line ↔ MeetsFormat format line := by
  have hfull := full_iff format.wf line.bytes
  have hlaid := fun args (h : Laid format.items line.bytes args) =>
    laid_full_iff h format.wf line.noZero
  have hseen : ∀ args, args.getLast? ≠ some (LineArg.string []) → seen args = args :=
    fun args hlast => if_neg hlast
  constructor
  · intro h
    have hends : ∀ args, Laid format.items line.bytes args →
        args.getLast? ≠ some (.string []) :=
      fun args hargs => (hlaid args hargs).mp (h.full_iff.mpr ⟨args, hargs⟩)
    refine ⟨fun hpasses => h.full_iff.mp (hfull.mpr hpasses), hends, fun args hargs n hn => ?_⟩
    have hvalues := h.values args hargs
    rw [laid_outputs hargs format.wf line.noZero, hseen args (hends args hargs),
      map_storedAs_iff] at hvalues
    exact (wrapInt_eq_iff n).mp (hvalues n hn)
  · intro h
    refine ⟨⟨fun hcount => h.laid (hfull.mp hcount), ?_⟩, fun args hargs => ?_⟩
    · rintro ⟨args, hargs⟩
      exact (hlaid args hargs).mpr (h.ends args hargs)
    · rw [laid_outputs hargs format.wf line.noZero, hseen args (h.ends args hargs),
        map_storedAs_iff]
      exact fun n hn => (wrapInt_eq_iff n).mpr (h.small args hargs n hn)

/-- No string is longer than its buffer, with its zero byte. -/
theorem string_fits (format : List FormatItem) (line : List UInt8) :
    ∀ text, .string text ∈ parseLine format line → text.length + 1 ≤ maxTmpStrlen := by
  have hcopied : ∀ stop line, (copyString stop maxTmpStrlen line).1.length + 1 ≤ maxTmpStrlen := by
    intro stop line
    obtain ⟨text, rest, rfl, hcopy, -, hlength, -⟩ :=
      copyString_spec stop (by decide : 0 < maxTmpStrlen) line
    rw [hcopy]
    exact hlength
  induction format, line using parseLine.induct with
  | case1 => exact fun text htext => absurd htext List.not_mem_nil
  | case2 item format =>
    rw [parseLine_nil]
    exact fun text htext => absurd htext List.not_mem_nil
  | case3 format c line ih =>
    rw [parseLine, if_pos rfl]
    exact ih
  | case4 f format c line hne =>
    rw [parseLine, if_neg hne]
    exact fun text htext => absurd htext List.not_mem_nil
  | case5 line hline =>
    rw [(parseLine_last hline).1]
    intro text htext
    exact absurd (List.mem_singleton.mp htext) (by simp)
  | case6 next format line hline ih =>
    rw [parseLine_decimal hline]
    intro text htext
    exact ih text ((List.mem_cons.mp htext).resolve_left (by simp))
  | case7 line hline =>
    rw [(parseLine_last hline).2]
    intro text htext
    rw [LineOutput.string.inj (List.mem_singleton.mp htext)]
    exact hcopied 0 line
  | case8 next format line hline copied ih =>
    rw [parseLine_string hline]
    intro text htext
    rcases List.mem_cons.mp htext with heq | htext
    · rw [LineOutput.string.inj heq]
      exact hcopied _ line
    · exact ih text htext

end Serveez.Irc
