import Serveez.Http.DocumentRoot
import Serveez.Lib.Cut
import Mathlib.Algebra.Group.Int.Defs
import Mathlib.Algebra.Group.Nat.Defs

/-!
# Ranges of a file

`http_get_range` takes the numbers out of the value of a `Range` header, with zero for those that
are not there. `http_check_range` refuses a first byte of zero and one that is not before the last,
and passes an open range by its zero. What is behind the numbers is not looked at.

* `httpGetRange_reads`: the numbers of a value are the ones in it.
* `respond_reads`: the response goes by these numbers only.
* `ranges_right_iff`: the values that get the response that they ask for.
-/

namespace Serveez.Http.Ranges

open Lib

/-! ## The code -/

/-- What becomes of a number in an `off_t`. -/
def offT (n : Int) : Int := n.bmod (2 ^ 64)

structure HttpRange where
  first : Int
  last : Int
  length : Int

/-- `HTTP_BYTES` -/
def httpBytes : Path := [98, 121, 116, 101, 115]

def IsDigit (c : UInt8) : Prop := 48 ≤ c ∧ c ≤ 57

instance (c : UInt8) : Decidable (IsDigit c) := inferInstanceAs (Decidable (_ ∧ _))

/-- A loop over digits; the string ends with no digit. -/
def scanNumber : Int → Path → Int × Path
  | n, [] => (n, [])
  | n, c :: p =>
    if IsDigit c then scanNumber (offT (offT (n * 10) + (c.toNat - 48))) p else (n, c :: p)

def getLength (first last : Int) (p : Path) : HttpRange :=
  match p with
  | 47 :: p => ⟨first, last, (scanNumber 0 p).1⟩
  | _ => ⟨first, last, 0⟩

def getLast (first : Int) (p : Path) : HttpRange :=
  match p with
  | 45 :: p => getLength first (scanNumber 0 p).1 (scanNumber 0 p).2
  | _ => ⟨first, 0, 0⟩

def getFirst (p : Path) : HttpRange :=
  match p with
  | 61 :: p => getLast (scanNumber 0 p).1 (scanNumber 0 p).2
  | _ => ⟨0, 0, 0⟩

/-- `http_get_range`; without a range it returns -1. It has no result if it reads behind the
terminator of the value. -/
def httpGetRange (value : Path) : Option (Option HttpRange) :=
  if httpBytes.length ≤ value.length ∧ value.take httpBytes.length ≠ httpBytes then some none
  else if value.length < httpBytes.length then none
  else some (some (getFirst (value.drop httpBytes.length)))

/-- `http_check_range` returns zero. -/
def Passes (range : HttpRange) (filesize : Int) : Prop :=
  ¬ (range.first ≤ 0 ∨ (range.last ≠ 0 ∧ range.last ≤ range.first) ∨
    (range.last ≥ filesize ∨ range.length > filesize))

instance (range : HttpRange) (filesize : Int) : Decidable (Passes range filesize) :=
  inferInstanceAs (Decidable (¬ _))

/-- A regular file. `seeks` is whether `lseek` goes to a place. -/
structure RangeFile where
  size : Nat
  fits : size < 2 ^ 63
  seeks : Int → Bool
  inside : ∀ n : Int, 0 ≤ n → n < size → seeks n = true

/-- The response to a request for a range: with the first and the last byte and the
`Content-Length` if it has status 206. -/
inductive Response
  | full
  | part (first last contentLength : Int)
  | invalidRange
  deriving DecidableEq

/-- The part of `http_get_response` that is about the range. -/
def respondRange (file : RangeFile) (range : HttpRange) : Response :=
  if Passes range file.size then
    let last := if range.last = 0 then (file.size : Int) - 1 else range.last
    if file.seeks range.first then .part range.first last (last - range.first + 1)
    else .invalidRange
  else .invalidRange

def respond (file : RangeFile) (value : Path) : Option Response :=
  (httpGetRange value).map fun
    | none => .full
    | some range => respondRange file range

/-! ## What a value asks for -/

/-- A number with some more digits behind it. -/
def extend (n : Nat) (digits : Path) : Nat := digits.foldl (fun n c => n * 10 + (c.toNat - 48)) n

def number (digits : Path) : Nat := extend 0 digits

def Digits (p : Path) : Prop := ∀ c ∈ p, IsDigit c

instance (p : Path) : Decidable (Digits p) := inferInstanceAs (Decidable (∀ c ∈ p, _))

/-- `bytes=a-b` -/
structure AsksClosed (value : Path) (a b : Nat) : Prop where
  text : ∃ da db, Digits da ∧ da ≠ [] ∧ Digits db ∧ db ≠ [] ∧ number da = a ∧ number db = b ∧
    value = httpBytes ++ 61 :: (da ++ 45 :: db)

/-- `bytes=a-` -/
structure AsksOpen (value : Path) (a : Nat) : Prop where
  text : ∃ da, Digits da ∧ da ≠ [] ∧ number da = a ∧ value = httpBytes ++ 61 :: (da ++ [45])

/-- The value asks for these bytes of a file. -/
def Asks (size : Nat) (value : Path) (a b : Nat) : Prop :=
  AsksClosed value a b ∧ a ≤ b ∧ b < size ∨ AsksOpen value a ∧ a < size ∧ b + 1 = size

/-- What is asked for is given, and nothing else is. -/
structure Gives (size : Nat) (value : Path) (r : Response) : Prop where
  given : ∀ a b : Nat, Asks size value a b → r = .part a b (b - a + 1)
  asked : ∀ first last contentLength, r = .part first last contentLength →
    ∃ a b, Asks size value a b

/-- The value is read up to its end at most, and the response is right. -/
def Right (file : RangeFile) (value : Path) : Prop :=
  ∃ r, respond file value = some r ∧ Gives file.size value r

/-! ## When it is given -/

def NoDigit (p : Path) : Prop := ∀ c rest, p = c :: rest → ¬ IsDigit c

/-- The numbers that stand in a value, as they fit into an `off_t`, and zero for those that do
not. -/
inductive Reads : Path → HttpRange → Prop
  | nothing {p : Path} : p.head? ≠ some 61 → Reads (httpBytes ++ p) ⟨0, 0, 0⟩
  | first {da p : Path} : Digits da → NoDigit p → p.head? ≠ some 45 →
      Reads (httpBytes ++ 61 :: (da ++ p)) ⟨offT (number da), 0, 0⟩
  | last {da db p : Path} : Digits da → Digits db → NoDigit p → p.head? ≠ some 47 →
      Reads (httpBytes ++ 61 :: (da ++ 45 :: (db ++ p)))
        ⟨offT (number da), offT (number db), 0⟩
  | length {da db dl p : Path} : Digits da → Digits db → Digits dl → NoDigit p →
      Reads (httpBytes ++ 61 :: (da ++ 45 :: (db ++ 47 :: (dl ++ p))))
        ⟨offT (number da), offT (number db), offT (number dl)⟩

/-- The numbers are taken for a range: the first is not zero, and the last is zero or behind it and
inside of the file. -/
def Accepts (file : RangeFile) (range : HttpRange) : Prop :=
  0 < range.first ∧ (range.last = 0 ∨ range.first < range.last) ∧ range.last < file.size ∧
    range.length ≤ file.size ∧ file.seeks range.first = true

def Taken (file : RangeFile) (value : Path) : Prop :=
  ∃ range, Reads value range ∧ Accepts file range

/-- The value has the length of its unit, a range that it asks for does not begin with the first
byte of the file and is open or longer than one byte, and if it asks for none it has no numbers
that are taken for one. -/
structure Meets (file : RangeFile) (value : Path) : Prop where
  unit : httpBytes.length ≤ value.length
  closed : ∀ a b, AsksClosed value a b → a ≤ b → b < file.size → 0 < a ∧ a < b
  openEnd : ∀ a, AsksOpen value a → a < file.size → 0 < a
  otherwise : (¬ ∃ a b, Asks file.size value a b) → ¬ Taken file value

/-! ## Numbers -/

variable {file : RangeFile} {value : Path}

theorem offT_step (n : Nat) (c : UInt8) (hc : IsDigit c) :
    offT (offT (offT n * 10) + (c.toNat - 48)) = offT ((n * 10 + (c.toNat - 48) : Nat) : Int) := by
  have hle : 48 ≤ c.toNat := hc.1
  have hcast : ((n * 10 + (c.toNat - 48) : Nat) : Int) = (n : Int) * 10 + (c.toNat - 48) := by
    omega
  unfold offT
  rw [Int.bmod_mul_bmod, Int.bmod_add_bmod, hcast]

theorem scanNumber_append {digits p : Path} (hdigits : Digits digits) (hp : NoDigit p) (n : Nat) :
    scanNumber (offT n) (digits ++ p) =
      (offT (extend n digits), p) := by
  induction digits generalizing n with
  | nil =>
    cases p with
    | nil => rfl
    | cons c p => exact if_neg (hp c p rfl)
  | cons c digits ih =>
    have hc := hdigits c List.mem_cons_self
    rw [List.cons_append, scanNumber, if_pos hc, offT_step n c hc,
      ih (fun d hd => hdigits d (List.mem_cons_of_mem c hd))]
    rfl

theorem offT_eq {n : Nat} (h : n < 2 ^ 63) : offT n = n := by
  unfold offT
  rw [Int.bmod_def]
  omega

theorem scanNumber_zero {digits p : Path} (hdigits : Digits digits) (hp : NoDigit p) :
    scanNumber 0 (digits ++ p) = (offT (number digits), p) := by
  have hscan := scanNumber_append hdigits hp 0
  rw [offT_eq (by decide)] at hscan
  exact hscan

theorem noDigit_nil : NoDigit [] := fun _ _ h => absurd h.symm (List.cons_ne_nil _ _)

theorem noDigit_cons {c : UInt8} (hc : ¬ IsDigit c) (p : Path) : NoDigit (c :: p) := by
  rintro _ _ ⟨⟩
  exact hc

/-- A text is digits and what does not begin with one. -/
theorem exists_digits (p : Path) : ∃ digits rest, Digits digits ∧ NoDigit rest ∧
    p = digits ++ rest := by
  refine ⟨p.takeWhile (IsDigit ·), p.dropWhile (IsDigit ·), ?_, ?_, ?_⟩
  · exact fun c hc => of_mem_takeWhile hc
  · exact fun c rest hrest => not_of_dropWhile hrest
  · exact List.takeWhile_append_dropWhile.symm

/-! ## The numbers of a value -/

theorem getLength_other {p : Path} (first last : Int) (h : p.head? ≠ some 47) :
    getLength first last p = ⟨first, last, 0⟩ := by
  unfold getLength
  split
  · exact absurd rfl h
  · rfl

theorem getLast_other {p : Path} (first : Int) (h : p.head? ≠ some 45) :
    getLast first p = ⟨first, 0, 0⟩ := by
  unfold getLast
  split
  · exact absurd rfl h
  · rfl

theorem getFirst_other {p : Path} (h : p.head? ≠ some 61) : getFirst p = ⟨0, 0, 0⟩ := by
  unfold getFirst
  split
  · exact absurd rfl h
  · rfl

theorem httpGetRange_bytes (p : Path) :
    httpGetRange (httpBytes ++ p) = some (some (getFirst p)) := by
  have hlength : ¬ (httpBytes ++ p).length < httpBytes.length := by
    rw [List.length_append]
    omega
  unfold httpGetRange
  rw [List.take_left, List.drop_left, if_neg (fun h => h.2 rfl), if_neg hlength]

variable {range : HttpRange}

theorem httpGetRange_reads (h : Reads value range) :
    httpGetRange value = some (some range) := by
  have hminus : ∀ p, NoDigit (45 :: p) := noDigit_cons (by decide)
  have hslash : ∀ p, NoDigit (47 :: p) := noDigit_cons (by decide)
  cases h with
  | nothing hp => rw [httpGetRange_bytes, getFirst_other hp]
  | first hda hdigit hp =>
    rw [httpGetRange_bytes, getFirst, scanNumber_zero hda hdigit, getLast_other _ hp]
  | last hda hdb hdigit hp =>
    rw [httpGetRange_bytes, getFirst, scanNumber_zero hda (hminus _), getLast,
      scanNumber_zero hdb hdigit, getLength_other _ _ hp]
  | length hda hdb hdl hdigit =>
    rw [httpGetRange_bytes, getFirst, scanNumber_zero hda (hminus _), getLast,
      scanNumber_zero hdb (hslash _), getLength, scanNumber_zero hdl hdigit]

/-- Every value with the unit has numbers. -/
theorem exists_reads (p : Path) : ∃ range, Reads (httpBytes ++ p) range := by
  by_cases heq : p.head? = some 61
  · obtain ⟨p, rfl⟩ := List.head?_eq_some_iff.mp heq
    obtain ⟨da, q, hda, hq, rfl⟩ := exists_digits p
    by_cases hminus : q.head? = some 45
    · obtain ⟨q, rfl⟩ := List.head?_eq_some_iff.mp hminus
      obtain ⟨db, r, hdb, hr, rfl⟩ := exists_digits q
      by_cases hslash : r.head? = some 47
      · obtain ⟨r, rfl⟩ := List.head?_eq_some_iff.mp hslash
        obtain ⟨dl, rest, hdl, hrest, rfl⟩ := exists_digits r
        exact ⟨_, .length hda hdb hdl hrest⟩
      · exact ⟨_, .last hda hdb hr hslash⟩
    · exact ⟨_, .first hda hq hminus⟩
  · exact ⟨_, .nothing heq⟩

theorem bytes_of_reads (h : Reads value range) : httpBytes <+: value := by
  cases h <;> exact List.prefix_append _ _

theorem reads_of_closed {a b : Nat} (h : AsksClosed value a b) :
    Reads value ⟨offT a, offT b, 0⟩ := by
  obtain ⟨da, db, hda, -, hdb, -, rfl, rfl, rfl⟩ := h.text
  have hreads := Reads.last hda hdb noDigit_nil (Option.some_ne_none 47).symm
  rw [List.append_nil] at hreads
  exact hreads

theorem reads_of_open {a : Nat} (h : AsksOpen value a) : Reads value ⟨offT a, 0, 0⟩ := by
  obtain ⟨da, hda, -, rfl, rfl⟩ := h.text
  have hnone : Digits [] := fun _ hc => absurd hc List.not_mem_nil
  exact Reads.last hda hnone noDigit_nil (Option.some_ne_none 47).symm

theorem bytes_of_asks {size a b : Nat} (h : Asks size value a b) : httpBytes <+: value := by
  rcases h with ⟨hclosed, -⟩ | ⟨hopen, -⟩
  · exact bytes_of_reads (reads_of_closed hclosed)
  · exact bytes_of_reads (reads_of_open hopen)

/-! ## The response -/

theorem respond_reads (h : Reads value range) :
    respond file value = some (respondRange file range) := by
  rw [respond, httpGetRange_reads h]
  rfl

theorem taken_iff (h : Reads value range) :
    Taken file value ↔ Accepts file range := by
  constructor
  · rintro ⟨range', h', haccepts⟩
    have hsame := (httpGetRange_reads h').symm.trans (httpGetRange_reads h)
    exact Option.some.inj (Option.some.inj hsame) ▸ haccepts
  · exact fun haccepts => ⟨range, h, haccepts⟩

theorem respondRange_accepts (h : Accepts file range) :
    respondRange file range = .part range.first
      (if range.last = 0 then (file.size : Int) - 1 else range.last)
      ((if range.last = 0 then (file.size : Int) - 1 else range.last) - range.first + 1) := by
  obtain ⟨hfirst, hlast, hsize, hlength, hseeks⟩ := h
  have hpasses : Passes range file.size := by
    unfold Passes
    omega
  unfold respondRange
  rw [if_pos hpasses]
  exact if_pos hseeks

theorem respondRange_refuses (h : ¬ Accepts file range) :
    respondRange file range = .invalidRange := by
  unfold respondRange
  by_cases hpasses : Passes range file.size
  · rw [if_pos hpasses]
    refine if_neg fun hseeks => h ⟨?_, ?_, ?_, ?_, hseeks⟩
    all_goals
      unfold Passes at hpasses
      omega
  · exact if_neg hpasses

theorem accepts_of_part {first last contentLength : Int}
    (h : respondRange file range = .part first last contentLength) : Accepts file range := by
  by_contra hrefuses
  rw [respondRange_refuses hrefuses] at h
  exact absurd h (by simp)

theorem reads_unique {range range' : HttpRange} (h : Reads value range) (h' : Reads value range') :
    range = range' :=
  Option.some.inj (Option.some.inj ((httpGetRange_reads h).symm.trans (httpGetRange_reads h')))

/-- A closed range in the file is given if it is longer than one byte and does not begin with the
first. -/
theorem closed_given {a b : Nat} (hle : a ≤ b) (hsize : b < file.size) :
    respondRange file ⟨offT a, offT b, 0⟩ = .part a b (b - a + 1) ↔ 0 < a ∧ a < b := by
  have hfits := file.fits
  rw [offT_eq (by omega : a < 2 ^ 63), offT_eq (by omega : b < 2 ^ 63)]
  constructor
  · intro h
    obtain ⟨hfirst, hlast, -⟩ := accepts_of_part h
    dsimp only at hfirst hlast
    omega
  · rintro ⟨hfirst, hlast⟩
    have hseeks : file.seeks a = true := file.inside a (by omega) (by omega)
    have haccepts : Accepts file ⟨a, b, 0⟩ := by
      refine ⟨?_, ?_, ?_, ?_, hseeks⟩
      all_goals
        dsimp only
        omega
    rw [respondRange_accepts haccepts, if_neg (by dsimp only; omega)]

theorem open_given {a b : Nat} (hsize : a < file.size) (hb : b + 1 = file.size) :
    respondRange file ⟨offT a, 0, 0⟩ = .part a b (b - a + 1) ↔ 0 < a := by
  have hfits := file.fits
  rw [offT_eq (by omega : a < 2 ^ 63)]
  constructor
  · intro h
    obtain ⟨hfirst, -⟩ := accepts_of_part h
    dsimp only at hfirst
    omega
  · intro hfirst
    have hseeks : file.seeks a = true := file.inside a (by omega) (by omega)
    have haccepts : Accepts file ⟨a, 0, 0⟩ := by
      refine ⟨?_, Or.inl rfl, ?_, ?_, hseeks⟩
      all_goals
        dsimp only
        omega
    have hend : (file.size : Int) - 1 = b := by omega
    rw [respondRange_accepts haccepts, if_pos rfl, hend]

/-- The numbers of a value with the unit decide whether it is given what it asks for. -/
theorem gives_iff (h : Reads value range) :
    Gives file.size value (respondRange file range) ↔ Meets file value := by
  constructor
  · intro hgives
    refine ⟨(bytes_of_reads h).length_le, ?_, ?_, ?_⟩
    · intro a b hclosed hle hsize
      have hgiven := hgives.given a b (Or.inl ⟨hclosed, hle, hsize⟩)
      rw [reads_unique h (reads_of_closed hclosed), closed_given hle hsize] at hgiven
      exact hgiven
    · intro a hopen hsize
      have hlast : file.size - 1 + 1 = file.size := by omega
      have hgiven := hgives.given a (file.size - 1) (Or.inr ⟨hopen, hsize, hlast⟩)
      rw [reads_unique h (reads_of_open hopen), open_given hsize hlast] at hgiven
      exact hgiven
    · intro hnone htaken
      exact hnone (hgives.asked _ _ _ (respondRange_accepts ((taken_iff h).mp htaken)))
  · intro hmeets
    constructor
    · rintro a b (⟨hclosed, hle, hsize⟩ | ⟨hopen, hsize, hlast⟩)
      · rw [reads_unique h (reads_of_closed hclosed), closed_given hle hsize]
        exact hmeets.closed a b hclosed hle hsize
      · rw [reads_unique h (reads_of_open hopen), open_given hsize hlast]
        exact hmeets.openEnd a hopen hsize
    · intro first last contentLength hpart
      by_contra hnone
      exact hmeets.otherwise hnone ((taken_iff h).mpr (accepts_of_part hpart))

/-- A value is given what it asks for just when it has the length of a unit, asks for no range that
begins with the first byte or is one byte long, and has numbers only if it asks for a range. -/
theorem ranges_right_iff (file : RangeFile) (value : Path) :
    Right file value ↔ Meets file value := by
  by_cases hunit : httpBytes.length ≤ value.length
  · by_cases hbytes : httpBytes <+: value
    · obtain ⟨p, rfl⟩ := hbytes
      obtain ⟨range, hreads⟩ := exists_reads p
      rw [← gives_iff hreads]
      constructor
      · rintro ⟨r, hr, hgives⟩
        rw [respond_reads hreads] at hr
        exact Option.some.inj hr ▸ hgives
      · exact fun hgives => ⟨_, respond_reads hreads, hgives⟩
    · have htake : value.take httpBytes.length ≠ httpBytes := fun h =>
        hbytes (h ▸ List.take_prefix _ _)
      have hfull : respond file value = some .full := by
        rw [respond, httpGetRange, if_pos ⟨hunit, htake⟩]
        rfl
      refine iff_of_true ⟨_, hfull, ?_, ?_⟩ ⟨hunit, ?_, ?_, ?_⟩
      · exact fun a b hasks => absurd (bytes_of_asks hasks) hbytes
      · rintro _ _ _ ⟨⟩
      · exact fun a b h => absurd (bytes_of_reads (reads_of_closed h)) hbytes
      · exact fun a h => absurd (bytes_of_reads (reads_of_open h)) hbytes
      · rintro - ⟨range, hreads, -⟩
        exact hbytes (bytes_of_reads hreads)
  · refine iff_of_false ?_ (fun h => hunit h.unit)
    rintro ⟨r, hr, -⟩
    rw [respond, httpGetRange, if_neg (fun h => hunit h.1), if_pos (Nat.lt_of_not_le hunit)] at hr
    exact absurd hr.symm (Option.some_ne_none r)

/-- A file of five bytes. -/
def fiveBytes : RangeFile := ⟨5, by decide, fun _ => true, fun _ _ _ => rfl⟩

/-- The first two bytes are refused. -/
theorem firstBytes_not_right : ¬ Right fiveBytes (bytesOf "bytes=0-1") := by
  rintro ⟨r, hr, hgives⟩
  have hrefused : respond fiveBytes (bytesOf "bytes=0-1") = some .invalidRange := by decide
  have hclosed : AsksClosed (bytesOf "bytes=0-1") 0 1 :=
    ⟨[48], [49], List.forall_mem_singleton.mpr (by decide), by decide,
      List.forall_mem_singleton.mpr (by decide), by decide, by decide, by decide, by decide⟩
  have hgiven := hgives.given 0 1 (Or.inl ⟨hclosed, by decide, by decide⟩)
  obtain rfl := Option.some.inj (hrefused.symm.trans hr)
  exact absurd hgiven (by simp)

end Serveez.Http.Ranges
