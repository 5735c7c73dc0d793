import Serveez.Lib.Reader
import Serveez.Nut.Route

/-!
# The records of a query hit

A query hit ends with the records of the files found and the GUID of the host that found them. A
record is the index and the size of a file and its name, which two zeros end. `nut_reply` goes
through the records with a pointer `p` and the address `end` of the GUID. Here `p` is the rest of
the payload from the pointer on, with everything behind the payload, and `left` is `end - p`. A
step that needs a byte behind the end of the memory has no result.

* `nutRecords_isSome`: the loop stays in the payload if there is room for a GUID behind `end`.
* `stable_nutRecords`: more bytes behind do not change what it finds.
-/

namespace Serveez.Nut

open Lib

/-- `isalnum` or `isprint`, for bytes -/
def isPrint (c : UInt8) : Bool := 32 ≤ c && c ≤ 126

def nutCanonizeFile (file : List UInt8) : List UInt8 :=
  file.map (fun c => if isPrint c then c else 95)

/-- A record that the loop accepts, with the number of bytes from its end to the GUID. -/
structure NutRecord where
  index : UInt32
  size : UInt32
  file : List UInt8
  behind : Int
  deriving DecidableEq

def getUInt32 (data : List UInt8) : UInt32 := UInt32.ofNat (ofBytes (data.take 4))

/-- `while (p < end && *p) p++`: the number of bytes passed over. -/
def scanName : Int → List UInt8 → Option Nat
  | left, [] => if 0 < left then none else some 0
  | left, c :: p => if 0 < left ∧ c ≠ 0 then (scanName (left - 1) p).map (· + 1) else some 0

/-- The name of a record and the number of its bytes with both zeros, or that it is invalid. -/
def recordName (left : Int) (file : List UInt8) : Option (Option (List UInt8 × Nat)) :=
  (scanName left file).bind fun k =>
  if left = k then some none
  else
    (readByte (k + 1) file).bind fun next =>
    if next ≠ 0 then some none
    else (readUntil 0 0 file).map fun name => some (name, k + 2)

/-- The loop over at most `n` records; the flag tells whether all records were valid. -/
def nutRecords : Nat → Int → List UInt8 → Option (List NutRecord × Bool)
  | 0, _, _ => some ([], true)
  | n + 1, left, p =>
    if 0 < left then
      (readBytes 0 sizeofNutRecord p).bind fun data =>
      (recordName (left - sizeofNutRecord) (p.drop sizeofNutRecord)).bind fun
        | none => some ([], false)
        | some (file, k) =>
          let behind := left - sizeofNutRecord - k
          (nutRecords n behind ((p.drop sizeofNutRecord).drop k)).map fun rest =>
            (⟨getUInt32 data, getUInt32 (data.drop 4), nutCanonizeFile file, behind⟩ :: rest.1,
              rest.2)
    else some ([], true)

/-! ## Names -/

theorem stable_scanName (left : Int) : Stable (fun p => scanName left p) := by
  intro p k t h
  dsimp only at h ⊢
  induction p generalizing left k with
  | nil =>
    rw [scanName] at h
    split at h
    · exact nomatch h
    · next hdone =>
      rw [List.nil_append, ← h]
      cases t with
      | nil => rw [scanName, if_neg hdone]
      | cons c t => rw [scanName, if_neg (fun hand => hdone hand.1)]
  | cons c p ih =>
    rw [scanName] at h
    rw [List.cons_append, scanName]
    split at h
    · next hmore =>
      obtain ⟨j, hj, rfl⟩ := Option.map_eq_some_iff.mp h
      rw [if_pos hmore, ih _ _ hj]
      rfl
    · next hstop => rw [if_neg hstop, h]

/-- Where the scan of a name ends: at a zero before the GUID, at the GUID, or at once if it begins
behind the start of the GUID. -/
theorem scanName_spec {left : Int} {p : List UInt8} {k : Nat} (h : scanName left p = some k) :
    k ≤ p.length ∧ 0 ∉ p.take k ∧
      ((k : Int) = max left 0 ∨ (k : Int) < left ∧ p[k]? = some 0) := by
  induction p generalizing left k with
  | nil =>
    rw [scanName] at h
    split at h
    · exact nomatch h
    · next hdone =>
      obtain rfl := Option.some.inj h
      exact ⟨Nat.le_refl 0, List.not_mem_nil, Or.inl (by omega)⟩
  | cons c p ih =>
    rw [scanName] at h
    split at h
    · next hmore =>
      obtain ⟨j, hj, rfl⟩ := Option.map_eq_some_iff.mp h
      obtain ⟨hle, htake, hend⟩ := ih hj
      refine ⟨by rw [List.length_cons]; omega, ?_, ?_⟩
      · rw [List.take_succ_cons, List.mem_cons, not_or]
        exact ⟨Ne.symm hmore.2, htake⟩
      · rcases hend with hend | ⟨hlt, hzero⟩
        · exact Or.inl (by omega)
        · exact Or.inr ⟨by omega, by rw [List.getElem?_cons_succ, hzero]⟩
    · next hstop =>
      obtain rfl := Option.some.inj h
      refine ⟨Nat.zero_le _, List.not_mem_nil, ?_⟩
      by_cases hleft : 0 < left
      · have hc : c = 0 := by
          by_contra hc
          exact hstop ⟨hleft, hc⟩
        exact Or.inr ⟨by omega, by rw [hc]; rfl⟩
      · exact Or.inl (by omega)

theorem scanName_isSome (left : Int) (p : List UInt8) (h : left ≤ p.length) :
    (scanName left p).isSome = true := by
  induction p generalizing left with
  | nil =>
    rw [scanName, if_neg (by rw [List.length_nil] at h; omega)]
    rfl
  | cons c p ih =>
    rw [scanName]
    split
    · rw [Option.isSome_map]
      exact ih _ (by rw [List.length_cons] at h; omega)
    · rfl

theorem stable_recordName (left : Int) : Stable (fun file => recordName left file) := by
  unfold recordName
  refine (stable_scanName left).bind (fun k => ?_)
  refine Stable.ite (stable_some _) ?_
  refine (stable_readByte (k + 1)).bind (fun next => ?_)
  exact Stable.ite (stable_some _) ((stable_readUntil 0 0).map _)

/-- What the name of a record is. An accepted one has its zeros at the end, and ends before the
GUID unless it begins behind the start of the GUID or has but one zero before it. -/
theorem recordName_cases {left : Int} {file : List UInt8} {result : Option (List UInt8 × Nat)}
    (h : recordName left file = some result) :
    ∃ k, scanName left file = some k ∧
      ((left = k ∨ left ≠ k ∧ file[k + 1]? ≠ some 0) ∧ result = none ∨
        left ≠ k ∧ file[k + 1]? = some 0 ∧
          result = some (file.takeWhile (· ≠ 0), k + 2)) := by
  obtain ⟨k, hk, h⟩ := Option.bind_eq_some_iff.mp h
  refine ⟨k, hk, ?_⟩
  split at h
  · next hend => exact Or.inl ⟨Or.inl hend, (Option.some.inj h).symm⟩
  · next hend =>
    obtain ⟨next, hnext, h⟩ := Option.bind_eq_some_iff.mp h
    rw [readByte] at hnext
    split at h
    · next hne =>
      refine Or.inl ⟨Or.inr ⟨hend, fun hzero => hne ?_⟩, (Option.some.inj h).symm⟩
      rw [hnext] at hzero
      exact Option.some.inj hzero
    · next hzero =>
      rw [not_not] at hzero
      obtain ⟨name, hname, h⟩ := Option.map_eq_some_iff.mp h
      rw [readUntil, List.drop_zero] at hname
      split at hname
      · exact Or.inr ⟨hend, by rw [hnext, hzero], by rw [← h, ← Option.some.inj hname]⟩
      · exact nomatch hname

theorem recordName_isSome (left : Int) (file : List UInt8) (h : left + 8 ≤ file.length)
    (hfile : 1 < file.length) : (recordName left file).isSome = true := by
  obtain ⟨k, hk⟩ := Option.isSome_iff_exists.mp
    (scanName_isSome left file (by omega))
  obtain ⟨hle, -, hend⟩ := scanName_spec hk
  unfold recordName
  rw [hk, Option.bind_some]
  split
  · rfl
  · next hshort =>
    have hnext : k + 1 < file.length := by omega
    rw [readByte, List.getElem?_eq_getElem hnext, Option.bind_some]
    split
    · rfl
    · next hzero =>
      rw [not_not] at hzero
      rw [Option.isSome_map, readUntil_isSome, List.drop_zero, ← hzero]
      exact List.getElem_mem hnext

/-! ## The loop -/

theorem stable_nutRecords (n : Nat) (left : Int) : Stable (fun p => nutRecords n left p) := by
  induction n generalizing left with
  | zero => exact stable_some _
  | succ n ih =>
    unfold nutRecords
    refine Stable.ite ?_ (stable_some _)
    refine (stable_readBytes 0 sizeofNutRecord).bind (fun data => ?_)
    refine Stable.bind ((stable_recordName _).drop sizeofNutRecord) (fun name => ?_)
    cases name with
    | none => exact stable_some _
    | some name => exact (((ih _).drop name.2).drop sizeofNutRecord).map _

/-- With a GUID behind `end` the loop reads nothing behind it. -/
theorem nutRecords_isSome {n : Nat} {left : Int} {p : List UInt8} (h : left + 16 ≤ p.length) :
    (nutRecords n left p).isSome = true := by
  induction n generalizing left p with
  | zero => rfl
  | succ n ih =>
    rw [nutRecords]
    split
    · next hleft =>
      have hsize : sizeofNutRecord = 8 := rfl
      have hfile : (p.drop sizeofNutRecord).length = p.length - sizeofNutRecord :=
        List.length_drop
      obtain ⟨data, hdata⟩ := Option.isSome_iff_exists.mp
        (readBytes_isSome.mpr (show 0 + sizeofNutRecord ≤ p.length by omega))
      obtain ⟨name, hname⟩ := Option.isSome_iff_exists.mp
        (recordName_isSome (left - sizeofNutRecord) (p.drop sizeofNutRecord) (by omega) (by omega))
      rw [hdata, Option.bind_some, hname, Option.bind_some]
      cases name with
      | none => rfl
      | some name =>
        dsimp only
        rw [Option.isSome_map]
        apply ih
        rw [List.length_drop]
        omega
    · rfl

end Serveez.Nut
