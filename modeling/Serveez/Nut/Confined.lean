import Serveez.Nut.Records

/-!
# Records before the GUID

The loop of `nut_reply` compares its pointer with the start of the GUID before it takes the fixed
part of a record, and looks for the second zero of a name without comparing. So a record can reach
into the GUID.

* `nutRecords_record`: a record that ends in the payload is accepted.
* `recordsConfined_iff`: all records accepted end before the GUID exactly if what follows the
  complete records of a payload does not run into the GUID.
-/

namespace Serveez.Nut

open Lib

/-- The loop over the payload of query hits. -/
def replyRecords (payload : List UInt8) : Option (List NutRecord × Bool) :=
  nutRecords (payload.getD 0 0).toNat (payload.length - sizeofNutReply - nutGuidSize : Nat)
    (payload.drop sizeofNutReply)

/-- The records accepted end before the GUID, and no byte behind the payload is read. -/
def RecordsConfined (payload : List UInt8) : Prop :=
  sizeofNutReply + nutGuidSize ≤ payload.length →
    ∃ records valid, replyRecords payload = some (records, valid) ∧
      ∀ record ∈ records, 0 ≤ record.behind

/-- The bytes of a complete record. -/
def IsRecord (bytes : List UInt8) : Prop :=
  ∃ data name, bytes = data ++ (name ++ [0, 0]) ∧ data.length = sizeofNutRecord ∧ 0 ∉ name

/-- The bytes before the GUID are accepted as a record only together with bytes of the GUID: the
fixed part does not fit and the second byte behind it is zero, or the name has but its first zero
before the GUID and the GUID begins with a zero. -/
def RunsInto (rest guid : List UInt8) : Prop :=
  rest ≠ [] ∧ rest.length < sizeofNutRecord ∧
      guid[sizeofNutRecord + 1 - rest.length]? = some 0 ∨
    ∃ data name, rest = data ++ (name ++ [0]) ∧ data.length = sizeofNutRecord ∧ 0 ∉ name ∧
      guid[0]? = some 0

/-- What is left behind complete records, fewer than the payload announces, does not run into the
GUID. -/
def EndsClean (payload : List UInt8) : Prop :=
  sizeofNutReply + nutGuidSize ≤ payload.length →
    ∀ (records : List (List UInt8)) (rest guid : List UInt8),
      payload.drop sizeofNutReply = records.flatten ++ (rest ++ guid) →
      guid.length = nutGuidSize → (∀ record ∈ records, IsRecord record) →
      records.length < (payload.getD 0 0).toNat → ¬ RunsInto rest guid

/-! ## One record -/

theorem scanName_name {left : Int} {name t : List UInt8} (hname : 0 ∉ name)
    (hleft : (name.length : Int) < left) : scanName left (name ++ 0 :: t) = some name.length := by
  induction name generalizing left with
  | nil =>
    rw [List.nil_append, scanName, if_neg (fun h => h.2 rfl)]
    rfl
  | cons c name ih =>
    rw [List.mem_cons, not_or] at hname
    rw [List.length_cons] at hleft
    rw [List.cons_append, scanName, if_pos ⟨by omega, Ne.symm hname.1⟩,
      ih hname.2 (by omega)]
    rfl

theorem recordName_name {left : Int} {name t : List UInt8} (hname : 0 ∉ name)
    (hleft : (name.length : Int) < left) :
    recordName left (name ++ 0 :: 0 :: t) = some (some (name, name.length + 2)) := by
  have hnext : readByte (name.length + 1) (name ++ 0 :: 0 :: t) = some 0 := by
    rw [readByte, List.getElem?_append_right (by omega), Nat.add_sub_cancel_left]
    rfl
  unfold recordName
  rw [scanName_name hname hleft, Option.bind_some, if_neg (by omega), hnext, Option.bind_some,
    if_neg (not_not.mpr rfl), readUntil, List.drop_zero, if_pos (by simp), Option.map_some,
    takeWhile_ne_cut hname]

/-- A record whose first zero is before the GUID. -/
theorem nutRecords_record {n : Nat} {left : Int} {data name t : List UInt8}
    (hdata : data.length = sizeofNutRecord) (hname : 0 ∉ name)
    (hleft : (sizeofNutRecord + name.length : Nat) < left) :
    nutRecords (n + 1) left (data ++ (name ++ 0 :: 0 :: t)) =
      (nutRecords n (left - sizeofNutRecord - (name.length + 2 : Nat)) t).map (fun rest =>
        (⟨getUInt32 data, getUInt32 (data.drop 4), nutCanonizeFile name,
          left - sizeofNutRecord - (name.length + 2 : Nat)⟩ :: rest.1, rest.2)) := by
  have hread : readBytes 0 sizeofNutRecord (data ++ (name ++ 0 :: 0 :: t)) = some data := by
    rw [readBytes, if_pos (by rw [List.length_append]; omega), List.drop_zero,
      List.take_left' hdata]
  have hrest : (name ++ 0 :: 0 :: t).drop (name.length + 2) = t := by
    rw [List.drop_length_add_append]
    rfl
  rw [nutRecords, if_pos (by omega), hread, Option.bind_some, List.drop_left' hdata,
    recordName_name hname (by omega), Option.bind_some]
  dsimp only
  rw [hrest]

/-! ## The bytes before the GUID -/

section Region

variable {region guid : List UInt8}

def RegionConfined (n : Nat) (region guid : List UInt8) : Prop :=
  ∃ records valid, nutRecords n region.length (region ++ guid) = some (records, valid) ∧
    ∀ record ∈ records, 0 ≤ record.behind

def RegionClean (n : Nat) (region guid : List UInt8) : Prop :=
  ∀ (records : List (List UInt8)) (rest : List UInt8), region = records.flatten ++ rest →
    (∀ record ∈ records, IsRecord record) → records.length < n → ¬ RunsInto rest guid

theorem not_runsInto_nil : ¬ RunsInto [] guid := by
  rintro (⟨hne, -⟩ | ⟨data, name, hnil, hdata, -⟩)
  · exact hne rfl
  · have hlen := congrArg List.length hnil
    rw [List.length_nil, List.length_append, hdata] at hlen
    exact absurd hlen (by rw [sizeofNutRecord]; omega)

/-- Where two names end. -/
theorem name_unique {name name' s s' : List UInt8} (hname : 0 ∉ name) (hname' : 0 ∉ name')
    (h : name ++ 0 :: s = name' ++ 0 :: s') : name = name' ∧ s = s' := by
  have htake := congrArg (List.takeWhile (· ≠ 0)) h
  rw [takeWhile_ne_cut hname, takeWhile_ne_cut hname'] at htake
  rw [htake] at h
  exact ⟨htake, (List.cons.inj (List.append_cancel_left h)).2⟩

theorem IsRecord.unique {record record' s s' : List UInt8} (h : IsRecord record)
    (h' : IsRecord record') (heq : record ++ s = record' ++ s') : record = record' ∧ s = s' := by
  obtain ⟨data, name, rfl, hdata, hname⟩ := h
  obtain ⟨data', name', rfl, hdata', hname'⟩ := h'
  simp only [List.append_assoc] at heq
  obtain ⟨rfl, hfile⟩ := List.append_inj heq (hdata.trans hdata'.symm)
  obtain ⟨rfl, hrest⟩ := name_unique hname hname' hfile
  exact ⟨rfl, (List.cons.inj hrest).2⟩

theorem IsRecord.not_runsInto {record t : List UInt8} (h : IsRecord record) :
    ¬ RunsInto (record ++ t) guid := by
  obtain ⟨data, name, rfl, hdata, hname⟩ := h
  rintro (⟨-, hshort, -⟩ | ⟨data', name', heq, hdata', hname', -⟩)
  · rw [List.append_assoc, List.length_append] at hshort
    omega
  · rw [List.append_assoc] at heq
    obtain ⟨rfl, hfile⟩ := List.append_inj heq (hdata.trans hdata'.symm)
    rw [List.append_assoc] at hfile
    obtain ⟨-, hrest⟩ := name_unique hname hname' hfile
    exact nomatch hrest

/-- The GUID is long enough for the reads of a record that begins in front of it. -/
theorem reads_record (hregion : region ≠ []) (hguid : guid.length = nutGuidSize) :
    ∃ data result, readBytes 0 sizeofNutRecord (region ++ guid) = some data ∧
      recordName (region.length - sizeofNutRecord : Int) ((region ++ guid).drop sizeofNutRecord) =
        some result := by
  have hpos := List.length_pos_iff.mpr hregion
  have hsizes : sizeofNutRecord = 8 ∧ nutGuidSize = 16 := ⟨rfl, rfl⟩
  obtain ⟨data, hdata⟩ := Option.isSome_iff_exists.mp (readBytes_isSome.mpr
    (show 0 + sizeofNutRecord ≤ (region ++ guid).length by rw [List.length_append]; omega))
  have hfile : ((region ++ guid).drop sizeofNutRecord).length =
      region.length + guid.length - sizeofNutRecord := by
    rw [List.length_drop, List.length_append]
  obtain ⟨result, hresult⟩ := Option.isSome_iff_exists.mp (recordName_isSome
    (region.length - sizeofNutRecord) ((region ++ guid).drop sizeofNutRecord)
    (by omega) (by omega))
  exact ⟨data, result, hdata, hresult⟩

/-- What the loop meets: a complete record, bytes that run into the GUID, or no record. -/
theorem region_cases (n : Nat) (hregion : region ≠ []) (hguid : guid.length = nutGuidSize) :
    (∃ record t, IsRecord record ∧ region = record ++ t) ∨ RunsInto region guid ∨
      nutRecords (n + 1) region.length (region ++ guid) = some ([], false) := by
  have hpos := List.length_pos_iff.mpr hregion
  have hsizes : sizeofNutRecord = 8 ∧ nutGuidSize = 16 := ⟨rfl, rfl⟩
  obtain ⟨data, result, hdata, hresult⟩ := reads_record hregion hguid
  obtain ⟨k, hk, ⟨-, rfl⟩ | ⟨hend, hnext, -⟩⟩ := recordName_cases hresult
  · refine Or.inr (Or.inr ?_)
    rw [nutRecords, if_pos (by omega), hdata, Option.bind_some, hresult]
    rfl
  obtain ⟨hle, htake, hstop⟩ := scanName_spec hk
  rcases hstop with hstop | ⟨hlt, hzero⟩
  · -- the fixed part reaches into the GUID, and the name is not looked at
    have hshort : region.length < sizeofNutRecord := by omega
    obtain rfl : k = 0 := by omega
    refine Or.inr (Or.inl (Or.inl ⟨hregion, hshort, ?_⟩))
    rw [List.getElem?_drop, List.getElem?_append_right (by omega)] at hnext
    rwa [show sizeofNutRecord + (0 + 1) = sizeofNutRecord + 1 from rfl] at hnext
  · -- the first zero of the name is before the GUID
    have hlong : sizeofNutRecord ≤ region.length := by omega
    have hdrop : (region ++ guid).drop sizeofNutRecord = region.drop sizeofNutRecord ++ guid :=
      List.drop_append_of_le_length hlong
    have hsplit := List.take_append_drop sizeofNutRecord region
    have hdata' : (region.take sizeofNutRecord).length = sizeofNutRecord :=
      List.length_take_of_le hlong
    have hbody : (region.drop sizeofNutRecord).length = region.length - sizeofNutRecord :=
      List.length_drop
    rw [hdrop] at hzero hnext htake
    generalize region.drop sizeofNutRecord = body at *
    have hkbody : k < body.length := by omega
    rw [List.getElem?_append_left hkbody] at hzero
    rw [List.take_append_of_le_length (Nat.le_of_lt hkbody)] at htake
    obtain ⟨hk', hzero⟩ := List.getElem?_eq_some_iff.mp hzero
    have hname : body = body.take k ++ 0 :: body.drop (k + 1) := by
      rw [← hzero, ← List.drop_eq_getElem_cons hk', List.take_append_drop]
    by_cases hsecond : k + 1 < body.length
    · rw [List.getElem?_append_left hsecond] at hnext
      obtain ⟨hk'', hnext⟩ := List.getElem?_eq_some_iff.mp hnext
      rw [List.drop_eq_getElem_cons hk'', hnext] at hname
      refine Or.inl ⟨_, body.drop (k + 1 + 1), ⟨_, body.take k, rfl, hdata', htake⟩, ?_⟩
      rw [List.append_assoc, List.append_assoc]
      refine hsplit.symm.trans (congrArg (List.take sizeofNutRecord region ++ ·) ?_)
      exact hname
    · rw [List.getElem?_append_right (by omega), show k + 1 - body.length = 0 by omega] at hnext
      rw [List.drop_eq_nil_of_le (by omega)] at hname
      exact Or.inr (Or.inl (Or.inr ⟨_, body.take k, by rw [← hname, hsplit], hdata', htake, hnext⟩))

theorem RunsInto.not_confined {n : Nat} (h : RunsInto region guid)
    (hguid : guid.length = nutGuidSize) : ¬ RegionConfined (n + 1) region guid := by
  have hsizes : sizeofNutRecord = 8 ∧ nutGuidSize = 16 := ⟨rfl, rfl⟩
  rintro ⟨records, valid, hrun, hbehind⟩
  rcases h with ⟨hne, hshort, hnext⟩ | ⟨data, name, rfl, hdata, hname, hzero⟩
  · have hpos := List.length_pos_iff.mpr hne
    obtain ⟨data, result, hdata, hresult⟩ := reads_record hne hguid
    have hbyte : ((region ++ guid).drop sizeofNutRecord)[0 + 1]? = some 0 := by
      rw [List.getElem?_drop, List.getElem?_append_right (by omega)]
      exact hnext
    obtain ⟨k, hk, hcases⟩ := recordName_cases hresult
    have hkzero : k = 0 := by
      obtain ⟨-, -, hstop⟩ := scanName_spec hk
      omega
    rw [hkzero] at hcases
    rcases hcases with ⟨hbad | ⟨-, hbad⟩, -⟩ | ⟨-, -, rfl⟩
    · omega
    · exact hbad hbyte
    · rw [nutRecords, if_pos (by omega), hdata, Option.bind_some, hresult] at hrun
      obtain ⟨rest, -, hrest⟩ := Option.map_eq_some_iff.mp hrun
      have hfirst := hbehind _ (by rw [← (Prod.mk.inj hrest).1]; exact List.mem_cons_self)
      dsimp only at hfirst
      omega
  · obtain ⟨g, rfl⟩ : ∃ g, guid = 0 :: g := by
      cases guid with
      | nil => exact absurd hzero (Option.some_ne_none _).symm
      | cons c g => exact ⟨g, by rw [Option.some.inj hzero]⟩
    have hlen : (data ++ (name ++ [0])).length = sizeofNutRecord + name.length + 1 := by
      simp [hdata]
      omega
    have hsplit : data ++ (name ++ [0]) ++ 0 :: g = data ++ (name ++ 0 :: 0 :: g) := by simp
    rw [hsplit, nutRecords_record hdata hname (by omega)] at hrun
    obtain ⟨rest, -, hrest⟩ := Option.map_eq_some_iff.mp hrun
    have hfirst := hbehind _ (by rw [← (Prod.mk.inj hrest).1]; exact List.mem_cons_self)
    dsimp only at hfirst
    omega

/-- After a complete record the loop goes on behind it. -/
theorem IsRecord.confined_step {record t : List UInt8} {n : Nat} (h : IsRecord record) :
    RegionConfined (n + 1) (record ++ t) guid ↔ RegionConfined n t guid := by
  obtain ⟨data, name, rfl, hdata, hname⟩ := h
  have hlen : (data ++ (name ++ [0, 0]) ++ t).length =
      sizeofNutRecord + (name.length + 2) + t.length := by
    simp [hdata]
    omega
  have hsplit : data ++ (name ++ [0, 0]) ++ t ++ guid =
      data ++ (name ++ 0 :: 0 :: (t ++ guid)) := by simp
  have hleft : ((data ++ (name ++ [0, 0]) ++ t).length : Int) - sizeofNutRecord -
      (name.length + 2 : Nat) = t.length := by omega
  unfold RegionConfined
  rw [hsplit, nutRecords_record hdata hname (by omega), hleft]
  constructor
  · rintro ⟨records, valid, hrun, hbehind⟩
    obtain ⟨rest, hrest, hcons⟩ := Option.map_eq_some_iff.mp hrun
    refine ⟨rest.1, rest.2, hrest, fun r hr => hbehind r ?_⟩
    rw [← (Prod.mk.inj hcons).1]
    exact List.mem_cons_of_mem _ hr
  · rintro ⟨records, valid, hrun, hbehind⟩
    rw [hrun]
    refine ⟨_, _, rfl, List.forall_mem_cons.mpr ⟨?_, hbehind⟩⟩
    exact Int.natCast_nonneg t.length

theorem regionConfined_iff (hguid : guid.length = nutGuidSize) (n : Nat) :
    RegionConfined n region guid ↔ RegionClean n region guid := by
  induction n generalizing region with
  | zero =>
    exact ⟨fun _ _ _ _ _ hlt => absurd hlt (Nat.not_lt_zero _),
      fun _ => ⟨[], true, rfl, fun _ hmem => nomatch hmem⟩⟩
  | succ n ih =>
    by_cases hregion : region = []
    · subst hregion
      constructor
      · intro _ records rest hsplit _ _
        rw [(List.append_eq_nil_iff.mp hsplit.symm).2]
        exact not_runsInto_nil
      · exact fun _ => ⟨[], true, rfl, fun _ hmem => nomatch hmem⟩
    by_cases hcomplete : ∃ record t, IsRecord record ∧ region = record ++ t
    · obtain ⟨record, t, hrecord, rfl⟩ := hcomplete
      rw [hrecord.confined_step, ih]
      constructor
      · intro h records rest hsplit hall hlt
        cases records with
        | nil =>
          rw [List.flatten_nil, List.nil_append] at hsplit
          rw [← hsplit]
          exact hrecord.not_runsInto
        | cons first records =>
          obtain ⟨hfirst, hall⟩ := List.forall_mem_cons.mp hall
          rw [List.flatten_cons, List.append_assoc] at hsplit
          obtain ⟨-, hrest⟩ := hrecord.unique hfirst hsplit
          exact h records rest hrest hall (by rw [List.length_cons] at hlt; omega)
      · intro h records rest hsplit hall hlt
        refine h (record :: records) rest ?_ (List.forall_mem_cons.mpr ⟨hrecord, hall⟩) ?_
        · rw [List.flatten_cons, List.append_assoc, ← hsplit]
        · rw [List.length_cons]
          omega
    by_cases hruns : RunsInto region guid
    · refine ⟨fun h => absurd h (hruns.not_confined hguid), fun h => ?_⟩
      exact absurd hruns (h [] region rfl (fun _ hmem => nomatch hmem) (Nat.succ_pos n))
    · have hnone := ((region_cases n hregion hguid).resolve_left hcomplete).resolve_left hruns
      refine ⟨fun _ records rest hsplit hall hlt => ?_,
        fun _ => ⟨[], false, hnone, fun _ hmem => nomatch hmem⟩⟩
      cases records with
      | nil =>
        rw [List.flatten_nil, List.nil_append] at hsplit
        rw [← hsplit]
        exact hruns
      | cons first records =>
        rw [List.flatten_cons, List.append_assoc] at hsplit
        exact absurd ⟨first, _, hall first List.mem_cons_self, hsplit⟩ hcomplete

end Region

/-- The records that the loop accepts end before the GUID exactly if the payload ends clean. -/
theorem recordsConfined_iff (payload : List UInt8) :
    RecordsConfined payload ↔ EndsClean payload := by
  by_cases hlong : sizeofNutReply + nutGuidSize ≤ payload.length
  · have hbody : (payload.drop sizeofNutReply).length = payload.length - sizeofNutReply :=
      List.length_drop
    obtain ⟨region, guid, hsplit, hguid⟩ : ∃ region guid,
        payload.drop sizeofNutReply = region ++ guid ∧ guid.length = nutGuidSize := by
      refine ⟨_, _, (List.take_append_drop (payload.length - sizeofNutReply - nutGuidSize)
        (payload.drop sizeofNutReply)).symm, ?_⟩
      rw [List.length_drop]
      omega
    have hregion : payload.length - sizeofNutReply - nutGuidSize = region.length := by
      have hlen := congrArg List.length hsplit
      rw [List.length_append] at hlen
      omega
    have hconfined : RecordsConfined payload ↔
        RegionConfined (payload.getD 0 0).toNat region guid := by
      unfold RecordsConfined RegionConfined replyRecords
      rw [hsplit, hregion]
      exact ⟨fun h => h hlong, fun h _ => h⟩
    have hclean : EndsClean payload ↔ RegionClean (payload.getD 0 0).toNat region guid := by
      constructor
      · intro h records rest hrest
        exact h hlong records rest guid (by rw [hsplit, hrest, List.append_assoc]) hguid
      · intro h _ records rest guid' hrest hguid'
        rw [hsplit, ← List.append_assoc] at hrest
        obtain ⟨hregion', rfl⟩ := List.append_inj' hrest (hguid.trans hguid'.symm)
        exact h records rest hregion'
    rw [hconfined, hclean, regionConfined_iff hguid]
  · exact ⟨fun _ h => absurd h hlong, fun _ h => absurd h hlong⟩

end Serveez.Nut
