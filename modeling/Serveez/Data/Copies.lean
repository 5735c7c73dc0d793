import Serveez.Hash.Visit

/-!
# Copies of strings

The configuration of a server is copied string by string. An array of strings is here the list of
its pointers and a pointer is an `Option`, with `none` for `NULL`; `svz_malloc` has what it is asked
for, as long as that is a size. A function is `none` when it does not come back with what it should
have copied.

* `svzStrdup_eq`: the copy of a string.
* `copied_putCopies`: a new table that copies have been put into.
* `copies_spec`: arrays, tables and collections.
-/

namespace Serveez.Data

open Hash

/-- `strlen` gives a `size_t`, and `len` is an `int`. -/
def svzStrdup (src : Option Bytes) : Option (Option Bytes) :=
  match src with
  | none => some none
  | some src =>
    let string := cString src
    let len := Int.bmod string.length (2 ^ 32)
    if len = 0 then some none
    -- a negative size is none, and with less than the length the string has no end
    else if len = string.length then some (some string) else none

def svzArrayStrdup (array : List (Option Bytes)) : Option (List (Option Bytes)) :=
  array.mapM svzStrdup

def accumulate (k : Bytes) (v : Option Bytes) (hash : Option (SvzHash Bytes)) :
    Option (SvzHash Bytes) := do
  let hash ← hash
  let v ← svzStrdup v
  return (svzHashPut hash k v).1

def hashDup (strhash : Option (SvzHash Bytes)) : Option (Option (SvzHash Bytes)) :=
  match strhash with
  | none => some none
  | some strhash => do
    let hash ← svzHashCreate 4
    let hash ← svzHashForeach accumulate strhash (some hash)
    return some hash

/-- `svz_collect` for `SVZ_STRARRAY`. -/
def collectStrarray (data : List (Option Bytes)) : Option (List (Option Bytes)) :=
  data.foldlM (fun array src => do
    let dst ← svzStrdup src
    return array ++ [dst]) []

def collectPairs : List (Option Bytes) → SvzHash Bytes → Option (SvzHash Bytes)
  | some k :: v :: data, hash => do
    let v ← svzStrdup v
    collectPairs data (svzHashPut hash k v).1
  | none :: _ :: _, _ => none
  | _, hash => some hash

/-- `svz_collect` for `SVZ_STRHASH`, with keys and values in turn. -/
def collectStrhash (data : List (Option Bytes)) : Option (Option (SvzHash Bytes)) :=
  if data.length % 2 = 1 then some none
  else do
    let hash ← svzHashCreate 4
    let hash ← collectPairs data hash
    return some hash

/-! ## What is copied -/

/-- A string equal to the original, but nothing for an empty one. -/
def copyOf (s : Option Bytes) : Option Bytes :=
  s.bind fun s => if cString s = [] then none else some (cString s)

/-- The length is an `int`. -/
def Short (s : Option Bytes) : Prop := ∀ t, s = some t → (cString t).length < 2 ^ 31

/-- Each element is a string equal to the original one. -/
def SameStrings (array copy : List (Option Bytes)) : Prop :=
  copy.length = array.length ∧
    ∀ (i : Nat) (s : Bytes), array[i]? = some (some s) →
      ∃ t : Bytes, copy[i]? = some (some t) ∧ cString t = cString s

/-- The calls that an iteration makes. -/
def visits (hash : SvzHash Bytes) : Nat := svzHashForeach (fun _ _ n => n + 1) hash 0

/-- The table has the keys and the copies of the values that a function gives. -/
structure Copied (hash : SvzHash Bytes) (count : Nat) (value : Bytes → Option (Option Bytes)) :
    Prop where
  size : svzHashSize (some hash) = count
  calls : visits hash = count
  exist : ∀ key, svzHashExists hash key ≠ 0 ↔ (value key).isSome
  get : ∀ key, svzHashGet hash key = copyOf (value key).join

/-- The value of a key in a table. -/
def valueIn (hash : SvzHash Bytes) (key : Bytes) : Option (Option Bytes) :=
  if svzHashExists hash key ≠ 0 then some (svzHashGet hash key) else none

/-- The value that goes with a key at last. -/
def lastValue (pairs : List (Bytes × Option Bytes)) (key : Bytes) : Option (Option Bytes) :=
  (pairs.reverse.find? fun p => cString p.1 = cString key).map Prod.snd

theorem svzStrdup_eq {s : Option Bytes} (h : Short s) : svzStrdup s = some (copyOf s) := by
  cases s with
  | none => rfl
  | some s =>
    have hlength := h s rfl
    have hlen : Int.bmod (cString s).length (2 ^ 32) = (cString s).length :=
      Int.bmod_eq_of_le (by omega) (by omega)
    unfold svzStrdup copyOf
    rw [Option.bind_some]
    dsimp only
    rw [hlen, if_pos rfl]
    by_cases hnil : cString s = []
    · rw [if_pos hnil, if_pos (by rw [hnil]; rfl)]
    · rw [if_neg hnil, if_neg]
      exact fun hzero => hnil (List.length_eq_zero_iff.mp (Int.ofNat_eq_zero.mp hzero))

/-! ## Arrays -/

variable {array : List (Option Bytes)}

theorem svzArrayStrdup_eq (h : ∀ s ∈ array, Short s) :
    svzArrayStrdup array = some (array.map copyOf) := by
  induction array with
  | nil => rfl
  | cons s array ih =>
    have hrest : array.mapM svzStrdup = some (array.map copyOf) :=
      ih fun t ht => h t (List.mem_cons_of_mem s ht)
    unfold svzArrayStrdup
    rw [List.mapM_cons, svzStrdup_eq (h s List.mem_cons_self), hrest]
    rfl

theorem collectStrarray_eq (h : ∀ s ∈ array, Short s) :
    collectStrarray array = some (array.map copyOf) := by
  -- the loop behind the elements that it has added
  have hloop : ∀ added : List (Option Bytes), array.foldlM (fun array src => do
      let dst ← svzStrdup src
      return array ++ [dst]) added = some (added ++ array.map copyOf) := by
    induction array with
    | nil =>
      intro added
      rw [List.map_nil, List.append_nil]
      rfl
    | cons s array ih =>
      intro added
      rw [List.foldlM_cons, svzStrdup_eq (h s List.mem_cons_self)]
      have hrest := ih (fun t ht => h t (List.mem_cons_of_mem s ht)) (added ++ [copyOf s])
      rw [List.append_assoc] at hrest
      exact hrest
  exact hloop []

/-! ## Tables -/

abbrev StringMap := Map defaultCallbacks_lawful Bytes

variable {hash : SvzHash Bytes} {m : StringMap} {pairs : List (Bytes × Option Bytes)}

theorem key_eq_iff_cString {a b : Bytes} :
    defaultCallbacks_lawful.key a = defaultCallbacks_lawful.key b ↔ cString a = cString b :=
  (key_eq_iff defaultCallbacks_lawful).trans (hashEqual_eq_zero_iff a b)

theorem visits_eq (hr : Represents defaultCallbacks_lawful hash m) :
    visits hash = svzHashSize (some hash) := by
  have hcount : ∀ (entries : List (SvzHashEntry Bytes)) (n : Nat),
      entries.foldl (fun n _ => n + 1) n = n + entries.length := by
    intro entries
    induction entries with
    | nil => exact fun _ => rfl
    | cons x entries ih =>
      intro n
      rw [List.foldl_cons, ih, List.length_cons]
      omega
  unfold visits
  rw [svzHashForeach_eq hr, hcount, Nat.zero_add]
  exact hr.keys.symm

/-- A new table is empty. -/
theorem created_represents {size : Nat} {created : SvzHash Bytes}
    (hcreate : svzHashCreate size = some created) :
    Represents defaultCallbacks_lawful created (∅ : StringMap) := by
  have hsize : 1 ≤ size := by
    rcases Nat.eq_zero_or_pos size with rfl | hpos
    · cases hcreate
    · exact hpos
  obtain ⟨k, hk, heq⟩ := svzHashCreate_eq (V := Bytes) hsize
  obtain rfl := Option.some.inj (heq.symm.trans hcreate)
  exact represents_empty hk

/-- The puts of the copies of some pairs. -/
def putCopies (hash : SvzHash Bytes) (pairs : List (Bytes × Option Bytes)) : SvzHash Bytes :=
  run hash (pairs.map fun p => .put p.1 (copyOf p.2))

theorem lookup_putCopies (pairs : List (Bytes × Option Bytes)) (key : Bytes) :
    (specRun defaultCallbacks_lawful (∅ : StringMap)
      (pairs.map fun p => .put p.1 (copyOf p.2))).lookup (defaultCallbacks_lawful.key key) =
      (lastValue pairs key).map copyOf := by
  unfold specRun
  induction pairs using List.reverseRecOn with
  | nil => rfl
  | append_singleton pairs p ih =>
    rw [List.map_append, List.map_singleton, List.foldl_append, List.foldl_cons, List.foldl_nil]
    unfold lastValue at ih ⊢
    rw [List.reverse_append, List.reverse_singleton, List.singleton_append]
    rw [List.find?_cons]
    by_cases hkey : cString p.1 = cString key
    · rw [decide_eq_true hkey, ← key_eq_iff_cString.mpr hkey]
      exact Finmap.lookup_insert _
    · rw [decide_eq_false hkey, ← ih]
      exact Finmap.lookup_insert_of_ne _ fun h => hkey (key_eq_iff_cString.mp h).symm

theorem copied_putCopies {created : SvzHash Bytes} (pairs : List (Bytes × Option Bytes))
    (hr : Represents defaultCallbacks_lawful created (∅ : StringMap)) :
    Copied (putCopies created pairs) (pairs.map (cString ·.1)).toFinset.card (lastValue pairs) := by
  have hrun := (run_refines (pairs.map fun p => .put p.1 (copyOf p.2)) _ _ hr).1
  have hlookup := lookup_putCopies pairs
  generalize specRun defaultCallbacks_lawful (∅ : StringMap) _ = m at hrun hlookup
  have hexist : ∀ key, defaultCallbacks_lawful.key key ∈ m ↔ (lastValue pairs key).isSome := by
    intro key
    rw [← Finmap.lookup_isSome, hlookup, Option.isSome_map]
  have hsize : svzHashSize (some (putCopies created pairs)) =
      (pairs.map (cString ·.1)).toFinset.card := by
    -- a class of keys goes to the string that its keys have in common
    let string : Key defaultCallbacks_lawful → Bytes :=
      Quotient.lift cString fun a b => (hashEqual_eq_zero_iff a b).mp
    have hinj : Function.Injective string := by
      intro q q' heq
      induction q using Quotient.inductionOn with
      | h a =>
        induction q' using Quotient.inductionOn with
        | h b => exact key_eq_iff_cString.mpr heq
    refine (svzHashSize_eq_card hrun).trans ?_
    rw [← Finset.card_image_of_injective m.keys hinj]
    refine congrArg Finset.card (Finset.ext fun s => ?_)
    rw [Finset.mem_image, List.mem_toFinset, List.mem_map]
    constructor
    · rintro ⟨q, hq, rfl⟩
      induction q using Quotient.inductionOn with
      | h a =>
        have hmem := (hexist a).mp (Finmap.mem_keys.mp hq)
        unfold lastValue at hmem
        rw [Option.isSome_map, List.find?_isSome] at hmem
        obtain ⟨p, hp, hsame⟩ := hmem
        exact ⟨p, List.mem_reverse.mp hp, of_decide_eq_true hsame⟩
    · rintro ⟨p, hp, rfl⟩
      refine ⟨defaultCallbacks_lawful.key p.1, Finmap.mem_keys.mpr ((hexist p.1).mpr ?_), rfl⟩
      unfold lastValue
      rw [Option.isSome_map, List.find?_isSome]
      exact ⟨p, List.mem_reverse.mpr hp, decide_eq_true rfl⟩
  refine ⟨hsize, (visits_eq hrun).trans hsize, fun key => ?_, fun key => ?_⟩
  · exact (svzHashExists_iff_mem hrun key).trans (hexist key)
  · refine (svzHashGet_eq_lookup hrun key).trans ?_
    rw [hlookup]
    cases lastValue pairs key <;> rfl

/-- A table from the calls of an iteration over another one. -/
theorem hashDup_eq {created : SvzHash Bytes} (hr : Represents defaultCallbacks_lawful hash m)
    (hcreate : svzHashCreate 4 = some created) (hshort : ∀ key, Short (svzHashGet hash key)) :
    hashDup (some hash) =
      some (some (putCopies created (hash.table.flatten.map fun x => (x.key, x.value)))) := by
  have hentry : ∀ x ∈ hash.table.flatten, Short x.value := by
    intro x hx
    rw [← hr.svzHashGet_at hx]
    exact hshort x.key
  have hloop : ∀ (entries : List (SvzHashEntry Bytes)) (start : SvzHash Bytes),
      (∀ x ∈ entries, Short x.value) →
      entries.foldl (fun hash x => accumulate x.key x.value hash) (some start) =
        some (putCopies start (entries.map fun x => (x.key, x.value))) := by
    intro entries
    induction entries with
    | nil => exact fun _ _ => rfl
    | cons x entries ih =>
      intro start hall
      have hput : accumulate x.key x.value (some start) =
          some (svzHashPut start x.key (copyOf x.value)).1 := by
        unfold accumulate
        rw [svzStrdup_eq (hall x List.mem_cons_self)]
        rfl
      rw [List.foldl_cons, hput, ih _ fun y hy => hall y (List.mem_cons_of_mem x hy)]
      rfl
  unfold hashDup
  rw [hcreate]
  show (svzHashForeach accumulate hash (some created)).bind (fun hash => some (some hash)) = _
  rw [svzHashForeach_eq hr, hloop _ _ hentry]
  rfl

theorem lastValue_entries (hr : Represents defaultCallbacks_lawful hash m) (key : Bytes) :
    lastValue (hash.table.flatten.map fun x => (x.key, x.value)) key = valueIn hash key := by
  have hlookup : (m.lookup (defaultCallbacks_lawful.key key)) = valueIn hash key := by
    have hget := svzHashGet_eq_lookup hr key
    have hexist := svzHashExists_iff_mem hr key
    unfold valueIn
    cases hm : m.lookup (defaultCallbacks_lawful.key key) with
    | none =>
      rw [if_neg]
      exact fun h => Finmap.lookup_eq_none.mp hm (hexist.mp h)
    | some value =>
      rw [hm] at hget
      rw [if_pos (hexist.mpr (Finmap.mem_of_lookup_eq_some hm)), hget]
      rfl
  rw [← hlookup]
  unfold lastValue
  cases hfind : (hash.table.flatten.map fun x => (x.key, x.value)).reverse.find?
      (fun p => decide (cString p.1 = cString key)) with
  | none =>
    symm
    refine Finmap.lookup_eq_none.mpr fun hmem => ?_
    obtain ⟨value, hvalue⟩ := Finmap.mem_iff.mp hmem
    have hentry := Finmap.lookup_eq_some_iff.mp hvalue
    rw [hr.entries] at hentry
    obtain ⟨x, hx, hsame⟩ := List.mem_map.mp (Multiset.mem_coe.mp hentry)
    have hother := List.find?_eq_none.mp hfind (x.key, x.value)
      (List.mem_reverse.mpr (List.mem_map.mpr ⟨x, hx, rfl⟩))
    exact hother (decide_eq_true (key_eq_iff_cString.mp (congrArg Sigma.fst hsame)))
  | some p =>
    have hfound := List.find?_some hfind
    have hkey : cString p.1 = cString key := of_decide_eq_true hfound
    obtain ⟨x, hx, rfl⟩ := List.mem_map.mp (List.mem_reverse.mp (List.mem_of_find?_eq_some hfind))
    symm
    refine Finmap.lookup_eq_some_iff.mpr ?_
    rw [hr.entries, ← key_eq_iff_cString.mpr hkey]
    exact Multiset.mem_coe.mpr (List.mem_map.mpr ⟨x, hx, rfl⟩)

theorem card_entries (hr : Represents defaultCallbacks_lawful hash m) :
    ((hash.table.flatten.map fun x => (x.key, x.value)).map (cString ·.1)).toFinset.card =
      svzHashSize (some hash) := by
  rw [List.map_map, List.toFinset_card_of_nodup, List.length_map]
  · exact hr.keys.symm
  · refine List.Nodup.map_on (fun x hx y hy hsame => ?_) hr.nodup
    exact List.inj_on_of_nodup_map hr.nodup_keys hx hy (key_eq_iff_cString.mpr hsame)

theorem collectPairs_eq (start : SvzHash Bytes) (h : ∀ p ∈ pairs, Short p.2) :
    collectPairs (pairs.flatMap fun p => [some p.1, p.2]) start = some (putCopies start pairs) := by
  induction pairs generalizing start with
  | nil => rfl
  | cons p pairs ih =>
    have hrest := ih (svzHashPut start p.1 (copyOf p.2)).1 fun q hq =>
      h q (List.mem_cons_of_mem p hq)
    show (svzStrdup p.2).bind (fun v =>
      collectPairs (pairs.flatMap fun p => [some p.1, p.2]) (svzHashPut start p.1 v).1) = _
    rw [svzStrdup_eq (h p List.mem_cons_self), Option.bind_some, hrest]
    rfl

/-- **The copies** of arrays, of tables and of the arguments of a collection, when the strings are
not longer than an `int` can count. -/
theorem copies_spec (array : List (Option Bytes)) (pairs : List (Bytes × Option Bytes)) {size : Nat}
    {created : SvzHash Bytes} (hcreate : svzHashCreate size = some created) (ops : List (Op Bytes))
    (harray : ∀ s ∈ array, Short s)
    (hhash : ∀ key, Short (svzHashGet (run created ops) key)) (hpairs : ∀ p ∈ pairs, Short p.2) :
    svzArrayStrdup array = some (array.map copyOf) ∧
    collectStrarray array = some (array.map copyOf) ∧
    (∃ copy, hashDup (some (run created ops)) = some (some copy) ∧
      Copied copy (svzHashSize (some (run created ops))) (valueIn (run created ops)) ∧
      visits copy = visits (run created ops)) ∧
    ∃ hash, collectStrhash (pairs.flatMap fun p => [some p.1, p.2]) = some (some hash) ∧
      Copied hash (pairs.map (cString ·.1)).toFinset.card (lastValue pairs) := by
  obtain ⟨k, hk, hempty⟩ := svzHashCreate_eq (V := Bytes) (by decide : 1 ≤ 4)
  have hnew := created_represents hempty
  have hr := (run_refines ops _ _ (created_represents hcreate)).1
  refine ⟨svzArrayStrdup_eq harray, collectStrarray_eq harray, ?_, ?_⟩
  · have hcopied := copied_putCopies
      ((run created ops).table.flatten.map fun x => (x.key, x.value)) hnew
    rw [card_entries hr, funext (lastValue_entries hr)] at hcopied
    exact ⟨_, hashDup_eq hr hempty hhash, hcopied, hcopied.calls.trans (visits_eq hr).symm⟩
  · refine ⟨_, ?_, copied_putCopies pairs hnew⟩
    have hlength : (pairs.flatMap fun p => [some p.1, p.2]).length % 2 ≠ 1 := by
      rw [List.length_flatMap]
      induction pairs with
      | nil => decide
      | cons p pairs ih =>
        have hrest := ih fun q hq => hpairs q (List.mem_cons_of_mem p hq)
        rw [List.map_cons, List.sum_cons, List.length_cons, List.length_singleton]
        omega
    unfold collectStrhash
    rw [if_neg hlength, hempty]
    show (collectPairs (pairs.flatMap fun p => [some p.1, p.2]) _).bind
      (fun hash => some (some hash)) = _
    rw [collectPairs_eq _ hpairs]
    rfl

theorem copies_example : ∃ created : SvzHash Bytes, svzHashCreate 4 = some created ∧
    svzArrayStrdup [some [104, 105], some [], none] = some [some [104, 105], none, none] ∧
    (∃ copy, hashDup (some (run created [.put [107] (some [104])])) = some (some copy)) ∧
    ∃ hash, collectStrhash [some [107], some [104], some [108], none, some [107], some []] =
      some (some hash) ∧ svzHashSize (some hash) = 2 := by
  obtain ⟨created, hcreate⟩ : ∃ created : SvzHash Bytes, svzHashCreate 4 = some created :=
    ⟨_, rfl⟩
  have hshort : ∀ s : Option Bytes, s ∈ [some [104, 105], some [], none, some [104]] → Short s := by
    rintro s hs t rfl
    have hlength := (List.takeWhile_prefix (fun b : UInt8 => !decide (b = 0)) (l := t)).length_le
    have ht : t.length ≤ 2 := by
      simp only [List.mem_cons, Option.some_inj, reduceCtorEq, List.not_mem_nil, or_false,
        false_or] at hs
      rcases hs with rfl | rfl | rfl <;> decide
    exact Nat.lt_of_le_of_lt (Nat.le_trans hlength ht) (by decide)
  have hr := (run_refines [.put [107] (some [104])] _ _ (created_represents hcreate)).1
  have hhash : ∀ key, Short (svzHashGet (run created [.put [107] (some [104])]) key) := by
    intro key
    rw [svzHashGet_eq_lookup hr]
    by_cases hkey : defaultCallbacks_lawful.key key = defaultCallbacks_lawful.key [107]
    · rw [hkey]
      exact hshort _ (by decide)
    · have hother : (specRun defaultCallbacks_lawful (∅ : StringMap)
          [.put [107] (some [104])]).lookup (defaultCallbacks_lawful.key key) = none :=
        (Finmap.lookup_insert_of_ne _ hkey).trans (Finmap.lookup_empty _)
      rw [hother]
      exact hshort none (by decide)
  let pairs : List (Bytes × Option Bytes) := [([107], some [104]), ([108], none), ([107], some [])]
  have hpairs : ∀ p ∈ pairs, Short p.2 := by
    intro p hp
    apply hshort p.2
    simp only [pairs, List.mem_cons, List.not_mem_nil, or_false] at hp
    rcases hp with rfl | rfl | rfl <;> decide
  obtain ⟨harray, -, ⟨copy, hdup, -⟩, hash, hcollect, hcopied⟩ := copies_spec
    [some [104, 105], some [], none] pairs hcreate [.put [107] (some [104])]
    (fun s hs => hshort s (List.mem_append_left [some [104]] hs)) hhash hpairs
  exact ⟨created, hcreate, harray, ⟨copy, hdup⟩, hash, hcollect,
    hcopied.size.trans (by decide +kernel)⟩

/-- An empty string comes back as `NULL`. -/
theorem emptyString_not_same : ∃ copy, svzArrayStrdup [some [104], some []] = some copy ∧
    ¬ SameStrings [some [104], some []] copy := by
  refine ⟨[some [104], none], by decide +kernel, ?_⟩
  rintro ⟨-, hsame⟩
  obtain ⟨t, ht, -⟩ := hsame 1 [] rfl
  cases ht

end Serveez.Data
