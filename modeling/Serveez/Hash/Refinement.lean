import Serveez.Hash.Shape
import Serveez.Lib.FiniteMap

/-!
# The hash table refines a finite map

Keys are compared by the `equals` callback, so the abstract map has the classes of equal
keys as its keys (`Key`). A table represents a map when it is well formed and its entries,
read as bindings, are the entries of the map (`Represents`). The entries of a `Finmap` have
no key twice, so the relation also says that no two entries of the table have equal keys.

* `findEntry_lookup`: the search loop finds exactly the binding of the key.
* `represents_put`, `represents_delete`: the two updates are `insert` and `erase`.
* `run_refines`: every run answers as the map does and ends in a table for the final map.
-/

namespace Serveez.Hash

open Lib

/-! ## Lawful callbacks -/

/-- What the table relies on: `equals` decides an equivalence, equal keys have equal
codes, and the bytes that `keylen` selects are the whole key. -/
structure Callbacks.Lawful (c : Callbacks) : Prop where
  equivalence : Equivalence (fun a b => c.equals a b = 0)
  code_eq : ∀ a b, c.equals a b = 0 → c.code a = c.code b
  keylen_copy : ∀ k, c.equals (copyKey c k) k = 0

variable {c : Callbacks} {V : Type}

def Callbacks.Lawful.setoid (hc : c.Lawful) : Setoid Bytes :=
  ⟨fun a b => c.equals a b = 0, hc.equivalence⟩

/-- A class of equal keys. -/
abbrev Key (hc : c.Lawful) : Type := Quotient hc.setoid

instance (hc : c.Lawful) : DecidableEq (Key hc) :=
  @Quotient.decidableEq _ hc.setoid (fun a b => inferInstanceAs (Decidable (c.equals a b = 0)))

def Callbacks.Lawful.key (hc : c.Lawful) (k : Bytes) : Key hc := Quotient.mk hc.setoid k

theorem key_eq_iff (hc : c.Lawful) {a b : Bytes} : hc.key a = hc.key b ↔ c.equals a b = 0 := by
  unfold Callbacks.Lawful.key
  rw [Quotient.eq]
  exact Iff.rfl

/-- The abstract state: a finite map from classes of keys to `void *` values. -/
abbrev Map (hc : c.Lawful) (V : Type) : Type := Finmap (fun _ : Key hc => Option V)

def bindingOf (hc : c.Lawful) (key : Bytes) (value : Option V) :
    Sigma (fun _ : Key hc => Option V) := ⟨hc.key key, value⟩

def binding (hc : c.Lawful) (x : SvzHashEntry V) : Sigma (fun _ : Key hc => Option V) :=
  bindingOf hc x.key x.value

/-! ## The default callbacks are lawful -/

/-- The string behind a pointer: the bytes before the first NUL. -/
def cString (key : Bytes) : Bytes := key.takeWhile (fun b => !decide (b = 0))

theorem hashEqual_eq_zero_iff (a b : Bytes) : hashEqual a b = 0 ↔ cString a = cString b := by
  induction a generalizing b with
  | nil =>
    cases b with
    | nil => simp [hashEqual, cString]
    | cons d q => by_cases hd : d = 0 <;> simp [hashEqual, cString, hd]
  | cons d p ih =>
    cases b with
    | nil => by_cases hd : d = 0 <;> simp [hashEqual, cString, hd]
    | cons d' q =>
      have hrec := ih q
      unfold cString at hrec ⊢
      by_cases hd : d = 0
      · by_cases hd' : d' = 0 <;> simp [hashEqual, hd, hd']
      · by_cases hd' : d' = 0
        · simp [hashEqual, hd, hd']
        · by_cases hdd : d = d' <;> simp_all [hashEqual]

theorem hashCodeLoop_cString (code : UInt64) (key : Bytes) :
    hashCodeLoop code (cString key) = hashCodeLoop code key := by
  induction key generalizing code with
  | nil => rfl
  | cons d p ih =>
    unfold cString at ih ⊢
    by_cases hd : d = 0
    · simp [hashCodeLoop, hd]
    · simp [hashCodeLoop, hd, ih]

theorem cString_take_hashKeyLength (key : Bytes) :
    cString (key.take (hashKeyLength key)) = cString key := by
  induction key with
  | nil => rfl
  | cons d p ih =>
    unfold cString at ih ⊢
    by_cases hd : d = 0
    · simp [hashKeyLength, hd]
    · simp [hashKeyLength, hd, ih]

theorem defaultCallbacks_lawful : defaultCallbacks.Lawful where
  equivalence := by
    refine ⟨fun a => (hashEqual_eq_zero_iff a a).mpr rfl, ?_, ?_⟩
    · intro a b h
      exact (hashEqual_eq_zero_iff b a).mpr ((hashEqual_eq_zero_iff a b).mp h).symm
    · intro a b d h h'
      exact (hashEqual_eq_zero_iff a d).mpr
        (((hashEqual_eq_zero_iff a b).mp h).trans ((hashEqual_eq_zero_iff b d).mp h'))
  code_eq := by
    intro a b h
    change hashCodeLoop 0 a = hashCodeLoop 0 b
    rw [← hashCodeLoop_cString 0 a, (hashEqual_eq_zero_iff a b).mp h, hashCodeLoop_cString]
  keylen_copy := fun k => (hashEqual_eq_zero_iff _ k).mpr (cString_take_hashKeyLength k)

/-! ## Tables that represent a map -/

/-- A well-formed table whose entries carry the codes of their keys and are the bindings of
the map. -/
structure Represents (hc : c.Lawful) (h : SvzHash V) (m : Map hc V) : Prop where
  callbacks : h.callbacks = c
  shape : Shape h
  code : ∀ x ∈ h.table.flatten, x.code = h.callbacks.code x.key
  keys : h.keys = h.table.flatten.length
  entries : m.entries = (h.table.flatten.map (binding hc) : Multiset _)

variable {hc : c.Lawful} {m : Map hc V} {h : SvzHash V}

/-- A table keeps its map when its entries are the same up to order. -/
theorem Represents.of_perm {h h' : SvzHash V} (hr : Represents hc h m) (hs : Shape h')
    (hcb : h'.callbacks = h.callbacks) (hk : h'.keys = h.keys)
    (hp : h'.table.flatten.Perm h.table.flatten) :
    Represents hc h' m := by
  refine ⟨hcb.trans hr.callbacks, hs, ?_, by rw [hk, hr.keys, hp.length_eq], ?_⟩
  · intro x hx
    rw [hcb]
    exact hr.code x (hp.mem_iff.mp hx)
  · rw [hr.entries]
    exact Multiset.coe_eq_coe.mpr (hp.map _).symm

/-! ## The search loop -/

/-- An entry with a key equal to `key` is in the bucket that the search looks at. -/
theorem Represents.mem_bucket (hr : Represents hc h m) {key : Bytes} {x : SvzHashEntry V}
    (hx : x ∈ h.table.flatten) (heq : c.equals x.key key = 0) :
    x.code = h.callbacks.code key ∧
      x ∈ bucket h.table (hashBucket (h.callbacks.code key) h.buckets) := by
  have hcode : x.code = h.callbacks.code key := by
    rw [hr.code x hx, hr.callbacks]
    exact hc.code_eq _ _ heq
  obtain ⟨i, hi⟩ := mem_flatten_iff_bucket.mp hx
  have hslot : hashBucket x.code h.buckets = i := hr.shape.placed i x hi
  refine ⟨hcode, ?_⟩
  rw [← hcode, hslot]
  exact hi

theorem findEntry_lookup (hr : Represents hc h m) (key : Bytes) :
    m.lookup (hc.key key) = (findEntry h key).map (fun p => p.2.value) := by
  cases hf : findEntry h key with
  | some p =>
    obtain ⟨hx, hcode, heq⟩ := findEntry_some (e := p.1) (x := p.2) hf
    rw [hr.callbacks] at heq
    rw [Option.map_some]
    refine Finmap.lookup_eq_some_iff.mpr ?_
    rw [hr.entries, ← (key_eq_iff hc).mpr heq]
    exact Multiset.mem_coe.mpr (List.mem_map.mpr ⟨p.2, mem_flatten_of_getElem? hx, rfl⟩)
  | none =>
    rw [Option.map_none, Finmap.lookup_eq_none, Finmap.mem_iff]
    rintro ⟨v, hv⟩
    have hmem := Finmap.lookup_eq_some_iff.mp hv
    rw [hr.entries] at hmem
    obtain ⟨x, hx, hxb⟩ := List.mem_map.mp (Multiset.mem_coe.mp hmem)
    have heq : c.equals x.key key = 0 := (key_eq_iff hc).mp (congrArg Sigma.fst hxb)
    obtain ⟨hcode, hin⟩ := hr.mem_bucket hx heq
    exact findEntry_none hf x hin ⟨hcode, hr.callbacks ▸ heq⟩

/-! ## Put -/

theorem flatten_replace_perm {t : List (List (SvzHashEntry V))} {i e : Nat}
    {x : SvzHashEntry V} (hx : (bucket t i)[e]? = some x) (y : SvzHashEntry V)
    (hi : i < t.length) :
    (x :: (t.set i ((bucket t i).set e y)).flatten).Perm (y :: t.flatten) := by
  obtain ⟨he, rfl⟩ := List.getElem?_eq_some_iff.mp hx
  have h := flatten_set_perm hi ((bucket t i).set e y)
  have hold := (List.getElem_cons_eraseIdx_perm he).append_right
    (t.set i ((bucket t i).set e y)).flatten
  have hnew := (List.set_perm_cons_eraseIdx he y).append_right t.flatten
  have hall := (hold.trans h).trans hnew
  rw [List.cons_append, List.cons_append] at hall
  have hmid := List.perm_middle.trans (hall.trans List.perm_middle.symm)
  exact (List.perm_append_left_iff _).mp hmid

theorem represents_addEntry (hr : Represents hc h m) {key : Bytes} (hf : findEntry h key = none)
    (value : Option V) :
    Represents hc (addEntry h key value) (m.insert (hc.key key) value) := by
  have hs := hr.shape
  have hi := hs.index_lt (h.callbacks.code key)
  set x : SvzHashEntry V := newEntry h key value with hxdef
  have hp : (addEntry h key value).table.flatten.Perm (x :: h.table.flatten) :=
    flatten_push_perm hi x
  have hkey : hc.key x.key = hc.key key := by
    rw [key_eq_iff hc, hxdef, newEntry, hr.callbacks]
    exact hc.keylen_copy key
  have hfresh : hc.key key ∉ m := by
    rw [← Finmap.lookup_eq_none, findEntry_lookup hr, hf]
    rfl
  refine ⟨hr.callbacks, shape_addEntry hs key value, ?_, ?_, ?_⟩
  · intro y hy
    rcases List.mem_cons.mp (hp.mem_iff.mp hy) with rfl | hy
    · change h.callbacks.code key = h.callbacks.code (copyKey h.callbacks key)
      rw [hr.callbacks]
      exact (hc.code_eq _ _ (hc.keylen_copy key)).symm
    · exact hr.code y hy
  · rw [hp.length_eq, List.length_cons, ← hr.keys]
    rfl
  · rw [Finmap.entries_insert_of_notMem hfresh, hr.entries, ← hkey, Multiset.cons_coe]
    exact Multiset.coe_eq_coe.mpr (hp.map (binding hc)).symm

theorem represents_replaceEntry (hr : Represents hc h m) {key : Bytes} {e : Nat}
    {x : SvzHashEntry V} (hf : findEntry h key = some (e, x)) (value : Option V) :
    Represents hc (replaceEntry h (hashBucket (h.callbacks.code key) h.buckets) e
      { x with value := value }) (m.insert (hc.key key) value) := by
  have hs := hr.shape
  have hi := hs.index_lt (h.callbacks.code key)
  obtain ⟨hx, hcode, heq⟩ := findEntry_some hf
  rw [hr.callbacks] at heq
  set i := hashBucket (h.callbacks.code key) h.buckets with hidef
  set y : SvzHashEntry V := { x with value := value } with hydef
  have hp := flatten_replace_perm hx y hi
  have hxm : x ∈ h.table.flatten := mem_flatten_of_getElem? hx
  obtain ⟨R, hR⟩ : ∃ R, h.table.flatten.Perm (x :: R) := by
    obtain ⟨s, t, hst⟩ := List.append_of_mem hxm
    exact ⟨s ++ t, hst ▸ List.perm_middle⟩
  have hnew : (replaceEntry h i e y).table.flatten.Perm (y :: R) :=
    (List.perm_cons x).mp ((hp.trans (hR.cons y)).trans (List.Perm.swap x y R))
  have hkey : hc.key x.key = hc.key key := (key_eq_iff hc).mpr heq
  have hold : m.entries = ⟨hc.key key, x.value⟩ ::ₘ (R.map (binding hc) : Multiset _) := by
    rw [hr.entries, ← hkey, Multiset.cons_coe]
    exact Multiset.coe_eq_coe.mpr (hR.map (binding hc))
  refine ⟨hr.callbacks, shape_replaceEntry hs hf value, ?_, ?_, ?_⟩
  · intro z hz
    rcases List.mem_cons.mp (hnew.mem_iff.mp hz) with rfl | hz
    · exact hr.code x hxm
    · exact hr.code z (hR.mem_iff.mpr (List.mem_cons_of_mem _ hz))
  · rw [hnew.length_eq, List.length_cons, ← List.length_cons (a := x), ← hR.length_eq, ← hr.keys]
    rfl
  · rw [entries_insert_of_entries_eq_cons hold, ← hkey, Multiset.cons_coe]
    exact Multiset.coe_eq_coe.mpr (hnew.map (binding hc)).symm

theorem represents_put (hr : Represents hc h m) (key : Bytes) (value : Option V) :
    Represents hc (svzHashPut h key value).1 (m.insert (hc.key key) value) ∧
      (svzHashPut h key value).2 = (m.lookup (hc.key key)).join := by
  rw [findEntry_lookup hr]
  cases hf : findEntry h key with
  | some p =>
    obtain ⟨e, x⟩ := p
    rw [svzHashPut_of_some hf]
    exact ⟨represents_replaceEntry hr hf value, rfl⟩
  | none =>
    have ha := represents_addEntry hr hf value
    rw [svzHashPut_of_none hf]
    refine ⟨?_, rfl⟩
    dsimp only
    split
    · obtain ⟨hs, hcb, hk, hp⟩ := shape_rehash ha.shape .expand
      exact ha.of_perm hs hcb hk hp
    · exact ha

/-! ## Delete -/

theorem represents_dropEntry (hr : Represents hc h m) {key : Bytes} {n : Nat} {x : SvzHashEntry V}
    (hf : findEntry h key = some (n, x)) :
    Represents hc { dropEntry h (hashBucket (h.callbacks.code key) h.buckets) n with
      keys := h.keys - 1 } (m.erase (hc.key key)) := by
  have hs := hr.shape
  have hi := hs.index_lt (h.callbacks.code key)
  obtain ⟨hx, hcode, heq⟩ := findEntry_some hf
  rw [hr.callbacks] at heq
  set i := hashBucket (h.callbacks.code key) h.buckets
  obtain ⟨hn, -⟩ := List.getElem?_eq_some_iff.mp hx
  have hp : (x :: (dropEntry h i n).table.flatten).Perm h.table.flatten :=
    flatten_swapRemove_perm hx
  have hkey : hc.key x.key = hc.key key := (key_eq_iff hc).mpr heq
  have hold : m.entries =
      ⟨hc.key key, x.value⟩ ::ₘ
        ((dropEntry h i n).table.flatten.map (binding hc) : Multiset _) := by
    rw [hr.entries, ← hkey, Multiset.cons_coe]
    exact Multiset.coe_eq_coe.mpr (hp.map (binding hc)).symm
  refine ⟨hr.callbacks, (shape_dropEntry hs hn).withKeys _, ?_, ?_,
    entries_erase_of_entries_eq_cons hold⟩
  · intro y hy
    exact hr.code y (hp.mem_iff.mp (List.mem_cons_of_mem _ hy))
  · change h.keys - 1 = _
    rw [hr.keys, ← hp.length_eq, List.length_cons]
    rfl

theorem represents_delete (hr : Represents hc h m) (key : Bytes) :
    Represents hc (svzHashDelete h key).1 (m.erase (hc.key key)) ∧
      (svzHashDelete h key).2 = (m.lookup (hc.key key)).join := by
  have hlook := findEntry_lookup hr key
  rw [hlook]
  cases hf : findEntry h key with
  | some p =>
    obtain ⟨n, x⟩ := p
    have hd := represents_dropEntry hr hf
    rw [svzHashDelete_of_some hf]
    refine ⟨?_, rfl⟩
    unfold removeEntry
    dsimp only
    split
    · -- the count of keys goes down after the rehash, the shape does not depend on it
      obtain ⟨hs, hcb, hk, hp⟩ := shape_rehash (hd.shape.withKeys h.keys) .shrink
      exact hd.of_perm (hs.withKeys _) hcb (congrArg (fun k => k - 1) hk) hp
    · exact hd
  | none =>
    rw [svzHashDelete_of_none hf]
    have hnot : hc.key key ∉ m := by
      rw [← Finmap.lookup_eq_none, hlook, hf]
      rfl
    rw [erase_of_notMem hnot]
    exact ⟨hr, rfl⟩

/-! ## Reading -/

theorem svzHashGet_eq_lookup (hr : Represents hc h m) (key : Bytes) :
    svzHashGet h key = (m.lookup (hc.key key)).join := by
  rw [findEntry_lookup hr]
  unfold svzHashGet
  cases findEntry h key <;> rfl

theorem svzHashExists_iff_mem (hr : Represents hc h m) (key : Bytes) :
    svzHashExists h key ≠ 0 ↔ hc.key key ∈ m := by
  rw [← Finmap.lookup_isSome, findEntry_lookup hr]
  unfold svzHashExists
  cases findEntry h key <;> simp

theorem svzHashSize_eq_card (hr : Represents hc h m) : svzHashSize (some h) = m.keys.card := by
  rw [card_keys, hr.entries, Multiset.coe_card, List.length_map]
  exact hr.keys

/-- The walk over the buckets ends early only when all that is left is empty. -/
theorem foreachBuckets_eq {σ : Type} (func : Bytes → Option V → σ → σ) {keys : Nat} :
    ∀ (rest : List (List (SvzHashEntry V))) (i : Nat) (closure : σ),
      i + rest.flatten.length = keys → foreachBuckets func keys rest i closure =
        rest.flatten.foldl (fun closure x => func x.key x.value closure) closure := by
  intro rest
  induction rest with
  | nil => exact fun _ _ _ => rfl
  | cons b rest ih =>
    intro i closure hi
    rw [List.flatten_cons, List.length_append] at hi
    rw [foreachBuckets, List.flatten_cons, List.foldl_append]
    by_cases hlt : i < keys
    · rw [if_pos hlt, ih (i + b.length) _ (by omega)]
    · have hb : b = [] := List.eq_nil_of_length_eq_zero (by omega)
      have hrest : rest.flatten = [] := List.eq_nil_of_length_eq_zero (by omega)
      rw [if_neg hlt, hb, hrest]
      rfl

theorem svzHashForeach_eq (hr : Represents hc h m) {σ : Type} (func : Bytes → Option V → σ → σ)
    (closure : σ) :
    svzHashForeach func h closure =
      h.table.flatten.foldl (fun closure x => func x.key x.value closure) closure := by
  unfold svzHashForeach
  rw [← hr.shape.length, List.take_length]
  exact foreachBuckets_eq func _ 0 closure (by rw [Nat.zero_add, hr.keys])

theorem exists_calls (hr : Represents hc h m) :
    ∃ calls : List (Bytes × Option V),
      (∀ (σ : Type) (func : Bytes → Option V → σ → σ) (closure : σ),
        svzHashForeach func h closure = calls.foldl (fun s p => func p.1 p.2 s) closure) ∧
      (calls.map (fun p => bindingOf hc p.1 p.2) : Multiset _) = m.entries := by
  refine ⟨h.table.flatten.map (fun x => (x.key, x.value)), ?_, ?_⟩
  · intro σ func closure
    rw [List.foldl_map]
    exact svzHashForeach_eq hr func closure
  · rw [hr.entries, List.map_map]
    rfl

/-! ## Creation -/

theorem represents_empty {k : Nat} (hk : 2 ≤ k) :
    Represents hc ({ buckets := 2 ^ k, fill := 0, keys := 0, callbacks := c,
                     table := List.replicate (2 ^ k) [] } : SvzHash V) ∅ := by
  have hempty : (List.replicate (2 ^ k) ([] : List (SvzHashEntry V))).flatten = [] := by simp
  refine ⟨rfl, shape_empty hk c, ?_, by simp, by rw [hempty]; rfl⟩
  intro x hx
  simp at hx

/-! ## Runs -/

/-- The same update on the map. -/
def Op.spec (hc : c.Lawful) (m : Map hc V) : Op V → Map hc V × Option V
  | .put key value => (m.insert (hc.key key) value, (m.lookup (hc.key key)).join)
  | .delete key => (m.erase (hc.key key), (m.lookup (hc.key key)).join)

def specRun (hc : c.Lawful) (m : Map hc V) (ops : List (Op V)) : Map hc V :=
  ops.foldl (fun m op => (op.spec hc m).1) m

def specAnswers (hc : c.Lawful) (m : Map hc V) : List (Op V) → List (Option V)
  | [] => []
  | op :: ops => (op.spec hc m).2 :: specAnswers hc (op.spec hc m).1 ops

theorem represents_apply (hr : Represents hc h m) (op : Op V) :
    Represents hc (op.apply h).1 (op.spec hc m).1 ∧ (op.apply h).2 = (op.spec hc m).2 := by
  cases op with
  | put key value => exact represents_put hr key value
  | delete key => exact represents_delete hr key

theorem run_refines :
    ∀ (ops : List (Op V)) (h : SvzHash V) (m : Map hc V), Represents hc h m →
      Represents hc (run h ops) (specRun hc m ops) ∧ answers h ops = specAnswers hc m ops := by
  intro ops
  induction ops with
  | nil => exact fun h m hr => ⟨hr, rfl⟩
  | cons op ops ih =>
    intro h m hr
    obtain ⟨hstep, hanswer⟩ := represents_apply hr op
    obtain ⟨hrun, hanswers⟩ := ih _ _ hstep
    refine ⟨hrun, ?_⟩
    rw [answers, specAnswers, hanswer, hanswers]

/-- **The hash table refines a finite map.** A table created with a size of at least one
and configured with lawful callbacks answers every sequence of puts and deletes as the
finite map does. In the state reached, `get`, `exists` and `size` read that map, `foreach`
makes one call for each of its bindings, and both branches of `rehash` keep all entries and
their places. -/
theorem svzHash_refines_finmap {c : Callbacks} (hc : c.Lawful) {size : Nat} (hsize : 1 ≤ size) :
    ∃ created : SvzHash V, svzHashCreate size = some created ∧
      ∀ ops : List (Op V),
        let h₀ := svzHashConfigure created (some c.keylen) (some c.code) (some c.equals)
        let h := run h₀ ops
        let m := specRun hc ∅ ops
        answers h₀ ops = specAnswers hc ∅ ops ∧
        (∀ key, svzHashGet h key = (m.lookup (hc.key key)).join) ∧
        (∀ key, svzHashExists h key ≠ 0 ↔ hc.key key ∈ m) ∧
        svzHashSize (some h) = m.keys.card ∧
        (∃ calls : List (Bytes × Option V),
          (∀ (σ : Type) (func : Bytes → Option V → σ → σ) (closure : σ),
            svzHashForeach func h closure = calls.foldl (fun s p => func p.1 p.2 s) closure) ∧
          (calls.map (fun p => bindingOf hc p.1 p.2) : Multiset _) = m.entries) ∧
        ∀ type, (rehash h type).table.flatten.Perm h.table.flatten ∧
          Placed (slot (rehash h type).buckets) (rehash h type).table := by
  obtain ⟨k, hk, hcreate⟩ := svzHashCreate_eq (V := V) hsize
  refine ⟨_, hcreate, ?_⟩
  intro ops
  have h₀ : Represents hc _ (∅ : Map hc V) := represents_empty hk
  obtain ⟨hr, hanswers⟩ := run_refines ops _ _ h₀
  refine ⟨hanswers, svzHashGet_eq_lookup hr, svzHashExists_iff_mem hr, svzHashSize_eq_card hr,
    exists_calls hr, ?_⟩
  intro type
  obtain ⟨hs, -, -, hp⟩ := shape_rehash hr.shape type
  exact ⟨hp, hs.placed⟩

/-- The theorem for the callbacks every new table has, with keys that are C strings. -/
theorem svzHash_refines_finmap_default :
    ∃ created : SvzHash Nat, svzHashCreate 1 = some created ∧
      ∀ ops : List (Op Nat), ∃ m : Map defaultCallbacks_lawful Nat,
        ∀ key, svzHashGet (run (svzHashConfigure created (some hashKeyLength) (some hashCode)
          (some hashEqual)) ops) key = (m.lookup (defaultCallbacks_lawful.key key)).join := by
  obtain ⟨created, hcreate, h⟩ :=
    svzHash_refines_finmap (V := Nat) defaultCallbacks_lawful (Nat.le_refl 1)
  exact ⟨created, hcreate, fun ops => ⟨_, (h ops).2.1⟩⟩

end Serveez.Hash
