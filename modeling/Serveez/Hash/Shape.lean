import Serveez.Hash.Rehash

/-!
# The shape of a table

Whatever the callbacks answer, every table that `put` and `delete` reach has a power of two
of buckets and every entry in the bucket its code selects (`Shape`). The two updates are
split here into what they do to one bucket and the rehash that may follow:

* `svzHashPut_of_some`, `svzHashPut_of_none`, `svzHashDelete_of_some`: the updates as a
  change of one bucket, then `rehash` under the conditions of the source;
* `shape_put`, `shape_delete`: the shape is kept.
-/

namespace Serveez.Hash

open Lib

variable {V : Type}

/-- Every entry is in the bucket its code selects. -/
structure Shape (h : SvzHash V) : Prop where
  power : ∃ k, 2 ≤ k ∧ h.buckets = 2 ^ k
  length : h.table.length = h.buckets
  placed : Placed (slot h.buckets) h.table

variable {h : SvzHash V} {key : Bytes} {x : SvzHashEntry V}

theorem Shape.index_lt (hs : Shape h) (code : UInt64) :
    hashBucket code h.buckets < h.table.length := by
  obtain ⟨k, -, hk⟩ := hs.power
  rw [hs.length, hk, hashBucket_two_pow]
  exact Nat.mod_lt _ (Nat.two_pow_pos k)

theorem Shape.withKeys (hs : Shape h) (keys : Nat) :
    Shape { h with keys := keys } := ⟨hs.power, hs.length, hs.placed⟩

theorem rehash_shrink_of_le (hmin : ¬ minSize < h.buckets) :
    rehash h .shrink = h := by
  unfold rehash
  rw [if_neg hmin]

/-- A table of more than the minimal size can be halved. -/
theorem Shape.exists_half (hs : Shape h) (hmin : minSize < h.buckets) :
    ∃ j, 2 ≤ j ∧ h.buckets = 2 ^ (j + 1) := by
  obtain ⟨k, hk2, hk⟩ := hs.power
  have hk3 : k ≠ 2 := by
    rintro rfl
    rw [hk] at hmin
    exact absurd hmin (by decide)
  refine ⟨k - 1, by omega, ?_⟩
  rw [hk, Nat.sub_add_cancel (by omega)]

/-- Neither branch of `rehash` loses, duplicates or misplaces an entry. -/
theorem shape_rehash (hs : Shape h) (type : RehashType) :
    Shape (rehash h type) ∧ (rehash h type).callbacks = h.callbacks ∧
      (rehash h type).keys = h.keys ∧ (rehash h type).table.flatten.Perm h.table.flatten := by
  cases type with
  | expand =>
    obtain ⟨k, hk2, hk⟩ := hs.power
    obtain ⟨h1, h2, h3, h4, h5, h6, -⟩ := expand_spec hk (hs.length.trans hk) (hk ▸ hs.placed)
    exact ⟨⟨⟨k + 1, by omega, h1⟩, by rw [h2, h1], by rw [h1]; exact h5⟩, h4, h3, h6⟩
  | shrink =>
    by_cases hmin : minSize < h.buckets
    · obtain ⟨j, hj, hk⟩ := hs.exists_half hmin
      obtain ⟨h1, h2, h3, h4, h5, h6, -⟩ :=
        shrink_spec hk hmin (hs.length.trans hk) (hk ▸ hs.placed)
      exact ⟨⟨⟨j, hj, h1⟩, by rw [h2, h1], by rw [h1]; exact h5⟩, h4, h3, h6⟩
    · rw [rehash_shrink_of_le hmin]
      exact ⟨hs, rfl, rfl, List.Perm.refl _⟩

/-! ## The search loop -/

theorem findEntry_some {e : Nat} (hf : findEntry h key = some (e, x)) :
    (bucket h.table (hashBucket (h.callbacks.code key) h.buckets))[e]? = some x ∧
      x.code = h.callbacks.code key ∧ h.callbacks.equals x.key key = 0 := by
  unfold findEntry at hf
  simp only [Option.bind_eq_bind, Option.bind_eq_some_iff, Option.pure_def, Option.some.injEq,
    Prod.mk.injEq] at hf
  obtain ⟨i, hi, y, hy, rfl, rfl⟩ := hf
  obtain ⟨hlt, hmatch, -⟩ := List.findIdx?_eq_some_iff_getElem.mp hi
  obtain rfl : _ = y := Option.some.inj ((List.getElem?_eq_getElem hlt).symm.trans hy)
  simp only [entryMatches, Bool.and_eq_true, beq_iff_eq] at hmatch
  exact ⟨hy, hmatch⟩

theorem findEntry_none (hf : findEntry h key = none) :
    ∀ x ∈ bucket h.table (hashBucket (h.callbacks.code key) h.buckets),
      ¬ (x.code = h.callbacks.code key ∧ h.callbacks.equals x.key key = 0) := by
  intro x hx hmatch
  unfold findEntry at hf
  simp only [Option.bind_eq_bind, Option.bind_eq_none_iff, Option.pure_def, reduceCtorEq] at hf
  cases hi : (bucket h.table (hashBucket (h.callbacks.code key) h.buckets)).findIdx?
      (entryMatches h.callbacks (h.callbacks.code key) key) with
  | none =>
    have := List.findIdx?_eq_none_iff.mp hi x hx
    simp [entryMatches, hmatch] at this
  | some i =>
    obtain ⟨hlt, -⟩ := List.findIdx?_eq_some_iff_getElem.mp hi
    exact hf i hi _ (List.getElem?_eq_getElem hlt)

theorem mem_flatten_of_getElem? {t : List (List (SvzHashEntry V))} {i e : Nat}
    (hx : (bucket t i)[e]? = some x) : x ∈ t.flatten :=
  mem_flatten_iff_bucket.mpr ⟨i, List.mem_of_getElem? hx⟩

/-! ## The updates of one bucket -/

/-- The entry a put with a fresh key appends. -/
def newEntry (h : SvzHash V) (key : Bytes) (value : Option V) : SvzHashEntry V :=
  { code := h.callbacks.code key, key := copyKey h.callbacks key, value := value }

/-- The table after the first part of a put with a fresh key. -/
def addEntry (h : SvzHash V) (key : Bytes) (value : Option V) : SvzHash V :=
  { pushEntry h (hashBucket (h.callbacks.code key) h.buckets) (newEntry h key value) with
    keys := h.keys + 1 }

/-- The table after overwriting entry `e` of bucket `i`. -/
def replaceEntry (h : SvzHash V) (i e : Nat) (y : SvzHashEntry V) : SvzHash V :=
  { h with table := h.table.set i ((bucket h.table i).set e y) }

theorem svzHashPut_of_some {e : Nat} (hf : findEntry h key = some (e, x)) (value : Option V) :
    svzHashPut h key value =
      (replaceEntry h (hashBucket (h.callbacks.code key) h.buckets) e { x with value := value },
        x.value) := by
  unfold svzHashPut
  rw [hf]
  rfl

theorem svzHashPut_of_none (hf : findEntry h key = none) (value : Option V) :
    svzHashPut h key value =
      (if (bucket h.table (hashBucket (h.callbacks.code key) h.buckets)).length + 1 = 1 ∧
          (addEntry h key value).fill.toNat > hashExpandLimit (addEntry h key value) then
        rehash (addEntry h key value) .expand else addEntry h key value, none) := by
  unfold svzHashPut
  rw [hf]
  simp only [apply_ite (fun h : SvzHash V => (h, (none : Option V)))]
  rfl

/-- The table after a delete that finds its key at `n`, before the key is discounted. -/
def removeEntry (h : SvzHash V) (i n : Nat) : SvzHash V :=
  if (bucket h.table i).length - 1 = 0 ∧
      (dropEntry h i n).fill.toNat < hashShrinkLimit (dropEntry h i n) then
    rehash (dropEntry h i n) .shrink else dropEntry h i n

theorem svzHashDelete_of_some {n : Nat} (hf : findEntry h key = some (n, x)) :
    let h' := removeEntry h (hashBucket (h.callbacks.code key) h.buckets) n
    svzHashDelete h key = ({ h' with keys := h'.keys - 1 }, x.value) := by
  intro h'
  unfold svzHashDelete
  rw [hf]
  rfl

theorem svzHashDelete_of_none (hf : findEntry h key = none) :
    svzHashDelete h key = (h, none) := by
  unfold svzHashDelete
  rw [hf]

theorem shape_addEntry (hs : Shape h) (key : Bytes) (value : Option V) :
    Shape (addEntry h key value) := by
  have hi := hs.index_lt (h.callbacks.code key)
  refine ⟨hs.power, (length_pushEntry _ _ _).trans hs.length, placed_set hi hs.placed ?_⟩
  intro y hy
  rcases List.mem_append.mp hy with hy | hy
  · exact hs.placed _ y hy
  · rw [List.mem_singleton.mp hy]
    rfl

theorem shape_replaceEntry (hs : Shape h) {e : Nat} (hf : findEntry h key = some (e, x))
    (value : Option V) :
    Shape (replaceEntry h (hashBucket (h.callbacks.code key) h.buckets) e
      { x with value := value }) := by
  obtain ⟨-, hcode, -⟩ := findEntry_some hf
  have hi := hs.index_lt (h.callbacks.code key)
  refine ⟨hs.power, by simp [replaceEntry, hs.length], placed_set hi hs.placed ?_⟩
  intro z hz
  rcases List.mem_or_eq_of_mem_set hz with hz | rfl
  · exact hs.placed _ z hz
  · change hashBucket x.code h.buckets = _
    rw [hcode]

theorem shape_dropEntry (hs : Shape h) {i n : Nat} (hn : n < (bucket h.table i).length) :
    Shape (dropEntry h i n) := by
  have hi : i < h.table.length := by
    by_contra hle
    rw [bucket_of_le (Nat.le_of_not_gt hle)] at hn
    simp at hn
  refine ⟨hs.power, by simp [dropEntry, hs.length], placed_set hi hs.placed ?_⟩
  intro y hy
  exact hs.placed i y (swapRemove_subset _ _ hy)

theorem shape_put (hs : Shape h) (key : Bytes) (value : Option V) :
    Shape (svzHashPut h key value).1 := by
  cases hf : findEntry h key with
  | some p =>
    rw [svzHashPut_of_some (e := p.1) (x := p.2) hf]
    exact shape_replaceEntry hs hf value
  | none =>
    rw [svzHashPut_of_none hf]
    have ha := shape_addEntry hs key value
    dsimp only
    split
    · exact (shape_rehash ha .expand).1
    · exact ha

theorem shape_removeEntry (hs : Shape h) {i n : Nat} (hn : n < (bucket h.table i).length) :
    Shape (removeEntry h i n) := by
  have hd := shape_dropEntry hs hn
  unfold removeEntry
  split
  · exact (shape_rehash hd .shrink).1
  · exact hd

theorem shape_delete (hs : Shape h) (key : Bytes) :
    Shape (svzHashDelete h key).1 := by
  cases hf : findEntry h key with
  | some p =>
    obtain ⟨hx, -⟩ := findEntry_some (e := p.1) (x := p.2) hf
    obtain ⟨hn, -⟩ := List.getElem?_eq_some_iff.mp hx
    rw [svzHashDelete_of_some (n := p.1) (x := p.2) hf]
    exact (shape_removeEntry hs hn).withKeys _
  | none =>
    rw [svzHashDelete_of_none hf]
    exact hs

theorem shape_apply (hs : Shape h) (op : Op V) : Shape (op.apply h).1 := by
  cases op with
  | put key value => exact shape_put hs key value
  | delete key => exact shape_delete hs key

/-! ## Creation -/

theorem binarySize_eq_pow : ∀ (fuel n size : Nat), 1 ≤ n → n ≤ fuel →
    ∃ j, binarySize fuel n size = some (size * 2 ^ j) := by
  intro fuel
  induction fuel with
  | zero => intro n size h1 h2; omega
  | succ fuel ih =>
    intro n size h1 h2
    rw [binarySize]
    by_cases hn : n = 1
    · exact ⟨0, by simp [hn]⟩
    · have hhalf : n >>> 1 = n / 2 := Nat.shiftRight_eq_div_pow n 1
      obtain ⟨j, hj⟩ := ih (n >>> 1) (size <<< 1) (by omega) (by omega)
      refine ⟨j + 1, ?_⟩
      rw [if_neg hn, hj, Nat.shiftLeft_eq, Nat.pow_one, Nat.mul_assoc, Nat.pow_succ,
        Nat.mul_comm 2]

theorem svzHashCreate_eq {size : Nat} (hsize : 1 ≤ size) :
    ∃ k, 2 ≤ k ∧ (svzHashCreate size : Option (SvzHash V)) =
      some { buckets := 2 ^ k, fill := 0, keys := 0, callbacks := defaultCallbacks,
             table := List.replicate (2 ^ k) [] } := by
  obtain ⟨j, hj⟩ := binarySize_eq_pow size size 1 hsize (Nat.le_refl _)
  rw [Nat.one_mul] at hj
  by_cases hlt : 2 ^ j < minSize
  · refine ⟨2, Nat.le_refl 2, ?_⟩
    simp only [svzHashCreate, hj, Option.bind_eq_bind, Option.bind_some, if_pos hlt]
    rfl
  · refine ⟨j, ?_, by simp [svzHashCreate, hj, hlt]⟩
    by_contra hj2
    have : j = 0 ∨ j = 1 := by omega
    rcases this with rfl | rfl <;> exact hlt (by decide)

theorem shape_empty {k : Nat} (hk : 2 ≤ k) (c : Callbacks) :
    Shape ({ buckets := 2 ^ k, fill := 0, keys := 0, callbacks := c,
             table := List.replicate (2 ^ k) [] } : SvzHash V) := by
  refine ⟨⟨k, hk, rfl⟩, by simp, ?_⟩
  intro i x hx
  have := mem_flatten_iff_bucket.mpr ⟨i, hx⟩
  simp at this

end Serveez.Hash
