import Serveez.Hash.Shape
import Serveez.Lib.Runs

/-!
# The counter of filled buckets

`put` and `delete` decide about a rehash by comparing `fill` with a share of the buckets, so
`fill` should be the number of non-empty buckets (`TrueLoad`). The counter follows that number
through every update but one: when a table shrinks, the source takes one off for each bucket
of the upper half, the empty ones included.

* `drift_put`, `drift_delete_iff`: how one update moves the counter against the true load.
* `emptyFrom_pos`: a table that shrinks always has an empty bucket in its upper half.
* `fill_eq_filled_iff`: a run keeps the true load exactly if none of its steps shrinks the
  table.
-/

namespace Serveez.Hash

open Lib

variable {V : Type}

/-! ## The invariant and the step that breaks it -/

/-- The counter is the number of non-empty buckets, and the number of buckets is a power of
two not below the minimal size. -/
structure TrueLoad (h : SvzHash V) : Prop where
  fill : h.fill.toNat = filled h.table
  le_buckets : h.fill.toNat ≤ h.buckets
  power : ∃ k, h.buckets = 2 ^ k
  min_le : minSize ≤ h.buckets

/-- The buckets are one block of memory, sixteen bytes for each, whose size is a `size_t`. -/
def Addressable (h : SvzHash V) : Prop := 16 * h.buckets < 2 ^ 64

/-- A delete that empties a bucket and leaves fewer than a quarter of the buckets filled. -/
def Shrinks (h : SvzHash V) : Op V → Prop
  | .put _ _ => False
  | .delete key =>
    (∃ x, bucket h.table (hashBucket (h.callbacks.code key) h.buckets) = [x] ∧
      entryMatches h.callbacks (h.callbacks.code key) key x = true) ∧
    minSize < h.buckets ∧ filled h.table ≤ hashShrinkLimit h

variable {h : SvzHash V}

theorem Addressable.lt (ha : Addressable h) : h.buckets < 2 ^ 64 := by
  unfold Addressable at ha
  omega

theorem Shape.filled_le (hs : Shape h) : filled h.table ≤ h.buckets := by
  rw [← hs.length]
  exact filled_le_length h.table

theorem ofNat_eq_zero_iff {n : Nat} (hn : n < 2 ^ 64) : UInt64.ofNat n = 0 ↔ n = 0 := by
  rw [← UInt64.toNat_inj, UInt64.toNat_ofNat_of_lt' hn]
  rfl

theorem drift_eq_zero_iff (hlt : filled h.table < 2 ^ 64) :
    drift h = 0 ↔ h.fill.toNat = filled h.table := by
  have hnat := UInt64.toNat_ofNat_of_lt' hlt
  unfold drift
  constructor
  · intro hd
    have hfill : h.fill = UInt64.ofNat (filled h.table) := by grind
    rw [hfill, hnat]
  · intro hf
    have hfill : h.fill = UInt64.ofNat (filled h.table) := by
      rw [← UInt64.toNat_inj, hnat, hf]
    rw [hfill]
    grind

/-- For a well-formed table in memory the invariant is about the counter alone. -/
theorem trueLoad_iff (hs : Shape h) (ha : Addressable h) :
    TrueLoad h ↔ drift h = 0 := by
  have hle := hs.filled_le
  rw [drift_eq_zero_iff (Nat.lt_of_le_of_lt hle ha.lt)]
  constructor
  · exact fun ht => ht.fill
  · intro hf
    obtain ⟨k, hk2, hk⟩ := hs.power
    refine ⟨hf, hf ▸ hle, ⟨k, hk⟩, ?_⟩
    rw [hk]
    exact Nat.pow_le_pow_right Nat.two_pos hk2

/-! ## Put -/

theorem drift_addEntry (hs : Shape h) (key : Bytes) (value : Option V) :
    drift (addEntry h key value) = drift h :=
  drift_pushEntry (hs.index_lt (h.callbacks.code key)) (newEntry h key value)

theorem drift_replaceEntry (i e : Nat) (y : SvzHashEntry V) :
    drift (replaceEntry h i e y) = drift h := by
  by_cases hi : i < h.table.length
  · have hf := filled_set hi ((bucket h.table i).set e y)
    have hempty : ((bucket h.table i).set e y).isEmpty = (bucket h.table i).isEmpty := by
      cases bucket h.table i with
      | nil => rfl
      | cons z zs => cases e <;> rfl
    rw [hempty, Nat.add_right_cancel_iff] at hf
    unfold drift replaceEntry
    rw [hf]
  · unfold drift replaceEntry
    rw [List.set_eq_of_length_le (Nat.le_of_not_gt hi)]

theorem drift_put (hs : Shape h) (key : Bytes) (value : Option V) :
    drift (svzHashPut h key value).1 = drift h := by
  cases hf : findEntry h key with
  | some p =>
    rw [svzHashPut_of_some (e := p.1) (x := p.2) hf]
    exact drift_replaceEntry _ _ _
  | none =>
    have ha := shape_addEntry hs key value
    rw [svzHashPut_of_none hf]
    dsimp only
    split
    · obtain ⟨k, -, hk⟩ := ha.power
      obtain ⟨-, -, -, -, -, -, hd⟩ := expand_spec hk (ha.length.trans hk) (hk ▸ ha.placed)
      rw [hd, drift_addEntry hs]
    · exact drift_addEntry hs key value

/-! ## Delete -/

theorem filled_take_le (t : List (List (SvzHashEntry V))) (n : Nat) :
    filled (t.take n) ≤ filled t := (List.take_sublist n t).countP_le

theorem filled_take_succ (t : List (List (SvzHashEntry V))) {n : Nat} (hn : n < t.length) :
    filled (t.take (n + 1)) = filled (t.take n) + (if (bucket t n).isEmpty then 0 else 1) := by
  rw [← List.take_append_getElem hn, filled_append, bucket_eq_getElem hn]
  cases hb : t[n].isEmpty <;> simp [filled, hb]

/-- Among `m` buckets each one is empty or counted. -/
theorem le_emptyFrom_add_filled (t : List (List (SvzHashEntry V))) (B : Nat) :
    ∀ m, B + m ≤ t.length → m ≤ emptyFrom t B m + filled (t.take (B + m)) := by
  intro m
  induction m with
  | zero => exact fun _ => Nat.zero_le _
  | succ m ih =>
    intro hm
    have hprev := ih (by omega)
    have hnext := filled_take_succ t (n := B + m) (by omega)
    rw [emptyFrom_succ, ← Nat.add_assoc B m 1, hnext]
    cases (bucket t (B + m)).isEmpty <;> simp <;> omega

theorem emptyFrom_le (t : List (List (SvzHashEntry V))) (B m : Nat) : emptyFrom t B m ≤ m := by
  have h := List.countP_le_length (p := fun n => (bucket t n).isEmpty) (l := List.range' B m)
  rwa [List.length_range'] at h

theorem emptyFrom_pos {t : List (List (SvzHashEntry V))} {B : Nat} (hsize : t.length = 2 * B)
    (hfew : filled t < B) : 0 < emptyFrom t B B := by
  have hcount := le_emptyFrom_add_filled t B B (by omega)
  have hle := filled_take_le t (B + B)
  omega

/-- The shrink branch takes off the counter what it never had counted. -/
theorem drift_shrink_ne (hs : Shape h) (ha : Addressable h) (hmin : minSize < h.buckets)
    (hd : drift h = 0) (hfew : filled h.table < hashShrinkLimit h) :
    drift (rehash h .shrink) ≠ 0 := by
  obtain ⟨j, hj, hk⟩ := hs.exists_half hmin
  have hpow : 2 ^ (j + 1) = 2 * 2 ^ j := by rw [Nat.pow_succ]; omega
  have hlimit : hashShrinkLimit h ≤ 2 ^ j := by
    unfold hashShrinkLimit
    rw [Nat.shiftRight_eq_div_pow, hk]
    omega
  have hpos := emptyFrom_pos (t := h.table) (B := 2 ^ j) (by rw [hs.length, hk, hpow]) (by omega)
  have hle := emptyFrom_le h.table (2 ^ j) (2 ^ j)
  have hlt := ha.lt
  obtain ⟨-, -, -, -, -, -, hdrift⟩ := shrink_spec hk hmin (hs.length.trans hk) (hk ▸ hs.placed)
  intro hzero
  rw [hd] at hdrift
  have hempty : UInt64.ofNat (emptyFrom h.table (2 ^ j) (2 ^ j)) = 0 := by grind
  rw [ofNat_eq_zero_iff (by omega)] at hempty
  omega

theorem findEntry_of_singleton {key : Bytes} {x : SvzHashEntry V}
    (hb : bucket h.table (hashBucket (h.callbacks.code key) h.buckets) = [x])
    (hx : entryMatches h.callbacks (h.callbacks.code key) key x = true) :
    findEntry h key = some (0, x) := by
  unfold findEntry
  simp [hb, hx]

theorem drift_removeEntry_iff (hs : Shape h) (ha : Addressable h) (hd : drift h = 0) {i n : Nat}
    (hn : n < (bucket h.table i).length) :
    drift (removeEntry h i n) = 0 ↔
      ¬ ((bucket h.table i).length = 1 ∧ minSize < h.buckets ∧
        filled h.table ≤ hashShrinkLimit h) := by
  have hdrop : drift (dropEntry h i n) = 0 := (drift_dropEntry hn).trans hd
  have hs' := shape_dropEntry hs hn
  have ha' : Addressable (dropEntry h i n) := ha
  have hfill : (dropEntry h i n).fill.toNat = filled (dropEntry h i n).table :=
    (drift_eq_zero_iff (Nat.lt_of_le_of_lt hs'.filled_le ha'.lt)).mp hdrop
  have hcount : filled (dropEntry h i n).table + (if (bucket h.table i).length = 1 then 1 else 0) =
      filled h.table := filled_swapRemove hn
  have hlimit : hashShrinkLimit (dropEntry h i n) = hashShrinkLimit h := rfl
  unfold removeEntry
  by_cases hone : (bucket h.table i).length = 1
  · rw [if_pos hone] at hcount
    by_cases hfew : filled h.table ≤ hashShrinkLimit h
    · rw [if_pos ⟨by omega, by omega⟩]
      by_cases hmin : minSize < h.buckets
      · constructor
        · exact fun hzero => absurd hzero (drift_shrink_ne hs' ha' hmin hdrop (by omega))
        · exact fun hnot => absurd ⟨hone, hmin, hfew⟩ hnot
      · rw [rehash_shrink_of_le (h := dropEntry h i n) hmin]
        exact ⟨fun _ hall => hmin hall.2.1, fun _ => hdrop⟩
    · rw [if_neg (by omega)]
      exact ⟨fun _ hall => hfew hall.2.2, fun _ => hdrop⟩
  · rw [if_neg (by omega)]
    exact ⟨fun _ hall => hone hall.1, fun _ => hdrop⟩

theorem drift_delete_iff (hs : Shape h) (ha : Addressable h) (hd : drift h = 0) (key : Bytes) :
    drift (svzHashDelete h key).1 = 0 ↔ ¬ Shrinks h (.delete key) := by
  cases hf : findEntry h key with
  | some p =>
    obtain ⟨n, x⟩ := p
    obtain ⟨hx, hcode, heq⟩ := findEntry_some hf
    obtain ⟨hn, -⟩ := List.getElem?_eq_some_iff.mp hx
    rw [svzHashDelete_of_some hf]
    refine (drift_removeEntry_iff hs ha hd hn).trans (not_congr ?_)
    constructor
    · rintro ⟨hone, hmin, hfew⟩
      obtain ⟨y, hy⟩ := List.length_eq_one_iff.mp hone
      have hxy : x = y := List.mem_singleton.mp (hy ▸ List.mem_of_getElem? hx)
      exact ⟨⟨y, hy, by simp [entryMatches, ← hxy, hcode, heq]⟩, hmin, hfew⟩
    · rintro ⟨⟨y, hy, -⟩, hmin, hfew⟩
      exact ⟨by rw [hy]; rfl, hmin, hfew⟩
  | none =>
    rw [svzHashDelete_of_none hf]
    refine ⟨?_, fun _ => hd⟩
    rintro - ⟨⟨x, hb, hx⟩, -⟩
    rw [findEntry_of_singleton hb hx] at hf
    simp at hf

/-! ## Runs -/

theorem drift_apply_iff (hs : Shape h) (ha : Addressable h) (hd : drift h = 0) (op : Op V) :
    drift (op.apply h).1 = 0 ↔ ¬ Shrinks h op := by
  cases op with
  | put key value => exact ⟨fun _ => id, fun _ => (drift_put hs key value).trans hd⟩
  | delete key => exact drift_delete_iff hs ha hd key

theorem shape_run (hs : Shape h) (ops : List (Op V)) : Shape (run h ops) :=
  foldl_invariant (fun (h : SvzHash V) (op : Op V) => (op.apply h).1) Shape
    (fun _ op hs => shape_apply hs op) ops h hs

/-- **The counter and the true load.** Take a table created with a size of at least one and
configured with any callbacks, and a run whose tables fit into memory. The counter is the
number of non-empty buckets in every state of the run exactly if no step of the run shrinks
the table. -/
theorem fill_eq_filled_iff {size : Nat} (hsize : 1 ≤ size) (keylen : Option (Bytes → Nat))
    (code : Option (Bytes → UInt64)) (equals : Option (Bytes → Bytes → Int)) :
    ∃ created : SvzHash V, svzHashCreate size = some created ∧
      ∀ ops : List (Op V),
        let h₀ := svzHashConfigure created keylen code equals
        (∀ pre, pre <+: ops → Addressable (run h₀ pre)) →
          ((∀ pre, pre <+: ops → TrueLoad (run h₀ pre)) ↔
            ∀ pre op, pre ++ [op] <+: ops → ¬ Shrinks (run h₀ pre) op) := by
  obtain ⟨k, hk, hcreate⟩ := svzHashCreate_eq (V := V) hsize
  refine ⟨_, hcreate, ?_⟩
  intro ops h₀ hmem
  have hs₀ : Shape h₀ := shape_empty hk _
  have hload : ∀ pre, pre <+: ops → (TrueLoad (run h₀ pre) ↔ drift (run h₀ pre) = 0) :=
    fun pre hpre => trueLoad_iff (shape_run hs₀ pre) (hmem pre hpre)
  have hstart : drift h₀ = 0 := by
    change (0 : UInt64) - UInt64.ofNat (filled (List.replicate (2 ^ k) [])) = 0
    rw [filled_replicate_nil]
    rfl
  rw [forall₂_congr hload]
  unfold run
  refine forall_prefix_iff _ (fun h => drift h = 0) (fun h op => ¬ Shrinks h op) hstart ?_
  intro pre op hpre hd
  exact drift_apply_iff (shape_run hs₀ pre) (hmem pre (prefix_of_concat hpre)) hd op

/-- A run of a put and a delete in a table of the minimal size, which never shrinks. -/
theorem fill_eq_filled_put_delete :
    ∃ created : SvzHash Nat, svzHashCreate 4 = some created ∧
      ∀ pre, pre <+: [.put [97] (some 1), .delete [97]] →
        TrueLoad (run (svzHashConfigure created none none none) pre) := by
  obtain ⟨created, hcreate, h⟩ :=
    @fill_eq_filled_iff Nat 4 (by decide) none none none
  refine ⟨created, hcreate, (h _ ?_).mpr ?_⟩
  all_goals obtain rfl := Option.some.inj hcreate
  · intro pre hpre
    have hlen : pre.length ≤ 2 := hpre.length_le
    rw [List.prefix_iff_eq_take] at hpre
    generalize pre.length = n at hpre hlen
    subst hpre
    revert n
    unfold Addressable
    decide
  · refine forall_steps ?_
    rintro (_ | _ | n) op hop
    all_goals cases hop
    · exact id
    · rintro ⟨-, hmin, -⟩
      exact absurd hmin (by decide)

/-- One key put into a table of eight buckets and deleted again leaves four empty buckets
and a counter that went below zero. -/
theorem not_trueLoad_after_shrink :
    ∃ created : SvzHash Nat, svzHashCreate 8 = some created ∧
      let h := run created [.put [97] (some 1), .delete [97]]
      ¬ TrueLoad h ∧ h.buckets = 4 ∧ filled h.table = 0 ∧ h.fill.toNat = 2 ^ 64 - 4 := by
  refine ⟨_, rfl, ?_, by decide, by decide +kernel, by decide +kernel⟩
  intro h
  exact absurd h.fill (by decide +kernel)

end Serveez.Hash
