import Serveez.Hash.Table
import Mathlib.Data.Nat.Bits

/-!
# What `rehash` keeps and what it changes

Both branches of `rehash` move entries one at a time. `Relocated h₀ h` collects what
every move keeps: the number of buckets, the callbacks and, up to order, the entries of
the table. The counter `fill` is compared with the number of non-empty buckets by
`drift`, the difference of the two as machine words.

* `expand_spec`: expanding keeps the entries and the drift, and puts every entry into the
  bucket its code selects among twice as many buckets.
* `shrink_spec`: shrinking keeps the entries and puts every entry into the bucket its code
  selects among half as many buckets; the drift goes down by the number of buckets of the
  upper half that were empty before.
-/

namespace Serveez.Hash

open Lib

variable {V : Type}

/-- The slot of an entry among `B` buckets. -/
def slot (B : Nat) (x : SvzHashEntry V) : Nat := hashBucket x.code B

/-- By how much `fill` exceeds the number of non-empty buckets, as a machine word. -/
def drift (h : SvzHash V) : UInt64 := h.fill - UInt64.ofNat (filled h.table)

/-! ## Slots -/

theorem hashBucket_two_pow (code : UInt64) (k : Nat) :
    hashBucket code (2 ^ k) = code.toNat % 2 ^ k := by
  unfold hashBucket
  exact Nat.and_two_pow_sub_one_eq_mod _ _

theorem slot_two_pow (x : SvzHashEntry V) (k : Nat) : slot (2 ^ k) x = x.code.toNat % 2 ^ k :=
  hashBucket_two_pow x.code k

theorem slot_lt (x : SvzHashEntry V) (k : Nat) : slot (2 ^ k) x < 2 ^ k := by
  rw [slot_two_pow]
  exact Nat.mod_lt _ (Nat.two_pow_pos k)

/-- One more bit of the code either keeps the slot or moves it into the upper half. -/
theorem slot_succ (x : SvzHashEntry V) (k : Nat) :
    slot (2 ^ (k + 1)) x = slot (2 ^ k) x ∨ slot (2 ^ (k + 1)) x = slot (2 ^ k) x + 2 ^ k := by
  rw [slot_two_pow, slot_two_pow, Nat.pow_succ, Nat.mod_mul]
  rcases Nat.mod_two_eq_zero_or_one (x.code.toNat / 2 ^ k) with h | h <;> rw [h]
  · exact Or.inl (by simp)
  · exact Or.inr (by simp)

theorem slot_of_slot_succ {x : SvzHashEntry V} {k i : Nat} (h : slot (2 ^ (k + 1)) x = i)
    (hi : i < 2 ^ k) : slot (2 ^ k) x = i := by
  rcases slot_succ x k with hs | hs <;> omega

/-! ## Moving entries -/

/-- `h` has the entries of `h₀` and differs from it in their places at most. -/
structure Relocated (h₀ h : SvzHash V) : Prop where
  buckets : h.buckets = h₀.buckets
  keys : h.keys = h₀.keys
  callbacks : h.callbacks = h₀.callbacks
  length : h.table.length = h₀.table.length
  perm : h.table.flatten.Perm h₀.table.flatten
  drift : drift h = drift h₀

theorem Relocated.refl (h : SvzHash V) : Relocated h h :=
  ⟨rfl, rfl, rfl, rfl, List.Perm.refl _, rfl⟩

theorem Relocated.trans {h₀ h₁ h₂ : SvzHash V} (a : Relocated h₀ h₁) (b : Relocated h₁ h₂) :
    Relocated h₀ h₂ :=
  ⟨b.buckets.trans a.buckets, b.keys.trans a.keys, b.callbacks.trans a.callbacks,
    b.length.trans a.length, b.perm.trans a.perm, b.drift.trans a.drift⟩

variable {h : SvzHash V} {k : Nat}

theorem drift_pushEntry {i : Nat} (hi : i < h.table.length) (x : SvzHashEntry V) :
    drift (pushEntry h i x) = drift h := by
  unfold drift pushEntry
  dsimp only
  rw [filled_push hi]
  cases hb : bucket h.table i with
  | nil =>
    simp only [List.length_nil, Nat.zero_add, if_true, List.isEmpty_nil, UInt64.ofNat_add]
    grind
  | cons y ys => simp

theorem drift_dropEntry {n e : Nat} (he : e < (bucket h.table n).length) :
    drift (dropEntry h n e) = drift h := by
  unfold drift dropEntry
  dsimp only
  have hf := filled_swapRemove he
  by_cases h1 : (bucket h.table n).length = 1
  · rw [if_pos h1] at hf
    rw [← hf, if_pos (by omega), UInt64.ofNat_add]
    grind
  · rw [if_neg h1, Nat.add_zero] at hf
    rw [hf, if_neg (by omega)]

theorem bucket_pushEntry {i j : Nat} (hi : i < h.table.length) (x : SvzHashEntry V) :
    bucket (pushEntry h i x).table j =
      if i = j then bucket h.table i ++ [x] else bucket h.table j :=
  bucket_set hi

theorem length_pushEntry (h : SvzHash V) (i : Nat) (x : SvzHashEntry V) :
    (pushEntry h i x).table.length = h.table.length := by
  simp [pushEntry]

theorem bucket_move {n e far j : Nat} (hfar : far < h.table.length) (hn : n < h.table.length)
    (hne : n ≠ far) (x : SvzHashEntry V) :
    bucket (dropEntry (pushEntry h far x) n e).table j =
      if n = j then swapRemove (bucket h.table n) e
      else if far = j then bucket h.table far ++ [x] else bucket h.table j := by
  have hkeep : bucket (pushEntry h far x).table n = bucket h.table n := by
    rw [bucket_pushEntry hfar, if_neg (Ne.symm hne)]
  unfold dropEntry
  dsimp only
  rw [bucket_set (by rwa [length_pushEntry]), hkeep, bucket_pushEntry hfar]

theorem relocated_move {n e far : Nat} {x : SvzHashEntry V} (hx : (bucket h.table n)[e]? = some x)
    (hfar : far < h.table.length) (hne : n ≠ far) :
    Relocated h (dropEntry (pushEntry h far x) n e) := by
  have hkeep : bucket (pushEntry h far x).table n = bucket h.table n := by
    rw [bucket_pushEntry hfar, if_neg (Ne.symm hne)]
  have hx' : (bucket (pushEntry h far x).table n)[e]? = some x := by rw [hkeep]; exact hx
  have hpush : (pushEntry h far x).table.flatten.Perm (x :: h.table.flatten) :=
    flatten_push_perm hfar x
  have hdrop : (x :: (dropEntry (pushEntry h far x) n e).table.flatten).Perm
      (pushEntry h far x).table.flatten := flatten_swapRemove_perm hx'
  refine ⟨rfl, rfl, rfl, ?_, ?_, ?_⟩
  · simp [dropEntry, length_pushEntry]
  · exact (List.perm_cons x).mp (hdrop.trans hpush)
  · obtain ⟨he, -⟩ := List.getElem?_eq_some_iff.mp hx'
    rw [drift_dropEntry he, drift_pushEntry hfar]

/-! ## Expanding -/

/-- The placement while the table of `2 ^ k` buckets expands and the buckets below `n`
have been visited: the others of the lower half are placed for the old size. -/
def HalfPlaced (k n : Nat) (t : List (List (SvzHashEntry V))) : Prop :=
  ∀ i, ∀ x ∈ bucket t i, slot (if n ≤ i ∧ i < 2 ^ k then 2 ^ k else 2 ^ (k + 1)) x = i

theorem halfPlaced_visited {k n : Nat} {t : List (List (SvzHashEntry V))}
    (ht : HalfPlaced k n t) (hn : ∀ x ∈ bucket t n, slot (2 ^ (k + 1)) x = n) :
    HalfPlaced k (n + 1) t := by
  intro i x hx
  by_cases hi : i = n
  · subst hi
    rw [if_neg (by omega)]
    exact hn x hx
  · have h := ht i x hx
    by_cases hlow : n ≤ i ∧ i < 2 ^ k
    · rw [if_pos hlow] at h
      rw [if_pos (by omega)]
      exact h
    · rw [if_neg hlow] at h
      rw [if_neg (by omega)]
      exact h

theorem halfPlaced_move {k n e far : Nat} {x : SvzHashEntry V} (hfar : far < h.table.length)
    (hn : n < h.table.length) (hne : n ≠ far) (hslot : slot (2 ^ (k + 1)) x = far)
    (hup : 2 ^ k ≤ far) (ht : HalfPlaced k n h.table) :
    HalfPlaced k n (dropEntry (pushEntry h far x) n e).table := by
  intro i y hy
  rw [bucket_move hfar hn hne] at hy
  split at hy
  · next hni => exact ht i y (hni ▸ swapRemove_subset _ _ hy)
  · split at hy
    · next hfi =>
      subst hfi
      rcases List.mem_append.mp hy with hy | hy
      · exact ht far y hy
      · rw [List.mem_singleton.mp hy, if_neg (by omega)]
        exact hslot
    · exact ht i y hy

/-- The loop over the entries of bucket `n`. The entries before `e` are the ones that
stay; the fuel is the number of entries from `e` on. -/
theorem expandBucket_spec {k n : Nat} (hn : n < 2 ^ k) :
    ∀ (fuel e : Nat) (h : SvzHash V), h.buckets = 2 ^ (k + 1) →
      h.table.length = 2 ^ (k + 1) → (bucket h.table n).length = e + fuel →
      HalfPlaced k n h.table →
      (∀ i < e, ∀ x, (bucket h.table n)[i]? = some x → slot (2 ^ (k + 1)) x = n) →
      Relocated h (expandBucket n fuel e h) ∧
        HalfPlaced k (n + 1) (expandBucket n fuel e h).table := by
  intro fuel
  induction fuel with
  | zero =>
    intro e h _ _ hlen ht hstay
    rw [expandBucket]
    refine ⟨Relocated.refl h, halfPlaced_visited ht ?_⟩
    intro x hx
    obtain ⟨i, hi⟩ := List.mem_iff_getElem?.mp hx
    obtain ⟨hlt, -⟩ := List.getElem?_eq_some_iff.mp hi
    exact hstay i (by omega) x hi
  | succ fuel ih =>
    intro e h hB hsize hlen ht hstay
    have he : e < (bucket h.table n).length := by omega
    have hx : (bucket h.table n)[e]? = some (bucket h.table n)[e] := List.getElem?_eq_getElem he
    generalize (bucket h.table n)[e] = x at hx
    have hold : slot (2 ^ k) x = n := by
      have := ht n x (List.mem_of_getElem? hx)
      rwa [if_pos ⟨Nat.le_refl n, hn⟩] at this
    have hpow : 2 ^ (k + 1) = 2 * 2 ^ k := by rw [Nat.pow_succ]; omega
    unfold expandBucket
    simp only [hx, hB]
    by_cases hmove : n ≠ hashBucket x.code (2 ^ (k + 1))
    · rw [if_pos hmove]
      set far := hashBucket x.code (2 ^ (k + 1)) with hfardef
      have hslot : slot (2 ^ (k + 1)) x = far := rfl
      have hup : far = n + 2 ^ k := by
        rcases slot_succ x k with hs | hs
        · exact absurd (hold ▸ hs).symm hmove
        · rw [← hslot, hs, hold]
      have hfar : far < h.table.length := by omega
      have hnlt : n < h.table.length := by omega
      have hrel := relocated_move hx hfar hmove
      obtain ⟨hR, hP⟩ := ih e (dropEntry (pushEntry h far x) n e) hB
        (hrel.length.trans hsize) (by rw [bucket_move hfar hnlt hmove]; simp; omega)
        (halfPlaced_move hfar hnlt hmove hslot (by omega) ht) (by
          intro i hi y hy
          rw [bucket_move hfar hnlt hmove, if_pos rfl, getElem?_swapRemove_of_lt hi he] at hy
          exact hstay i hi y hy)
      exact ⟨hrel.trans hR, hP⟩
    · rw [if_neg hmove]
      refine ih (e + 1) h hB hsize (by omega) ht ?_
      intro i hi y hy
      by_cases hie : i = e
      · subst hie
        rw [hx] at hy
        cases hy
        exact (not_not.mp hmove).symm
      · exact hstay i (by omega) y hy

theorem halfPlaced_start {t : List (List (SvzHashEntry V))} (hlen : t.length = 2 ^ k)
    (ht : Placed (slot (2 ^ k)) t) : HalfPlaced k 0 (t ++ List.replicate (2 ^ k) []) := by
  intro i x hx
  rw [bucket_append_replicate_nil] at hx
  have hi : i < 2 ^ k := by
    by_contra hle
    rw [bucket_of_le (by omega)] at hx
    simp at hx
  rw [if_pos ⟨Nat.zero_le i, hi⟩]
  exact ht i x hx

theorem expandBuckets_spec {h₀ : SvzHash V} (hB : h₀.buckets = 2 ^ (k + 1))
    (hsize : h₀.table.length = 2 ^ (k + 1)) (ht : HalfPlaced k 0 h₀.table) :
    ∀ n ≤ 2 ^ k,
      Relocated h₀ ((List.range n).foldl
        (fun hash n => expandBucket n (bucket hash.table n).length 0 hash) h₀) ∧
      HalfPlaced k n ((List.range n).foldl
        (fun hash n => expandBucket n (bucket hash.table n).length 0 hash) h₀).table := by
  intro n
  induction n with
  | zero => exact fun _ => ⟨Relocated.refl h₀, ht⟩
  | succ n ih =>
    intro hn
    obtain ⟨hR, hP⟩ := ih (by omega)
    rw [List.range_succ, List.foldl_append, List.foldl_cons, List.foldl_nil]
    obtain ⟨hR', hP'⟩ := expandBucket_spec (by omega) _ 0 _ (hR.buckets.trans hB)
      (hR.length.trans hsize) (Nat.zero_add _).symm hP (by omega)
    exact ⟨hR.trans hR', hP'⟩

theorem drift_expandTable (h : SvzHash V) : drift (expandTable h) = drift h := by
  simp [drift, expandTable, filled_append, filled_replicate_nil]

/-- Expanding keeps the entries and the drift and places every entry among twice as many
buckets. -/
theorem expand_spec (hB : h.buckets = 2 ^ k) (hsize : h.table.length = 2 ^ k)
    (ht : Placed (slot (2 ^ k)) h.table) :
    (rehash h .expand).buckets = 2 ^ (k + 1) ∧ (rehash h .expand).table.length = 2 ^ (k + 1) ∧
      (rehash h .expand).keys = h.keys ∧ (rehash h .expand).callbacks = h.callbacks ∧
      Placed (slot (2 ^ (k + 1))) (rehash h .expand).table ∧
      (rehash h .expand).table.flatten.Perm h.table.flatten ∧
      drift (rehash h .expand) = drift h := by
  have hpow : 2 ^ (k + 1) = 2 * 2 ^ k := by rw [Nat.pow_succ]; omega
  have hB' : (expandTable h).buckets = 2 ^ (k + 1) := by
    simp [expandTable, hB, Nat.shiftLeft_eq, Nat.pow_succ]
  have hhalf : (expandTable h).buckets >>> 1 = 2 ^ k := by
    rw [hB', Nat.shiftRight_eq_div_pow]
    omega
  have hsize' : (expandTable h).table.length = 2 ^ (k + 1) := by
    simp [expandTable, hsize, hB]
    omega
  have hstart : HalfPlaced k 0 (expandTable h).table := by
    unfold expandTable
    dsimp only
    rw [hB]
    exact halfPlaced_start hsize ht
  have hflat : (expandTable h).table.flatten = h.table.flatten := by
    simp [expandTable]
  have hall := expandBuckets_spec hB' hsize' hstart (2 ^ k) (Nat.le_refl _)
  rw [← hhalf] at hall
  obtain ⟨hR, hP⟩ := hall
  refine ⟨hR.buckets.trans hB', hR.length.trans hsize', hR.keys, hR.callbacks, ?_,
    hflat ▸ hR.perm, hR.drift.trans (drift_expandTable h)⟩
  intro i x hx
  have := hP i x hx
  rwa [if_neg (by omega)] at this

/-! ## Shrinking -/

theorem pushAll_spec :
    ∀ (b : List (SvzHashEntry V)) (h : SvzHash V), h.buckets = 2 ^ k → 2 ^ k ≤ h.table.length →
      let h' := b.foldl (fun hash x => pushEntry hash (hashBucket x.code hash.buckets) x) h
      h'.buckets = h.buckets ∧ h'.keys = h.keys ∧ h'.callbacks = h.callbacks ∧
        h'.table.length = h.table.length ∧ h'.table.flatten.Perm (b ++ h.table.flatten) ∧
        drift h' = drift h ∧ (∀ i, 2 ^ k ≤ i → bucket h'.table i = bucket h.table i) ∧
        ((∀ i < 2 ^ k, ∀ x ∈ bucket h.table i, slot (2 ^ k) x = i) →
          ∀ i < 2 ^ k, ∀ x ∈ bucket h'.table i, slot (2 ^ k) x = i) := by
  intro b
  induction b with
  | nil => exact fun h _ _ => ⟨rfl, rfl, rfl, rfl, List.Perm.refl _, rfl, fun _ _ => rfl, id⟩
  | cons x b ih =>
    intro h hB hsize
    dsimp only
    rw [List.foldl_cons, hB]
    have hlt : hashBucket x.code (2 ^ k) < 2 ^ k := slot_lt x k
    have hi : hashBucket x.code (2 ^ k) < h.table.length := by omega
    obtain ⟨h1, h2, h3, h4, h5, h6, h7, h8⟩ :=
      ih (pushEntry h (hashBucket x.code (2 ^ k)) x) hB (by rwa [length_pushEntry])
    refine ⟨h1.trans hB, h2, h3, h4.trans (length_pushEntry h _ x), ?_,
      h6.trans (drift_pushEntry hi x), ?_, ?_⟩
    · exact h5.trans (((flatten_push_perm hi x).append_left b).trans List.perm_middle)
    · intro i hle
      rw [h7 i hle, bucket_pushEntry hi, if_neg (by omega)]
    · intro hplaced
      refine h8 ?_
      intro i hlt' y hy
      rw [bucket_pushEntry hi] at hy
      split at hy
      · next heq =>
        rcases List.mem_append.mp hy with hy | hy
        · exact hplaced i hlt' y (heq ▸ hy)
        · rw [List.mem_singleton.mp hy]
          exact heq
      · exact hplaced i hlt' y hy

/-- The number of empty buckets among the `m` buckets from `B` on. -/
def emptyFrom (t : List (List (SvzHashEntry V))) (B m : Nat) : Nat :=
  (List.range' B m).countP (fun n => (bucket t n).isEmpty)

theorem emptyFrom_succ (t : List (List (SvzHashEntry V))) (B m : Nat) :
    emptyFrom t B (m + 1) = emptyFrom t B m + (if (bucket t (B + m)).isEmpty then 1 else 0) := by
  unfold emptyFrom
  rw [List.range'_concat, List.countP_append, List.countP_singleton, Nat.one_mul]

/-- One upper bucket is emptied into the lower half. -/
structure Emptied (k n : Nat) (h h' : SvzHash V) : Prop where
  buckets : h'.buckets = h.buckets
  keys : h'.keys = h.keys
  callbacks : h'.callbacks = h.callbacks
  length : h'.table.length = h.table.length
  perm : h'.table.flatten.Perm h.table.flatten
  drift : drift h' = drift h - (if (bucket h.table n).isEmpty then 1 else 0)
  upper : ∀ i, 2 ^ k ≤ i → bucket h'.table i = if n = i then [] else bucket h.table i
  lower : (∀ i < 2 ^ k, ∀ x ∈ bucket h.table i, slot (2 ^ k) x = i) →
    ∀ i < 2 ^ k, ∀ x ∈ bucket h'.table i, slot (2 ^ k) x = i

theorem drift_clear {n : Nat} (hn : n < h.table.length) :
    drift { h with table := h.table.set n [], fill := h.fill - 1 } =
      drift h - (if (bucket h.table n).isEmpty then 1 else 0) := by
  have hf := filled_set hn ([] : List (SvzHashEntry V))
  unfold drift
  dsimp only
  cases hb : (bucket h.table n).isEmpty with
  | true =>
    rw [hb] at hf
    simp only [List.isEmpty_nil, if_true, Nat.add_zero] at hf ⊢
    rw [hf]
    grind
  | false =>
    rw [hb] at hf
    simp only [Bool.false_eq_true, if_false, List.isEmpty_nil, if_true, Nat.add_zero] at hf ⊢
    rw [← hf, UInt64.ofNat_add]
    grind

theorem shrinkBucket_spec {k n : Nat} (hB : h.buckets = 2 ^ k) (hk : 2 ^ k ≤ n)
    (hn : n < h.table.length) : Emptied k n h (shrinkBucket h n) := by
  obtain ⟨h1, h2, h3, h4, h5, h6, h7, h8⟩ := pushAll_spec (bucket h.table n) h hB (by omega)
  unfold shrinkBucket
  set h' := (bucket h.table n).foldl
    (fun hash x => pushEntry hash (hashBucket x.code hash.buckets) x) h
  have hn' : n < h'.table.length := by omega
  have hbn : bucket h'.table n = bucket h.table n := h7 n hk
  refine ⟨h1, h2, h3, by simp [h4], ?_, ?_, ?_, ?_⟩
  · have hset := flatten_set_perm hn' ([] : List (SvzHashEntry V))
    rw [hbn, List.nil_append] at hset
    exact (List.perm_append_left_iff _).mp (hset.trans h5)
  · rw [drift_clear hn', hbn, h6]
  · intro i hi
    dsimp only
    rw [bucket_set hn', h7 i hi]
  · intro hplaced i hi x hx
    dsimp only at hx
    rw [bucket_set hn', if_neg (by omega)] at hx
    exact h8 hplaced i hi x hx

/-- The loop over the upper half. -/
theorem shrinkBuckets_spec {h₀ : SvzHash V} (hB : h₀.buckets = 2 ^ k)
    (hsize : h₀.table.length = 2 ^ (k + 1))
    (hlow : ∀ i < 2 ^ k, ∀ x ∈ bucket h₀.table i, slot (2 ^ k) x = i) :
    ∀ m ≤ 2 ^ k,
      let h := (List.range' (2 ^ k) m).foldl shrinkBucket h₀
      h.buckets = h₀.buckets ∧ h.keys = h₀.keys ∧ h.callbacks = h₀.callbacks ∧
        h.table.length = h₀.table.length ∧ h.table.flatten.Perm h₀.table.flatten ∧
        drift h = drift h₀ - UInt64.ofNat (emptyFrom h₀.table (2 ^ k) m) ∧
        (∀ i, 2 ^ k ≤ i → bucket h.table i = if i < 2 ^ k + m then [] else bucket h₀.table i) ∧
        ∀ i < 2 ^ k, ∀ x ∈ bucket h.table i, slot (2 ^ k) x = i := by
  have hpow : 2 ^ (k + 1) = 2 * 2 ^ k := by rw [Nat.pow_succ]; omega
  intro m
  induction m with
  | zero =>
    intro _
    refine ⟨rfl, rfl, rfl, rfl, List.Perm.refl _, by simp [emptyFrom], ?_, hlow⟩
    intro i hi
    rw [if_neg (by omega)]
    rfl
  | succ m ih =>
    intro hm
    obtain ⟨h1, h2, h3, h4, h5, h6, h7, h8⟩ := ih (by omega)
    dsimp only
    rw [List.range'_concat, List.foldl_append, List.foldl_cons, List.foldl_nil, Nat.one_mul]
    set h := (List.range' (2 ^ k) m).foldl shrinkBucket h₀
    have E := shrinkBucket_spec (n := 2 ^ k + m) (h1.trans hB) (by omega) (by omega)
    have hvisit : bucket h.table (2 ^ k + m) = bucket h₀.table (2 ^ k + m) := by
      rw [h7 _ (by omega), if_neg (by omega)]
    refine ⟨E.buckets.trans h1, E.keys.trans h2, E.callbacks.trans h3, E.length.trans h4,
      E.perm.trans h5, ?_, ?_, E.lower h8⟩
    · rw [E.drift, hvisit, h6, emptyFrom_succ, UInt64.ofNat_add]
      cases (bucket h₀.table (2 ^ k + m)).isEmpty with
      | true => simp only [if_true]; grind
      | false => simp
    · intro i hi
      rw [E.upper i hi, h7 i hi]
      by_cases hin : 2 ^ k + m = i
      · rw [if_pos hin, if_pos (by omega)]
      · rw [if_neg hin]
        by_cases hlt : i < 2 ^ k + m
        · rw [if_pos hlt, if_pos (by omega)]
        · rw [if_neg hlt, if_neg (by omega)]

/-- Shrinking a table of more than the minimal size keeps the entries and places every
entry among half as many buckets. The counter loses one for every upper bucket, also for
the empty ones it had not counted. -/
theorem shrink_spec (hB : h.buckets = 2 ^ (k + 1)) (hmin : minSize < h.buckets)
    (hsize : h.table.length = 2 ^ (k + 1)) (ht : Placed (slot (2 ^ (k + 1))) h.table) :
    (rehash h .shrink).buckets = 2 ^ k ∧ (rehash h .shrink).table.length = 2 ^ k ∧
      (rehash h .shrink).keys = h.keys ∧ (rehash h .shrink).callbacks = h.callbacks ∧
      Placed (slot (2 ^ k)) (rehash h .shrink).table ∧
      (rehash h .shrink).table.flatten.Perm h.table.flatten ∧
      drift (rehash h .shrink) =
        drift h - UInt64.ofNat (emptyFrom h.table (2 ^ k) (2 ^ k)) := by
  have hpow : 2 ^ (k + 1) = 2 * 2 ^ k := by rw [Nat.pow_succ]; omega
  have hhalf : h.buckets >>> 1 = 2 ^ k := by
    rw [hB, Nat.shiftRight_eq_div_pow]
    omega
  unfold rehash
  simp only [if_pos hmin, hhalf]
  obtain ⟨h1, h2, h3, h4, h5, h6, h7, h8⟩ :=
    @shrinkBuckets_spec _ k { h with buckets := 2 ^ k } rfl hsize
      (fun i hi x hx => slot_of_slot_succ (ht i x hx) hi) (2 ^ k) (Nat.le_refl _)
  dsimp only at h1 h2 h3 h4 h5 h6 h7 h8
  set h' := (List.range' (2 ^ k) (2 ^ k)).foldl shrinkBucket { h with buckets := 2 ^ k }
  have hempty : ∀ i, 2 ^ k ≤ i → bucket h'.table i = [] := by
    intro i hi
    rw [h7 i hi]
    split
    · rfl
    · exact bucket_of_le (by omega)
  rw [h1]
  refine ⟨rfl, by simp; omega, h2, h3, ?_, ?_, ?_⟩
  · intro i x hx
    rw [bucket_take] at hx
    split at hx
    · next hi => exact h8 i hi x hx
    · simp at hx
  · exact (flatten_take_of_empty hempty).symm ▸ h5
  · have hd : drift h' = drift h - UInt64.ofNat (emptyFrom h.table (2 ^ k) (2 ^ k)) := h6
    rw [← hd]
    simp only [drift, filled_take_of_empty hempty]

end Serveez.Hash
