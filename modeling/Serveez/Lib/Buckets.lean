import Mathlib.Data.List.Perm.Basic

/-!
# Tables of buckets

A bucket table is a list of buckets, a bucket a list of entries. The two updates of
one bucket that occur in chained hash tables are appending an entry and removing an
entry by moving the last one into its place. Both are instances of replacing one
bucket, so the facts below are stated for `List.set` first:

* `flatten_set_perm`: what the replacement does to the multiset of all entries;
* `filled_set`: what it does to the number of non-empty buckets;
* `placed_set`: when it keeps every entry in the bucket its slot names.
-/

namespace Serveez.Lib

variable {α : Type*}

/-! ## Removal by moving the last entry -/

/-- Overwrite position `e` by the last entry and drop the last position. -/
def swapRemove (b : List α) (e : Nat) : List α :=
  match b.getLast? with
  | none => []
  | some last => (b.set e last).dropLast

theorem swapRemove_append_singleton (init : List α) (last : α) (e : Nat) :
    swapRemove (init ++ [last]) e = ((init ++ [last]).set e last).dropLast := by
  simp [swapRemove]

@[simp] theorem length_swapRemove (b : List α) (e : Nat) :
    (swapRemove b e).length = b.length - 1 := by
  unfold swapRemove
  cases h : b.getLast? with
  | none => simp [List.getLast?_eq_none_iff.mp h]
  | some last => simp

variable {t : List (List α)} {i : Nat} {b : List α}

theorem swapRemove_perm {e : Nat} (he : e < b.length) :
    (b[e] :: swapRemove b e).Perm b := by
  rcases List.eq_nil_or_concat b with rfl | ⟨init, last, rfl⟩
  · simp at he
  · simp only [List.concat_eq_append] at he ⊢
    rw [swapRemove_append_singleton]
    by_cases hlt : e < init.length
    · rw [List.set_append_left _ _ hlt, List.dropLast_concat, List.getElem_append_left hlt]
      calc (init[e] :: init.set e last).Perm (init[e] :: last :: init.eraseIdx e) :=
            (List.set_perm_cons_eraseIdx hlt last).cons _
        _ |>.Perm (last :: init[e] :: init.eraseIdx e) := List.Perm.swap _ _ _
        _ |>.Perm (last :: init) := (List.getElem_cons_eraseIdx_perm hlt).cons _
        _ |>.Perm (init ++ [last]) := (List.perm_append_singleton last init).symm
    · have heq : e = init.length := by simp at he; omega
      subst heq
      simp only [List.getElem_concat_length, List.set_append_right _ _ (Nat.le_refl _),
        Nat.sub_self, List.set_cons_zero, List.dropLast_concat]
      exact (List.perm_append_singleton last init).symm

theorem swapRemove_subset (b : List α) (e : Nat) : swapRemove b e ⊆ b := by
  unfold swapRemove
  split
  · exact List.nil_subset b
  · next last hlast =>
    intro x hx
    rcases List.mem_or_eq_of_mem_set (List.dropLast_subset _ hx) with hx | rfl
    · exact hx
    · exact List.mem_of_getLast? hlast

theorem swapRemove_map {β : Type*} (f : α → β) (b : List α) (e : Nat) :
    swapRemove (b.map f) e = (swapRemove b e).map f := by
  unfold swapRemove
  rw [List.getLast?_map]
  cases b.getLast? with
  | none => rfl
  | some last => simp only [Option.map_some, List.map_dropLast, List.map_set]

theorem nodup_swapRemove {e : Nat} (he : e < b.length) (h : b.Nodup) :
    (swapRemove b e).Nodup :=
  (List.nodup_cons.mp ((swapRemove_perm he).nodup_iff.mpr h)).2

/-- Without duplicates only the removed entry is missing. -/
theorem mem_swapRemove_iff {e : Nat} {x : α} (he : e < b.length) (h : b.Nodup) :
    x ∈ swapRemove b e ↔ x ∈ b ∧ x ≠ b[e] := by
  have hperm := swapRemove_perm he
  have hnot := (List.nodup_cons.mp (hperm.nodup_iff.mpr h)).1
  rw [← hperm.mem_iff, List.mem_cons]
  constructor
  · exact fun hx => ⟨Or.inr hx, fun hsame => hnot (hsame ▸ hx)⟩
  · rintro ⟨hx | hx, hne⟩
    · exact absurd hx hne
    · exact hx

/-- Positions before the removed one keep their entry. -/
theorem getElem?_swapRemove_of_lt {e i : Nat} (hi : i < e) (he : e < b.length) :
    (swapRemove b e)[i]? = b[i]? := by
  rcases List.eq_nil_or_concat b with rfl | ⟨init, last, rfl⟩
  · simp at he
  · simp only [List.concat_eq_append] at he ⊢
    have hinit : i < init.length := by simp at he; omega
    rw [swapRemove_append_singleton, List.getElem?_dropLast, if_pos (by simpa using hinit),
      List.getElem?_set_ne (by omega)]

/-! ## One bucket of a table -/

/-- The bucket at index `i`; past the end of the table it is empty. -/
def bucket (t : List (List α)) (i : Nat) : List α := t.getD i []

/-- The number of non-empty buckets. -/
def filled (t : List (List α)) : Nat := t.countP (fun b => !b.isEmpty)

/-- Every entry is in the bucket that its slot names. -/
def Placed (slot : α → Nat) (t : List (List α)) : Prop :=
  ∀ i, ∀ x ∈ bucket t i, slot x = i

theorem bucket_eq_getElem (hi : i < t.length) :
    bucket t i = t[i] := by
  simp [bucket, List.getD_eq_getElem?_getD, hi]

theorem bucket_of_le (hi : t.length ≤ i) : bucket t i = [] := by
  simp [bucket, List.getD_eq_getElem?_getD, hi]

theorem bucket_set {i j : Nat} (hi : i < t.length) :
    bucket (t.set i b) j = if i = j then b else bucket t j := by
  simp only [bucket, List.getD_eq_getElem?_getD, List.getElem?_set]
  by_cases hij : i = j
  · subst hij
    simp [hi]
  · simp [hij]

theorem bucket_append_replicate_nil (t : List (List α)) (m i : Nat) :
    bucket (t ++ List.replicate m []) i = bucket t i := by
  simp only [bucket, List.getD_eq_getElem?_getD, List.getElem?_append, List.getElem?_replicate]
  split
  · rfl
  · next hle =>
    rw [List.getElem?_eq_none (Nat.le_of_not_gt hle)]
    split <;> rfl

theorem bucket_take (t : List (List α)) (m i : Nat) :
    bucket (t.take m) i = if i < m then bucket t i else [] := by
  simp only [bucket, List.getD_eq_getElem?_getD, List.getElem?_take]
  split <;> rfl

theorem mem_flatten_iff_bucket {x : α} :
    x ∈ t.flatten ↔ ∃ i, x ∈ bucket t i := by
  constructor
  · intro hx
    obtain ⟨b, hb, hxb⟩ := List.mem_flatten.mp hx
    obtain ⟨i, hi, rfl⟩ := List.mem_iff_getElem.mp hb
    exact ⟨i, by rwa [bucket_eq_getElem hi]⟩
  · rintro ⟨i, hx⟩
    by_cases hi : i < t.length
    · rw [bucket_eq_getElem hi] at hx
      exact List.mem_flatten.mpr ⟨t[i], List.getElem_mem hi, hx⟩
    · rw [bucket_of_le (Nat.le_of_not_gt hi)] at hx
      simp at hx

theorem drop_eq_nil_of_bucket {m : Nat} (h : ∀ i, m ≤ i → bucket t i = []) :
    ∀ b ∈ t.drop m, b = [] := by
  intro b hb
  obtain ⟨i, hi, rfl⟩ := List.mem_iff_getElem.mp hb
  have hlt : m + i < t.length := by
    rw [List.length_drop] at hi
    omega
  rw [List.getElem_drop, ← bucket_eq_getElem hlt]
  exact h (m + i) (Nat.le_add_right m i)

/-- Cutting off empty buckets loses no entry. -/
theorem flatten_take_of_empty {m : Nat} (h : ∀ i, m ≤ i → bucket t i = []) :
    (t.take m).flatten = t.flatten := by
  have hdrop : (t.drop m).flatten = [] :=
    List.flatten_eq_nil_iff.mpr (drop_eq_nil_of_bucket h)
  conv_rhs => rw [← List.take_append_drop m t, List.flatten_append, hdrop, List.append_nil]

theorem filled_take_of_empty {m : Nat} (h : ∀ i, m ≤ i → bucket t i = []) :
    filled (t.take m) = filled t := by
  have hdrop : filled (t.drop m) = 0 := by
    refine List.countP_eq_zero.mpr ?_
    intro b hb
    simp [drop_eq_nil_of_bucket h b hb]
  conv_rhs => rw [← List.take_append_drop m t, filled, List.countP_append]
  change filled (t.take m) = filled (t.take m) + filled (t.drop m)
  rw [hdrop, Nat.add_zero]

/-! ## Replacing one bucket -/

theorem flatten_set_perm (hi : i < t.length) (b : List α) :
    (bucket t i ++ (t.set i b).flatten).Perm (b ++ t.flatten) := by
  have hnew : (t.set i b).flatten.Perm (b ++ (t.eraseIdx i).flatten) := by
    simpa using (List.set_perm_cons_eraseIdx hi b).flatten
  have hold : (bucket t i ++ (t.eraseIdx i).flatten).Perm t.flatten := by
    rw [bucket_eq_getElem hi]
    simpa using (List.getElem_cons_eraseIdx_perm hi).flatten
  calc (bucket t i ++ (t.set i b).flatten).Perm (bucket t i ++ (b ++ (t.eraseIdx i).flatten)) :=
        hnew.append_left _
    _ |>.Perm (b ++ (bucket t i ++ (t.eraseIdx i).flatten)) := List.perm_append_comm_assoc _ _ _
    _ |>.Perm (b ++ t.flatten) := hold.append_left _

theorem filled_set (hi : i < t.length) (b : List α) :
    filled (t.set i b) + (if (bucket t i).isEmpty then 0 else 1) =
      filled t + (if b.isEmpty then 0 else 1) := by
  have hpos : (bucket t i).isEmpty = false → 0 < filled t := by
    intro hne
    refine List.countP_pos_iff.mpr ⟨t[i], List.getElem_mem hi, ?_⟩
    rw [← bucket_eq_getElem hi, hne]
    rfl
  unfold filled at hpos ⊢
  rw [List.countP_set hi, ← bucket_eq_getElem hi]
  cases hold : (bucket t i).isEmpty with
  | true => cases b.isEmpty <;> simp
  | false =>
    have := hpos hold
    cases b.isEmpty <;> simp <;> omega

theorem filled_le_length (t : List (List α)) : filled t ≤ t.length := List.countP_le_length

theorem filled_replicate_nil (n : Nat) : filled (List.replicate n ([] : List α)) = 0 := by
  simp [filled]

theorem filled_append (t t' : List (List α)) : filled (t ++ t') = filled t + filled t' :=
  List.countP_append

theorem placed_set {slot : α → Nat} (hi : i < t.length) (ht : Placed slot t)
    (hb : ∀ x ∈ b, slot x = i) :
    Placed slot (t.set i b) := by
  intro j x hx
  rw [bucket_set hi] at hx
  split at hx
  · next hij => exact hij ▸ hb x hx
  · exact ht j x hx

/-! ## Appending to and removing from one bucket -/

theorem flatten_push_perm (hi : i < t.length) (x : α) :
    (t.set i (bucket t i ++ [x])).flatten.Perm (x :: t.flatten) := by
  have h := flatten_set_perm hi (bucket t i ++ [x])
  rw [List.append_assoc] at h
  exact (List.perm_append_left_iff _).mp h

theorem filled_push (hi : i < t.length) (x : α) :
    filled (t.set i (bucket t i ++ [x])) = filled t + (if (bucket t i).isEmpty then 1 else 0) := by
  have h := filled_set hi (bucket t i ++ [x])
  cases hb : (bucket t i).isEmpty <;> simp [hb] at h ⊢ <;> omega

theorem flatten_swapRemove_perm {i e : Nat} {x : α} (hx : (bucket t i)[e]? = some x) :
    (x :: (t.set i (swapRemove (bucket t i) e)).flatten).Perm t.flatten := by
  obtain ⟨he, rfl⟩ := List.getElem?_eq_some_iff.mp hx
  have hi : i < t.length := by
    by_contra hle
    rw [bucket_of_le (Nat.le_of_not_gt hle)] at he
    simp at he
  have h := flatten_set_perm hi (swapRemove (bucket t i) e)
  have hb := (swapRemove_perm he).symm.append_right (t.set i (swapRemove (bucket t i) e)).flatten
  have hall := hb.symm.trans h
  rw [List.cons_append] at hall
  have hswap : (swapRemove (bucket t i) e ++
      (bucket t i)[e] :: (t.set i (swapRemove (bucket t i) e)).flatten).Perm
        (swapRemove (bucket t i) e ++ t.flatten) := List.perm_middle.trans hall
  exact (List.perm_append_left_iff _).mp hswap

theorem filled_swapRemove {i e : Nat} (he : e < (bucket t i).length) :
    filled (t.set i (swapRemove (bucket t i) e)) + (if (bucket t i).length = 1 then 1 else 0) =
      filled t := by
  have hi : i < t.length := by
    by_contra hle
    rw [bucket_of_le (Nat.le_of_not_gt hle)] at he
    simp at he
  have h := filled_set hi (swapRemove (bucket t i) e)
  have hne : (bucket t i).isEmpty = false := by
    cases hb : bucket t i with
    | nil => simp [hb] at he
    | cons => rfl
  have hlen := length_swapRemove (bucket t i) e
  cases hs : swapRemove (bucket t i) e with
  | nil =>
    rw [hs] at hlen h
    have h1 : (bucket t i).length = 1 := by simp at hlen; omega
    simp [hne, h1] at h ⊢
    omega
  | cons y ys =>
    rw [hs] at hlen h
    have h1 : (bucket t i).length ≠ 1 := by simp at hlen; omega
    simp [hne, h1] at h ⊢
    omega

end Serveez.Lib
