import Mathlib.Data.List.Nodup
import Mathlib.Data.List.Count

/-!
# Records with different keys

A list of records of which no two have the same key, and the changes of a record that is found by
its key. The record found splits the list (`exists_split`), and a change leaves both parts:

* `Keyed.cons`, `Keyed.modifyKey`, `Keyed.removeKey`: the keys stay different.
* `modifyKey_split`, `removeKey_split`: the list after a change.
* `countP_modifyKey`, `countP_removeKey`: the number of records of a kind.
* `filterMap_split`: what the records are mapped to.
-/

namespace Serveez.Lib

variable {α κ : Type*} [DecidableEq κ] (key : α → κ)

/-- The record with a key. -/
def findKey (k : κ) (l : List α) : Option α := l.find? (fun a => key a = k)

/-- The record with a key is changed. -/
def modifyKey (k : κ) (f : α → α) (l : List α) : List α :=
  l.map (fun a => if key a = k then f a else a)

/-- The record with a key is taken out. -/
def removeKey (k : κ) (l : List α) : List α := l.filter (fun a => key a ≠ k)

/-- No two records have the same key. -/
def Keyed (l : List α) : Prop := (l.map key).Nodup

variable {key} {k : κ} {l : List α} {a : α}

theorem findKey_mem (h : findKey key k l = some a) : a ∈ l ∧ key a = k :=
  ⟨List.mem_of_find?_eq_some h, of_decide_eq_true (List.find?_some (p := fun a => key a = k) h)⟩

theorem findKey_none : findKey key k l = none ↔ ∀ a ∈ l, key a ≠ k := by
  rw [findKey, List.find?_eq_none]
  exact forall_congr' (fun a => imp_congr_right (fun _ => not_congr decide_eq_true_iff))

omit [DecidableEq κ] in
theorem Keyed.eq_of_key {b : α} (h : Keyed key l) (ha : a ∈ l) (hb : b ∈ l)
    (hsame : key a = key b) : a = b := List.inj_on_of_nodup_map h ha hb hsame

theorem findKey_of_mem (h : Keyed key l) (ha : a ∈ l) (hkey : key a = k) :
    findKey key k l = some a := by
  cases hfind : findKey key k l with
  | none => exact absurd hkey (findKey_none.mp hfind a ha)
  | some b =>
    obtain ⟨hb, hsame⟩ := findKey_mem hfind
    rw [h.eq_of_key hb ha (hsame.trans hkey.symm)]

theorem Keyed.cons (h : Keyed key l) (hfresh : findKey key (key a) l = none) :
    Keyed key (a :: l) := by
  refine List.nodup_cons.mpr ⟨fun hmem => ?_, h⟩
  obtain ⟨b, hb, hkey⟩ := List.mem_map.mp hmem
  exact findKey_none.mp hfresh b hb hkey

theorem Keyed.removeKey (h : Keyed key l) (k : κ) : Keyed key (removeKey key k l) :=
  h.sublist (List.filter_sublist.map key)

/-- The record found, and the others before and behind it, which have other keys. -/
theorem exists_split (hkeyed : Keyed key l) (h : findKey key k l = some a) :
    ∃ before after, l = before ++ a :: after ∧ key a = k ∧
      (∀ b ∈ before, key b ≠ k) ∧ ∀ b ∈ after, key b ≠ k := by
  obtain ⟨hmem, hkey⟩ := findKey_mem h
  obtain ⟨before, after, rfl⟩ := List.append_of_mem hmem
  unfold Keyed at hkeyed
  rw [List.map_append, List.map_cons, List.nodup_append] at hkeyed
  obtain ⟨-, hafter, hbefore⟩ := hkeyed
  refine ⟨before, after, rfl, hkey, fun b hb hsame => ?_, fun b hb hsame => ?_⟩
  · exact hbefore (key b) (List.mem_map_of_mem hb) (key a) List.mem_cons_self
      (hsame.trans hkey.symm)
  · refine (List.nodup_cons.mp hafter).1 ?_
    rw [hkey, ← hsame]
    exact List.mem_map_of_mem hb

theorem modifyKey_of_ne {f : α → α} (h : ∀ b ∈ l, key b ≠ k) : modifyKey key k f l = l := by
  have hid : l.map (fun b => if key b = k then f b else b) = l.map id :=
    List.map_congr_left (fun b hb => if_neg (h b hb))
  exact hid.trans (List.map_id l)

theorem removeKey_of_ne (h : ∀ b ∈ l, key b ≠ k) : removeKey key k l = l :=
  List.filter_eq_self.mpr (fun b hb => decide_eq_true (h b hb))

/-- A change that keeps `g` of each record. -/
theorem map_modifyKey {β : Type*} {f : α → α} {g : α → β} (hg : ∀ a, g (f a) = g a) :
    (modifyKey key k f l).map g = l.map g := by
  unfold modifyKey
  rw [List.map_map]
  apply List.map_congr_left
  intro a _
  rw [Function.comp_apply]
  split
  · exact hg a
  · rfl

/-- A change of records that are mapped to records with the same keys. -/
theorem map_modifyKey_comm {f g : α → α} (hg : ∀ a, key (g a) = key a)
    (hcomm : ∀ a, g (f a) = f (g a)) :
    (modifyKey key k f l).map g = modifyKey key k f (l.map g) := by
  unfold modifyKey
  rw [List.map_map, List.map_map]
  apply List.map_congr_left
  intro a _
  rw [Function.comp_apply, Function.comp_apply, hg]
  split
  · exact hcomm a
  · rfl

theorem findKey_map {g : α → α} (hg : ∀ a, key (g a) = key a) :
    findKey key k (l.map g) = (findKey key k l).map g := by
  have hsame : (fun a => decide (key a = k)) ∘ g = fun a => decide (key a = k) := by
    funext a
    rw [Function.comp_apply, hg]
  unfold findKey
  rw [List.find?_map, hsame]

/-- The records without one, mapped to records with the same keys. -/
theorem map_removeKey {g : α → α} (hg : ∀ a, key (g a) = key a) :
    (removeKey key k l).map g = removeKey key k (l.map g) := by
  unfold removeKey
  rw [List.filter_map]
  congr 1
  apply List.filter_congr
  intro a _
  rw [Function.comp_apply, hg]

theorem Keyed.modifyKey (h : Keyed key l) (k : κ) {f : α → α} (hf : ∀ a, key (f a) = key a) :
    Keyed key (modifyKey key k f l) := by
  unfold Keyed
  rw [map_modifyKey hf]
  exact h

/-- A change of the record that goes does not matter. -/
theorem removeKey_modifyKey {f : α → α} (hf : ∀ a, key (f a) = key a) :
    removeKey key k (modifyKey key k f l) = removeKey key k l := by
  unfold removeKey modifyKey
  induction l with
  | nil => rfl
  | cons b l ih =>
    rw [List.map_cons, List.filter_cons, List.filter_cons, ih]
    by_cases hb : key b = k
    · rw [if_pos hb, hf, hb]
      simp
    · rw [if_neg hb]

theorem modifyKey_split {f : α → α} {before after : List α} (ha : key a = k)
    (hbefore : ∀ b ∈ before, key b ≠ k) (hafter : ∀ b ∈ after, key b ≠ k) :
    modifyKey key k f (before ++ a :: after) = before ++ f a :: after := by
  have hb := modifyKey_of_ne (f := f) hbefore
  have hc := modifyKey_of_ne (f := f) hafter
  unfold modifyKey at *
  rw [List.map_append, List.map_cons, if_pos ha, hb, hc]

theorem removeKey_split {before after : List α} (ha : key a = k)
    (hbefore : ∀ b ∈ before, key b ≠ k) (hafter : ∀ b ∈ after, key b ≠ k) :
    removeKey key k (before ++ a :: after) = before ++ after := by
  have hb := removeKey_of_ne hbefore
  have hc := removeKey_of_ne hafter
  unfold removeKey at *
  rw [List.filter_append, List.filter_cons_of_neg (by simpa using ha), hb, hc]

theorem countP_modifyKey {f : α → α} (p : α → Bool) (hkeyed : Keyed key l)
    (h : findKey key k l = some a) :
    (modifyKey key k f l).countP p + (if p a then 1 else 0) =
      l.countP p + (if p (f a) then 1 else 0) := by
  obtain ⟨before, after, rfl, ha, hbefore, hafter⟩ := exists_split hkeyed h
  rw [modifyKey_split ha hbefore hafter]
  simp only [List.countP_append, List.countP_cons]
  omega

theorem countP_removeKey (p : α → Bool) (hkeyed : Keyed key l) (h : findKey key k l = some a) :
    (removeKey key k l).countP p + (if p a then 1 else 0) = l.countP p := by
  obtain ⟨before, after, rfl, ha, hbefore, hafter⟩ := exists_split hkeyed h
  rw [removeKey_split ha hbefore hafter]
  simp only [List.countP_append, List.countP_cons]
  omega

theorem length_removeKey (hkeyed : Keyed key l) (h : findKey key k l = some a) :
    (removeKey key k l).length + 1 = l.length := by
  have hcount := countP_removeKey (fun _ => true) hkeyed h
  rwa [if_pos rfl, List.countP_true] at hcount

theorem findKey_modifyKey {f : α → α} (hf : ∀ a, key (f a) = key a)
    (h : findKey key k l = some a) : findKey key k (modifyKey key k f l) = some (f a) := by
  have hsame : (fun a => decide (key a = k)) ∘ (fun a => if key a = k then f a else a) =
      fun a => decide (key a = k) := by
    funext a
    rw [Function.comp_apply]
    split
    · rw [hf]
    · rfl
  have hkey := (findKey_mem h).2
  unfold findKey modifyKey at *
  rw [List.find?_map, hsame, h, Option.map_some, if_pos hkey]

theorem findKey_modifyKey_ne {k' : κ} (hne : k' ≠ k) {f : α → α} (hf : ∀ a, key (f a) = key a) :
    findKey key k' (modifyKey key k f l) = findKey key k' l := by
  induction l with
  | nil => rfl
  | cons a l ih =>
    unfold findKey modifyKey at ih ⊢
    rw [List.map_cons, List.find?_cons, List.find?_cons, ih]
    by_cases hk : key a = k
    · have hother : key a ≠ k' := fun hk' => hne (hk'.symm.trans hk)
      rw [if_pos hk, hf, decide_eq_false hother]
    · rw [if_neg hk]

theorem findKey_removeKey_ne {k' : κ} (hne : k' ≠ k) :
    findKey key k' (removeKey key k l) = findKey key k' l := by
  unfold findKey removeKey
  rw [List.find?_filter]
  congr 1
  funext a
  by_cases hk' : key a = k'
  · simp [hk', hne]
  · simp [hk']

theorem findKey_removeKey : findKey key k (removeKey key k l) = none :=
  findKey_none.mpr (fun _ ha => by simpa using (List.mem_filter.mp ha).2)

theorem modifyKey_modifyKey {f g : α → α} (hf : ∀ a, key (f a) = key a) :
    modifyKey key k g (modifyKey key k f l) = modifyKey key k (g ∘ f) l := by
  unfold modifyKey
  rw [List.map_map]
  refine List.map_congr_left (fun a _ => ?_)
  rw [Function.comp_apply]
  by_cases hkey : key a = k
  · rw [if_pos hkey, if_pos ((hf a).trans hkey), if_pos hkey, Function.comp_apply]
  · rw [if_neg hkey, if_neg hkey, if_neg hkey]

/-- What the records are mapped to, before and after a change and without the record found. -/
theorem filterMap_split {β : Type*} (g : α → Option β) (hkeyed : Keyed key l)
    (h : findKey key k l = some a) :
    ∃ before after, l.filterMap g = before ++ (g a).toList ++ after ∧
      (∀ f : α → α, (modifyKey key k f l).filterMap g = before ++ (g (f a)).toList ++ after) ∧
      (removeKey key k l).filterMap g = before ++ after := by
  obtain ⟨before, after, rfl, ha, hbefore, hafter⟩ := exists_split hkeyed h
  have hcons (b : α) : (before ++ b :: after).filterMap g =
      before.filterMap g ++ (g b).toList ++ after.filterMap g := by
    rw [List.filterMap_append, List.filterMap_cons, List.append_assoc]
    cases g b <;> rfl
  refine ⟨before.filterMap g, after.filterMap g, hcons a, fun f => ?_, ?_⟩
  · rw [modifyKey_split ha hbefore hafter]
    exact hcons (f a)
  · rw [removeKey_split ha hbefore hafter, List.filterMap_append]

/-- A record of the list after a change is the changed one or another one from before. -/
theorem mem_modifyKey {f : α → α} {b : α} (hkeyed : Keyed key l) (h : findKey key k l = some a) :
    b ∈ modifyKey key k f l ↔ b = f a ∨ b ∈ l ∧ key b ≠ k := by
  obtain ⟨before, after, rfl, ha, hbefore, hafter⟩ := exists_split hkeyed h
  rw [modifyKey_split ha hbefore hafter]
  simp only [List.mem_append, List.mem_cons]
  constructor
  · rintro (hb | rfl | hb)
    · exact Or.inr ⟨Or.inl hb, hbefore b hb⟩
    · exact Or.inl rfl
    · exact Or.inr ⟨Or.inr (Or.inr hb), hafter b hb⟩
  · rintro (rfl | ⟨hb | rfl | hb, hne⟩)
    · exact Or.inr (Or.inl rfl)
    · exact Or.inl hb
    · exact absurd ha hne
    · exact Or.inr (Or.inr hb)

theorem mem_removeKey {b : α} : b ∈ removeKey key k l ↔ b ∈ l ∧ key b ≠ k := by
  rw [removeKey, List.mem_filter, decide_eq_true_iff]

end Serveez.Lib
