import Mathlib.Data.List.Nodup

/-!
# A heap with one block changed

A heap is a function to optional values; writing, allocating and freeing change its value at
one address.
-/

namespace Serveez.Lib

variable {α β : Type*} [DecidableEq α] {f : α → Option β} {p q : α} {v : Option β} {x : β}

/-- A block of the changed heap is the new one or an old one at another address. -/
theorem update_eq_some_iff :
    Function.update f p v q = some x ↔ q = p ∧ v = some x ∨ q ≠ p ∧ f q = some x := by
  by_cases h : q = p
  · subst h
    simp
  · simp [h]

theorem update_none_eq_some_iff :
    Function.update f p none q = some x ↔ q ≠ p ∧ f q = some x := by
  simp [update_eq_some_iff]

/-- How many of some places satisfy a predicate, after a change of one of them. -/
theorem countP_update (f : α → β) (p : β → Bool) {l : List α}
    (hnodup : l.Nodup) {a : α} (ha : a ∈ l) (x : β) :
    l.countP (fun b => p (Function.update f a x b)) + (p (f a)).toNat =
      l.countP (fun b => p (f b)) + (p x).toNat := by
  obtain ⟨l₁, l₂, rfl⟩ := List.append_of_mem ha
  have hnot := (List.nodup_cons.mp (List.nodup_middle.mp hnodup)).1
  rw [List.mem_append, not_or] at hnot
  have hside : ∀ l' : List α, a ∉ l' →
      l'.countP (fun b => p (Function.update f a x b)) = l'.countP fun b => p (f b) := by
    intro l' hl'
    apply List.countP_congr
    intro b hb
    have hba : b ≠ a := by
      rintro rfl
      exact hl' hb
    rw [Function.update_of_ne hba]
  have hone : ∀ q : Bool, (if q = true then 1 else 0) = q.toNat := by decide
  simp only [List.countP_append, List.countP_cons, Function.update_self, hside l₁ hnot.1,
    hside l₂ hnot.2, hone]
  omega

end Serveez.Lib
