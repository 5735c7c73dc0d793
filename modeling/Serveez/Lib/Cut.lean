import Mathlib.Data.List.TakeWhile

/-!
# Where a list is cut

A scan over a list ends at the first element that does not pass: what is before it, and what it
leaves. A place in the middle of a list is the length of what is before it.

* `takeWhile_cut`, `dropWhile_cut`: the two parts at an element that does not pass.
* `not_of_dropWhile`: the element that a scan ends at does not pass.
-/

namespace Serveez.Lib

variable {α : Type*}

theorem getElem?_middle (front : List α) (c : α) (back : List α) :
    (front ++ c :: back)[front.length]? = some c := by
  rw [List.getElem?_append_right (Nat.le_refl _), Nat.sub_self, List.getElem?_cons_zero]

theorem drop_middle (front : List α) (c : α) (back : List α) :
    (front ++ c :: back).drop (front.length + 1) = back := by
  rw [← List.drop_drop, List.drop_left, List.drop_succ_cons, List.drop_zero]

variable {P : α → Prop} [DecidablePred P] {front l rest : List α} {c : α}

theorem takeWhile_cut (h : ∀ d ∈ front, P d) (hc : ¬ P c) (back : List α) :
    (front ++ c :: back).takeWhile (P ·) = front := by
  have hall : ∀ d ∈ front, decide (P d) = true := fun d hd => decide_eq_true (h d hd)
  rw [List.takeWhile_append_of_pos hall, List.takeWhile_cons_of_neg (by simpa using hc),
    List.append_nil]

theorem dropWhile_cut (h : ∀ d ∈ front, P d) (hc : ¬ P c) (back : List α) :
    (front ++ c :: back).dropWhile (P ·) = c :: back := by
  have hall : ∀ d ∈ front, decide (P d) = true := fun d hd => decide_eq_true (h d hd)
  rw [List.dropWhile_append_of_pos hall, List.dropWhile_cons_of_neg (by simpa using hc)]

section Separator

variable [DecidableEq α]

/-- A text without the separator ends in front of it. -/
theorem takeWhile_ne_cut (h : c ∉ front) (back : List α) :
    (front ++ c :: back).takeWhile (· ≠ c) = front := by
  have hne : ∀ d ∈ front, d ≠ c := fun d hd hsame => h (hsame ▸ hd)
  exact takeWhile_cut hne (fun hself => hself rfl) back

theorem dropWhile_ne_cut (h : c ∉ front) (back : List α) :
    (front ++ c :: back).dropWhile (· ≠ c) = c :: back := by
  have hne : ∀ d ∈ front, d ≠ c := fun d hd hsame => h (hsame ▸ hd)
  exact dropWhile_cut hne (fun hself => hself rfl) back

theorem takeWhile_ne_self (h : c ∉ l) : l.takeWhile (· ≠ c) = l :=
  List.takeWhile_eq_self_iff.mpr (fun _ hd => decide_eq_true (fun hsame => h (hsame ▸ hd)))

theorem dropWhile_ne_self (h : c ∉ l) : l.dropWhile (· ≠ c) = [] :=
  List.dropWhile_eq_nil_iff.mpr (fun _ hd => decide_eq_true (fun hsame => h (hsame ▸ hd)))

end Separator

theorem of_mem_takeWhile (h : c ∈ l.takeWhile (P ·)) : P c := by
  simpa using List.mem_takeWhile_imp h

theorem not_of_dropWhile (h : l.dropWhile (P ·) = c :: rest) : ¬ P c := by
  have hhead := List.head_dropWhile_not (P ·) (l := l) (by rw [h]; exact List.cons_ne_nil c rest)
  simpa [h] using hhead

theorem mem_of_mem_splitOn [BEq α] [LawfulBEq α] {a : α} {piece : List α}
    (hpiece : piece ∈ l.splitOn a) (hc : c ∈ piece) : c ∈ l := by
  induction l generalizing piece with
  | nil =>
    rw [List.splitOn_nil, List.mem_singleton] at hpiece
    exact absurd (hpiece ▸ hc) List.not_mem_nil
  | cons d l ih =>
    rw [List.splitOn_cons_eq_if_modifyHead] at hpiece
    split at hpiece
    · rcases List.mem_cons.mp hpiece with rfl | hmem
      · exact absurd hc List.not_mem_nil
      · exact List.mem_cons_of_mem _ (ih hmem hc)
    · cases hsplit : l.splitOn a with
      | nil => exact absurd hsplit (List.splitOn_ne_nil a l)
      | cons first pieces =>
        rw [hsplit, List.modifyHead_cons] at hpiece
        rw [hsplit] at ih
        rcases List.mem_cons.mp hpiece with rfl | hmem
        · rcases List.mem_cons.mp hc with rfl | hmem
          · exact List.mem_cons_self
          · exact List.mem_cons_of_mem _ (ih List.mem_cons_self hmem)
        · exact List.mem_cons_of_mem _ (ih (List.mem_cons_of_mem _ hmem) hc)

end Serveez.Lib
