import Mathlib.Data.List.Nodup

/-!
# Doubly linked lists

The links of a doubly linked list are two functions `nx` and `pv` from nodes to nodes.
`Seg nx pv b l a` says that the nodes of `l` are linked in this order, with `b` before the
first and `a` after the last of them. The splices of an intrusive list are stated by
what they do to the links of the nodes at the seam:

* `Seg.snoc`, `Seg.push`: a node at the end, or in front;
* `Seg.unlink`: take a node out;
* `Seg.moveLast`: move the last node in front of some others.
-/

namespace Serveez.Lib

variable {α : Type*}

def Seg (nx pv : α → Option α) (b : Option α) : List α → Option α → Prop
  | [], _ => True
  | x :: l, a => pv x = b ∧ nx x = l.head?.or a ∧ Seg nx pv (some x) l a

variable {nx pv nx' pv' : α → Option α} {a b : Option α}

theorem head?_append_or (l₁ l₂ : List α) (a : Option α) :
    (l₁ ++ l₂).head?.or a = l₁.head?.or (l₂.head?.or a) := by
  cases l₁ <;> simp

theorem Seg.append_iff (l₁ l₂ : List α) :
    Seg nx pv b (l₁ ++ l₂) a ↔
      Seg nx pv b l₁ (l₂.head?.or a) ∧ Seg nx pv (l₁.getLast?.or b) l₂ a := by
  induction l₁ generalizing b with
  | nil => simp [Seg]
  | cons x l₁ ih =>
    have hlast : (x :: l₁).getLast?.or b = l₁.getLast?.or (some x) := by
      cases l₁ with
      | nil => rfl
      | cons y l₁ => simp [List.getLast?_cons]
    rw [List.cons_append, Seg, Seg, ih, head?_append_or, hlast, and_assoc, and_assoc]

theorem Seg.congr {l : List α} (h : Seg nx pv b l a) (hn : ∀ z ∈ l, nx' z = nx z)
    (hp : ∀ z ∈ l, pv' z = pv z) : Seg nx' pv' b l a := by
  induction l generalizing b with
  | nil => trivial
  | cons x l ih =>
    obtain ⟨h1, h2, h3⟩ := h
    refine ⟨(hp x List.mem_cons_self).trans h1, (hn x List.mem_cons_self).trans h2, ?_⟩
    exact ih h3 (fun z hz => hn z (List.mem_cons_of_mem _ hz))
      (fun z hz => hp z (List.mem_cons_of_mem _ hz))

theorem Seg.next_eq {l₁ l₂ : List α} {x : α} (h : Seg nx pv none (l₁ ++ x :: l₂) none) :
    nx x = l₂.head? := by
  have h2 := ((Seg.append_iff _ _).mp h).2.2.1
  rwa [Option.or_none] at h2

theorem Seg.prev_eq {l₁ l₂ : List α} {x : α} (h : Seg nx pv none (l₁ ++ x :: l₂) none) :
    pv x = l₁.getLast? := by
  have h1 := ((Seg.append_iff _ _).mp h).2.1
  rwa [Option.or_none] at h1

variable [DecidableEq α]

/-- Changing what follows a segment is a change of the last node's link. -/
theorem Seg.setAfter {l : List α} {a' : Option α} (h : Seg nx pv b l a) (hnd : l.Nodup)
    (hn : ∀ z ∈ l, nx' z = if l.getLast? = some z then a' else nx z)
    (hp : ∀ z ∈ l, pv' z = pv z) : Seg nx' pv' b l a' := by
  induction l generalizing b with
  | nil => trivial
  | cons x l ih =>
    obtain ⟨h1, h2, h3⟩ := h
    have hx := hn x List.mem_cons_self
    cases l with
    | nil => exact ⟨(hp x List.mem_cons_self).trans h1, by simpa using hx, trivial⟩
    | cons y l =>
      have hxn : x ∉ y :: l := (List.nodup_cons.mp hnd).1
      have hne : ¬ (x :: y :: l).getLast? = some x := by
        intro heq
        rw [List.getLast?_cons_cons] at heq
        exact hxn (List.mem_of_getLast? heq)
      rw [if_neg hne] at hx
      refine ⟨(hp x List.mem_cons_self).trans h1, hx.trans h2, ?_⟩
      refine ih h3 (List.nodup_cons.mp hnd).2 ?_ (fun z hz => hp z (List.mem_cons_of_mem _ hz))
      intro z hz
      rw [hn z (List.mem_cons_of_mem _ hz), List.getLast?_cons_cons]

/-- Changing what precedes a segment is a change of the first node's link. -/
theorem Seg.setBefore {l : List α} {b' : Option α} (h : Seg nx pv b l a) (hnd : l.Nodup)
    (hn : ∀ z ∈ l, nx' z = nx z)
    (hp : ∀ z ∈ l, pv' z = if l.head? = some z then b' else pv z) : Seg nx' pv' b' l a := by
  cases l with
  | nil => trivial
  | cons x l =>
    obtain ⟨h1, h2, h3⟩ := h
    refine ⟨by simpa using hp x List.mem_cons_self, (hn x List.mem_cons_self).trans h2, ?_⟩
    refine h3.congr (fun z hz => hn z (List.mem_cons_of_mem _ hz)) ?_
    intro z hz
    have hne : x ≠ z := by
      rintro rfl
      exact (List.nodup_cons.mp hnd).1 hz
    simpa [hne] using hp z (List.mem_cons_of_mem _ hz)

/-! ## Splices -/

theorem Seg.snoc {l : List α} {p : α} (h : Seg nx pv none l none) (hnd : l.Nodup)
    (hn : ∀ z ∈ l, nx' z = if l.getLast? = some z then some p else nx z)
    (hp : ∀ z ∈ l, pv' z = pv z) (hnp : nx' p = none) (hpp : pv' p = l.getLast?) :
    Seg nx' pv' none (l ++ [p]) none := by
  rw [Seg.append_iff]
  refine ⟨h.setAfter hnd hn hp, ?_, hnp, trivial⟩
  rw [hpp, Option.or_none]

theorem Seg.push {l : List α} {p : α} (h : Seg nx pv none l none) (hnd : l.Nodup)
    (hn : ∀ z ∈ l, nx' z = nx z)
    (hp : ∀ z ∈ l, pv' z = if l.head? = some z then some p else pv z)
    (hnp : nx' p = l.head?) (hpp : pv' p = none) : Seg nx' pv' none (p :: l) none := by
  refine ⟨hpp, ?_, h.setBefore hnd hn hp⟩
  rw [hnp, Option.or_none]

theorem Seg.unlink {l₁ l₂ : List α} {x : α} (h : Seg nx pv none (l₁ ++ x :: l₂) none)
    (hnd : (l₁ ++ x :: l₂).Nodup)
    (hn : ∀ z ∈ l₁ ++ l₂, nx' z = if l₁.getLast? = some z then l₂.head? else nx z)
    (hp : ∀ z ∈ l₁ ++ l₂, pv' z = if l₂.head? = some z then l₁.getLast? else pv z) :
    Seg nx' pv' none (l₁ ++ l₂) none := by
  obtain ⟨hnd₁, hnd₂, hdis⟩ := List.nodup_append.mp hnd
  obtain ⟨h1, -, -, h2⟩ := (Seg.append_iff _ _).mp h
  rw [Seg.append_iff, Option.or_none, Option.or_none]
  constructor
  · refine h1.setAfter hnd₁ (fun z hz => hn z (List.mem_append_left _ hz)) ?_
    intro z hz
    rw [hp z (List.mem_append_left _ hz), if_neg]
    intro hh
    exact hdis z hz z (List.mem_cons_of_mem _ (List.mem_of_head? hh)) rfl
  · refine h2.setBefore (List.nodup_cons.mp hnd₂).2 ?_
      (fun z hz => hp z (List.mem_append_right _ hz))
    intro z hz
    rw [hn z (List.mem_append_right _ hz), if_neg]
    intro hh
    exact hdis z (List.mem_of_getLast? hh) z (List.mem_cons_of_mem _ hz) rfl

theorem Seg.moveLast {l₁ l₂ : List α} {s : α} (h : Seg nx pv none (l₁ ++ (l₂ ++ [s])) none)
    (hnd : (l₁ ++ (l₂ ++ [s])).Nodup)
    (hn₁ : ∀ z ∈ l₁, nx' z = if l₁.getLast? = some z then some s else nx z)
    (hp₁ : ∀ z ∈ l₁, pv' z = pv z)
    (hn₂ : ∀ z ∈ l₂, nx' z = if l₂.getLast? = some z then none else nx z)
    (hp₂ : ∀ z ∈ l₂, pv' z = if l₂.head? = some z then some s else pv z)
    (hns : nx' s = l₂.head?) (hps : pv' s = l₁.getLast?) :
    Seg nx' pv' none (l₁ ++ s :: l₂) none := by
  obtain ⟨hnd₁, hnd₂, -⟩ := List.nodup_append.mp hnd
  have hnd₂' := (List.nodup_append.mp hnd₂).1
  obtain ⟨h1, h2⟩ := (Seg.append_iff _ _).mp h
  obtain ⟨h2, -⟩ := (Seg.append_iff _ _).mp h2
  rw [Seg.append_iff]
  refine ⟨h1.setAfter hnd₁ hn₁ hp₁, ?_, ?_, ?_⟩
  · rw [hps, Option.or_none]
  · rw [hns, Option.or_none]
  · -- first the node after the segment, then the node before it
    have hafter : Seg nx' pv (l₁.getLast?.or none) l₂ none :=
      h2.setAfter hnd₂' hn₂ (fun _ _ => rfl)
    exact hafter.setBefore hnd₂' (fun _ _ => rfl) hp₂

end Serveez.Lib
