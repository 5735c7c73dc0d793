import Mathlib.Logic.Relation
import Mathlib.Logic.Function.Basic

/-!
# Marking by depth first

A search marks a node and then goes to the nodes that it has edges to, one after the other; it
turns back at marked nodes. `Explored` is what the search from one node has done to the marks when
it comes back, however deep it was in other searches, and `Exploring` is the state of the loop at
one node.

* `Exploring.enter`, `Exploring.next`, `Exploring.finish`: the loop, with the searches in it.
* `Explored.iff_reaches`: the marks are those of the nodes that can be reached over nodes without
  one.
* `Searched.next`, `Searched.iff_reaches`: searches from several nodes, one after the other.
-/

namespace Serveez.Lib

variable {α : Type*}

/-- An edge from a node without a mark. -/
def FreeEdge (edge : α → α → Prop) (marked : α → Bool) (a b : α) : Prop :=
  marked a = false ∧ edge a b

def Reaches (edge : α → α → Prop) (marked : α → Bool) : α → α → Prop :=
  Relation.ReflTransGen (FreeEdge edge marked)

/-- The marks after the search from `p`. -/
structure Explored (edge : α → α → Prop) (marked : α → Bool) (p : α) (marked' : α → Bool) :
    Prop where
  keeps : ∀ q, marked q = true → marked' q = true
  start : marked' p = true
  reached : ∀ q, marked' q = true → marked q = true ∨ Reaches edge marked p q
  closed : ∀ a, marked' a = true → marked a = false → ∀ b, edge a b → marked' b = true

/-- The marks in the loop at `p`, when it has been at the nodes `done`. -/
structure Exploring (edge : α → α → Prop) (marked : α → Bool) (p : α) (done : List α)
    (marked' : α → Bool) : Prop where
  keeps : ∀ q, marked q = true → marked' q = true
  start : marked' p = true
  reached : ∀ q, marked' q = true → marked q = true ∨ Reaches edge marked p q
  closed : ∀ a, marked' a = true → marked a = false → a ≠ p → ∀ b, edge a b → marked' b = true
  visited : ∀ b ∈ done, edge p b → marked' b = true

variable {edge : α → α → Prop} {marked marked' marked'' : α → Bool} {p : α} {done : List α}

theorem Reaches.mono (h : ∀ q, marked q = true → marked' q = true) {q : α}
    (hreach : Reaches edge marked' p q) : Reaches edge marked p q := by
  refine Relation.ReflTransGen.mono (fun a b hstep => ?_) _ _ hreach
  refine ⟨Bool.eq_false_iff.mpr fun hmarked => ?_, hstep.2⟩
  have hfree := hstep.1
  rw [h a hmarked] at hfree
  cases hfree

theorem Explored.refl (hp : marked p = true) : Explored edge marked p marked where
  keeps := fun _ h => h
  start := hp
  reached := fun _ h => Or.inl h
  closed := fun a ha hfree => by
    rw [ha] at hfree
    cases hfree

section Loop

variable [DecidableEq α]

theorem Exploring.enter (edge : α → α → Prop) (marked : α → Bool) (p : α) :
    Exploring edge marked p [] (Function.update marked p true) where
  keeps := fun q h => by
    rw [Function.update_apply]
    split
    · rfl
    · exact h
  start := Function.update_self _ _ _
  reached := fun q h => by
    rw [Function.update_apply] at h
    split at h
    · next heq => exact Or.inr (heq ▸ Relation.ReflTransGen.refl)
    · exact Or.inl h
  closed := fun a ha hfree hne => by
    rw [Function.update_of_ne hne, hfree] at ha
    cases ha
  visited := fun b hb => absurd hb List.not_mem_nil

end Loop

/-- A node that has no edge from `p`. -/
theorem Exploring.skip (h : Exploring edge marked p done marked') {b : α} (hb : ¬ edge p b) :
    Exploring edge marked p (done ++ [b]) marked' :=
  { h with
    visited := fun b' hb' hedge => by
      rcases List.mem_append.mp hb' with hmem | hmem
      · exact h.visited b' hmem hedge
      · rw [List.mem_singleton.mp hmem] at hedge
        exact absurd hedge hb }

theorem Exploring.next (h : Exploring edge marked p done marked') (hp : marked p = false) {b : α}
    (hedge : edge p b) (hsearch : Explored edge marked' b marked'') :
    Exploring edge marked p (done ++ [b]) marked'' where
  keeps := fun q hq => hsearch.keeps q (h.keeps q hq)
  start := hsearch.keeps p h.start
  reached := fun q hq => by
    rcases hsearch.reached q hq with hold | hreach
    · exact h.reached q hold
    · exact Or.inr (Relation.ReflTransGen.head ⟨hp, hedge⟩ (hreach.mono h.keeps))
  closed := fun a ha hfree hne c hc => by
    cases hold : marked' a with
    | true => exact hsearch.keeps c (h.closed a hold hfree hne c hc)
    | false => exact hsearch.closed a ha hold c hc
  visited := fun b' hb' hedge' => by
    rcases List.mem_append.mp hb' with hmem | hmem
    · exact hsearch.keeps b' (h.visited b' hmem hedge')
    · rw [List.mem_singleton.mp hmem]
      exact hsearch.start

/-- The loop has been at all nodes that there are edges to. -/
theorem Exploring.finish (h : Exploring edge marked p done marked')
    (hall : ∀ b, edge p b → b ∈ done) : Explored edge marked p marked' where
  keeps := h.keeps
  start := h.start
  reached := h.reached
  closed := fun a ha hfree b hedge => by
    by_cases hp : a = p
    · subst hp
      exact h.visited b (hall b hedge) hedge
    · exact h.closed a ha hfree hp b hedge

/-- **The marks of a search.** -/
theorem Explored.iff_reaches (h : Explored edge marked p marked') (q : α) :
    marked' q = true ↔ marked q = true ∨ Reaches edge marked p q := by
  refine ⟨h.reached q, ?_⟩
  rintro (hq | hreach)
  · exact h.keeps q hq
  · induction hreach with
    | refl => exact h.start
    | tail _ hstep ih => exact h.closed _ ih hstep.1 _ hstep.2

/-- The marks after searches from some nodes. -/
structure Searched (edge : α → α → Prop) (marked : α → Bool) (starts : α → Prop)
    (marked' : α → Bool) : Prop where
  keeps : ∀ q, marked q = true → marked' q = true
  start : ∀ p, starts p → marked' p = true
  reached : ∀ q, marked' q = true → marked q = true ∨ ∃ p, starts p ∧ Reaches edge marked p q
  closed : ∀ a, marked' a = true → marked a = false → ∀ b, edge a b → marked' b = true

variable {starts : α → Prop}

theorem Searched.none (edge : α → α → Prop) (marked : α → Bool) (hnone : ∀ p, ¬ starts p) :
    Searched edge marked starts marked where
  keeps := fun _ h => h
  start := fun p hp => absurd hp (hnone p)
  reached := fun _ h => Or.inl h
  closed := fun a ha hfree => by
    rw [ha] at hfree
    cases hfree

theorem Searched.next (h : Searched edge marked starts marked') {b : α}
    (hsearch : Explored edge marked' b marked'') :
    Searched edge marked (fun p => starts p ∨ p = b) marked'' where
  keeps := fun q hq => hsearch.keeps q (h.keeps q hq)
  start := by
    rintro p (hp | rfl)
    · exact hsearch.keeps p (h.start p hp)
    · exact hsearch.start
  reached := fun q hq => by
    rcases hsearch.reached q hq with hold | hreach
    · refine (h.reached q hold).imp_right ?_
      rintro ⟨p, hp, hreach⟩
      exact ⟨p, Or.inl hp, hreach⟩
    · exact Or.inr ⟨b, Or.inr rfl, hreach.mono h.keeps⟩
  closed := fun a ha hfree c hc => by
    cases hold : marked' a with
    | true => exact hsearch.keeps c (h.closed a hold hfree c hc)
    | false => exact hsearch.closed a ha hold c hc

theorem Searched.iff_reaches (h : Searched edge marked starts marked') (q : α) :
    marked' q = true ↔ marked q = true ∨ ∃ p, starts p ∧ Reaches edge marked p q := by
  refine ⟨h.reached q, ?_⟩
  rintro (hq | ⟨p, hp, hreach⟩)
  · exact h.keeps q hq
  · induction hreach with
    | refl => exact h.start p hp
    | tail _ hstep ih => exact h.closed _ ih hstep.1 _ hstep.2

end Serveez.Lib
