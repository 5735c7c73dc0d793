import Serveez.Hash.Visit

/-!
# What lies behind a walk

A call in a walk deletes its own entry or leaves the table as it is. A delete in the bucket of
the walk changes that bucket from the place of the walk on, so what lies behind stays.

* `visitEntry_cases`: what one call does to the table.
* `behind_visitBuckets`: an entry behind the walk stays there and is not called for again.
-/

namespace Serveez.Hash

open Lib

variable {σ V : Type}

section Walk

variable {c : Callbacks} {hc : c.Lawful} {func : Func σ V} {f : σ → SvzHashEntry V → σ × Bool}

/-- The state is that of a walk over a table that represents some map. -/
def OnTable (hc : c.Lawful) (v : Visit σ V) : Prop := ∃ m : Map hc V, Represents hc v.hash m

/-- The step of the walk without a delete, and with one that leaves the buckets in place. -/
theorem visitEntry_cases (hd : DeletesOwn hc func f) {v : Visit σ V} (hv : OnTable hc v)
    {n e : Nat} {x : SvzHashEntry V} (hx : (bucket v.hash.table n)[e]? = some x) :
    OnTable hc (visitEntry func x v) ∧
    (visitEntry func x v).closure = (f v.closure x).1 ∧
    (visitEntry func x v).calls = v.calls ++ [(x.key, v.hash)] ∧
    (((f v.closure x).2 = false ∧ (visitEntry func x v).hash = v.hash) ∨
      ((f v.closure x).2 = true ∧ ¬ ShrinksAt v.hash n ∧ (visitEntry func x v).hash =
        { dropEntry v.hash n e with keys := v.hash.keys - 1 }) ∨
      ((f v.closure x).2 = true ∧ ShrinksAt v.hash n ∧
        (visitEntry func x v).hash.buckets ≠ v.hash.buckets)) := by
  obtain ⟨m, hr⟩ := hv
  have hcall := hd v.closure v.hash m x hr (mem_flatten_of_getElem? hx)
  obtain ⟨he, -⟩ := List.getElem?_eq_some_iff.mp hx
  have hdelete := hr.svzHashDelete_at hx
  have hclosure : (visitEntry func x v).closure = (f v.closure x).1 := by
    unfold visitEntry
    rw [hcall]
  have hhash : (visitEntry func x v).hash =
      if (f v.closure x).2 then (svzHashDelete v.hash x.key).1 else v.hash := by
    unfold visitEntry
    rw [hcall]
  cases hgone : (f v.closure x).2 with
  | false =>
    rw [hgone, if_neg Bool.false_ne_true] at hhash
    exact ⟨⟨m, by rw [hhash]; exact hr⟩, hclosure, rfl, Or.inl ⟨rfl, hhash⟩⟩
  | true =>
    rw [hgone, if_pos rfl] at hhash
    have hon : OnTable hc (visitEntry func x v) :=
      ⟨_, by rw [hhash]; exact (represents_delete hr x.key).1⟩
    refine ⟨hon, hclosure, rfl, Or.inr ?_⟩
    by_cases hshrink : ShrinksAt v.hash n
    · refine Or.inr ⟨rfl, hshrink, ?_⟩
      rw [hhash, hdelete]
      exact removeEntry_buckets_of_shrinks hr.shape hshrink he
    · refine Or.inl ⟨rfl, hshrink, ?_⟩
      rw [hhash, hdelete, removeEntry_of_not_shrinks he hshrink]
      rfl

/-- An entry behind the walk stays where it is and is not called for again. -/
structure Behind (N E : Nat) (y : SvzHashEntry V) (v v' : Visit σ V) : Prop where
  place : (bucket v'.hash.table N)[E]? = some y
  calls : y.key ∈ v'.calls.map Prod.fst → y.key ∈ v.calls.map Prod.fst

theorem behind_visitEntry (hd : DeletesOwn hc func f) {v : Visit σ V} (hv : OnTable hc v)
    {N E n e : Nat} {x y : SvzHashEntry V} (hy : (bucket v.hash.table N)[E]? = some y)
    (hlt : N < n ∨ N = n ∧ E < e) (hx : (bucket v.hash.table n)[e]? = some x)
    (hstay : (visitEntry func x v).hash.buckets = v.hash.buckets) :
    Behind N E y v (visitEntry func x v) := by
  obtain ⟨-, -, hcalls, hcases⟩ := visitEntry_cases hd hv hx
  obtain ⟨m, hr⟩ := hv
  obtain ⟨he, -⟩ := List.getElem?_eq_some_iff.mp hx
  refine ⟨?_, ?_⟩
  · rcases hcases with ⟨-, hhash⟩ | ⟨-, -, hhash⟩ | ⟨-, -, hmoved⟩
    · rw [hhash]
      exact hy
    · rw [hhash]
      change (bucket (v.hash.table.set n (swapRemove (bucket v.hash.table n) e)) N)[E]? = some y
      rw [bucket_set (lt_of_mem_bucket (List.mem_of_getElem? hx))]
      rcases hlt with hlt | ⟨rfl, hlt⟩
      · rw [if_neg (Nat.ne_of_gt hlt)]
        exact hy
      · rw [if_pos rfl, getElem?_swapRemove_of_lt hlt he]
        exact hy
    · exact absurd hstay hmoved
  · rw [hcalls, List.map_append, List.mem_append]
    rintro (hin | hnew)
    · exact hin
    · have hkey : y.key = x.key := by simpa using hnew
      have hxy := hr.eq_of_key (mem_flatten_of_getElem? hy) (mem_flatten_of_getElem? hx) hkey
      subst hxy
      obtain ⟨hnn, hee⟩ := hr.place_unique hy hx
      omega

theorem Behind.trans {N E : Nat} {y : SvzHashEntry V} {v v' v'' : Visit σ V}
    (h : Behind N E y v v') (h' : Behind N E y v' v'') : Behind N E y v v'' :=
  ⟨h'.place, fun hin => h.calls (h'.calls hin)⟩

theorem behind_visitBucket (hd : DeletesOwn hc func f) {N E n : Nat} {y : SvzHashEntry V}
    (fuel : Nat) : ∀ {e i i' : Nat} {v v' : Visit σ V}, OnTable hc v →
      (bucket v.hash.table N)[E]? = some y → (N < n ∨ N = n ∧ E < e) →
      visitBucket func n fuel e i v = some (i', v') → OnTable hc v' ∧ Behind N E y v v' := by
  induction fuel with
  | zero =>
    intro e i i' v v' hv hy _ hrun
    rw [visitBucket, Option.some_inj, Prod.mk.injEq] at hrun
    obtain ⟨-, rfl⟩ := hrun
    exact ⟨hv, hy, fun hin => hin⟩
  | succ fuel ih =>
    intro e i i' v v' hv hy hlt hrun
    rw [visitBucket] at hrun
    cases hx : (bucket v.hash.table n)[e]? with
    | none =>
      simp only [hx, Option.some_inj, Prod.mk.injEq] at hrun
      obtain ⟨-, rfl⟩ := hrun
      exact ⟨hv, hy, fun hin => hin⟩
    | some x =>
      simp only [hx] at hrun
      by_cases hstay : (visitEntry func x v).hash.buckets = v.hash.buckets
      · rw [if_pos hstay] at hrun
        have hone := behind_visitEntry hd hv hy hlt hx hstay
        obtain ⟨hv', hrest⟩ :=
          ih (visitEntry_cases hd hv hx).1 hone.place (by omega) hrun
        exact ⟨hv', hone.trans hrest⟩
      · rw [if_neg hstay] at hrun
        cases hrun

theorem behind_visitBuckets (hd : DeletesOwn hc func f) {N E : Nat} {y : SvzHashEntry V}
    (fuel : Nat) : ∀ {n i : Nat} {v v' : Visit σ V}, OnTable hc v →
      (bucket v.hash.table N)[E]? = some y → N < n →
      visitBuckets func fuel n i v = some v' → Behind N E y v v' := by
  induction fuel with
  | zero =>
    intro n i v v' _ hy _ hrun
    rw [visitBuckets, Option.some_inj] at hrun
    subst hrun
    exact ⟨hy, fun hin => hin⟩
  | succ fuel ih =>
    intro n i v v' hv hy hlt hrun
    rcases visitBuckets_succ hrun with rfl | ⟨i₁, v₁, hone, hrun⟩
    · exact ⟨hy, fun hin => hin⟩
    · obtain ⟨hv', hbehind⟩ := behind_visitBucket hd _ hv hy (Or.inl hlt) hone
      exact hbehind.trans (ih hv' hbehind.place (by omega) hrun)

end Walk

end Serveez.Hash
