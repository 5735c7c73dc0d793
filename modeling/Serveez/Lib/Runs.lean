import Mathlib.Data.List.Induction

/-!
# Runs of a step function

A run is the fold of a step function over a list of inputs; the states of a run are the
folds over the prefixes of the list.

* `foldl_invariant`: what every step keeps holds at the end of a run.
* `forall_prefix_iff`: when a step keeps an invariant exactly under a condition, a run
  keeps it in all its states exactly if all its steps meet the condition.
* `forall_prefix_of_step`: the half of it that needs less; `forall_prefix_iff_of_aux`: the
  rule with a further invariant carried along; `forall_prefix_iff_history`: the same for
  statements about the inputs so far.
* `reached_invariant`, `forall_reached_of_step`, `forall_reached_iff`: the rules for steps that may
  have no result.
-/

namespace Serveez.Lib

variable {σ ι : Type*}

theorem foldl_invariant (step : σ → ι → σ) (I : σ → Prop) (hstep : ∀ s i, I s → I (step s i)) :
    ∀ (ops : List ι) (s : σ), I s → I (ops.foldl step s) := by
  intro ops
  induction ops with
  | nil => exact fun _ hs => hs
  | cons i ops ih => exact fun s hs => ih _ (hstep s i hs)

theorem foldl_concat (step : σ → ι → σ) (s : σ) (pre : List ι) (i : ι) :
    (pre ++ [i]).foldl step s = step (pre.foldl step s) i := by
  rw [List.foldl_append, List.foldl_cons, List.foldl_nil]

/-- The steps before a prefix are among the steps of the run. -/
theorem prefix_of_concat {pre ops : List ι} {i : ι} (h : pre ++ [i] <+: ops) :
    pre <+: ops := (List.prefix_append pre [i]).trans h

/-- The steps of a run are those at its positions. -/
theorem forall_steps {Q : List ι → ι → Prop} {ops : List ι}
    (h : ∀ n, ∀ i, ops[n]? = some i → Q (ops.take n) i) :
    ∀ pre i, pre ++ [i] <+: ops → Q pre i := by
  rintro pre i ⟨rest, rfl⟩
  have hget : (pre ++ [i] ++ rest)[pre.length]? = some i := by simp
  have htake : (pre ++ [i] ++ rest).take pre.length = pre := by simp
  exact htake ▸ h pre.length i hget

theorem forall_prefix_of_step (step : σ → ι → σ) (I : σ → Prop) (C : σ → ι → Prop) {s : σ}
    (hs : I s) {ops : List ι}
    (hstep : ∀ pre i, pre ++ [i] <+: ops → I (pre.foldl step s) → C (pre.foldl step s) i →
      I (step (pre.foldl step s) i))
    (hC : ∀ pre i, pre ++ [i] <+: ops → C (pre.foldl step s) i) :
    ∀ pre, pre <+: ops → I (pre.foldl step s) := by
  intro pre
  -- the induction takes steps off the end of the prefix
  induction pre using List.reverseRecOn with
  | nil => exact fun _ => hs
  | append_singleton pre i ih =>
    intro hpre
    rw [foldl_concat]
    exact hstep pre i hpre (ih (prefix_of_concat hpre)) (hC pre i hpre)

/-- The rule for what `I` says of the inputs so far, when it needs a further invariant `J` to be
carried along. -/
theorem forall_prefix_iff_history (J I : List ι → Prop) (C : List ι → ι → Prop) (hJ : J [])
    (hI : I []) {ops : List ι}
    (hneed : ∀ pre i, pre ++ [i] <+: ops → J pre → I pre → I (pre ++ [i]) → C pre i)
    (hkeep : ∀ pre i, pre ++ [i] <+: ops → J pre → I pre → C pre i →
      J (pre ++ [i]) ∧ I (pre ++ [i])) :
    (∀ pre, pre <+: ops → I pre) ↔ ∀ pre i, pre ++ [i] <+: ops → C pre i := by
  constructor
  · intro hall
    have haux : ∀ pre, pre <+: ops → J pre := by
      intro pre
      induction pre using List.reverseRecOn with
      | nil => exact fun _ => hJ
      | append_singleton pre i ih =>
        intro hpre
        have hpre' := prefix_of_concat hpre
        have hC := hneed pre i hpre (ih hpre') (hall pre hpre') (hall _ hpre)
        exact (hkeep pre i hpre (ih hpre') (hall pre hpre') hC).1
    intro pre i hpre
    have hpre' := prefix_of_concat hpre
    exact hneed pre i hpre (haux pre hpre') (hall pre hpre') (hall _ hpre)
  · intro hC
    have hboth : ∀ pre, pre <+: ops → J pre ∧ I pre := by
      intro pre
      induction pre using List.reverseRecOn with
      | nil => exact fun _ => ⟨hJ, hI⟩
      | append_singleton pre i ih =>
        intro hpre
        obtain ⟨hJpre, hIpre⟩ := ih (prefix_of_concat hpre)
        exact hkeep pre i hpre hJpre hIpre (hC pre i hpre)
    exact fun pre hpre => (hboth pre hpre).2

/-- The rule for an invariant `I` that needs a further one, `J`, to be carried along. -/
theorem forall_prefix_iff_of_aux (step : σ → ι → σ) (J I : σ → Prop) (C : σ → ι → Prop) {s : σ}
    (hJ : J s) (hI : I s) {ops : List ι}
    (hneed : ∀ pre i, pre ++ [i] <+: ops → J (pre.foldl step s) → I (pre.foldl step s) →
      I (step (pre.foldl step s) i) → C (pre.foldl step s) i)
    (hkeep : ∀ pre i, pre ++ [i] <+: ops → J (pre.foldl step s) → I (pre.foldl step s) →
      C (pre.foldl step s) i → J (step (pre.foldl step s) i) ∧ I (step (pre.foldl step s) i)) :
    (∀ pre, pre <+: ops → I (pre.foldl step s)) ↔
      ∀ pre i, pre ++ [i] <+: ops → C (pre.foldl step s) i := by
  apply forall_prefix_iff_history (fun pre => J (pre.foldl step s))
    (fun pre => I (pre.foldl step s)) (fun pre i => C (pre.foldl step s) i) hJ hI
  · intro pre i hpre hJpre hIpre hnext
    rw [foldl_concat] at hnext
    exact hneed pre i hpre hJpre hIpre hnext
  · intro pre i hpre hJpre hIpre hC
    rw [foldl_concat]
    exact hkeep pre i hpre hJpre hIpre hC

theorem forall_prefix_iff (step : σ → ι → σ) (I : σ → Prop) (C : σ → ι → Prop) {s : σ}
    (hs : I s) {ops : List ι}
    (hstep : ∀ pre i, pre ++ [i] <+: ops → I (pre.foldl step s) →
      (I (step (pre.foldl step s) i) ↔ C (pre.foldl step s) i)) :
    (∀ pre, pre <+: ops → I (pre.foldl step s)) ↔
      ∀ pre i, pre ++ [i] <+: ops → C (pre.foldl step s) i :=
  forall_prefix_iff_of_aux step (fun _ => True) I C trivial hs
    (fun pre i hpre _ hI => (hstep pre i hpre hI).mp)
    (fun pre i hpre _ hI hC => ⟨trivial, (hstep pre i hpre hI).mpr hC⟩)

/-- What every step that has a result keeps holds in the states that are reached. -/
theorem reached_invariant {step : σ → ι → Option σ} {I : σ → Prop}
    (hstep : ∀ s i s', I s → step s i = some s' → I s') {s t : σ} (hs : I s) {ops : List ι}
    (hreach : ops.foldl (fun t i => t.bind (step · i)) (some s) = some t) : I t := by
  refine foldl_invariant (fun (t : Option σ) i => t.bind (step · i))
    (fun t => ∀ r, t = some r → I r) ?_ ops (some s) ?_ t hreach
  · intro t i ht r hr
    obtain ⟨r₀, hr₀, hstep₀⟩ := Option.bind_eq_some_iff.mp hr
    exact hstep r₀ i r (ht r₀ hr₀) hstep₀
  · rintro r ⟨⟩
    exact hs

/-- What the steps keep that have a result and meet a condition. -/
theorem forall_reached_of_step (step : σ → ι → Option σ) (I : σ → Prop) (C : σ → ι → Prop) {s : σ}
    (hs : I s) (ops : List ι) (hstep : ∀ t i t', I t → step t i = some t' → C t i → I t')
    (hC : ∀ pre i, pre ++ [i] <+: ops → ∀ t t',
      pre.foldl (fun t i => t.bind (step · i)) (some s) = some t → step t i = some t' → C t i) :
    ∀ pre, pre <+: ops → ∀ t, pre.foldl (fun t i => t.bind (step · i)) (some s) = some t →
      I t := by
  apply forall_prefix_of_step (fun (t : Option σ) i => t.bind (step · i))
    (fun t => ∀ r, t = some r → I r) (fun t i => ∀ r r', t = some r → step r i = some r' → C r i)
  · rintro r ⟨⟩
    exact hs
  · intro pre i _ hI hC r' hr'
    obtain ⟨r, hr, hnext⟩ := Option.bind_eq_some_iff.mp hr'
    exact hstep r i r' (hI r hr) hnext (hC r r' hr hnext)
  · exact hC

/-- The rule for steps that may have no result: it is about the states that are reached. -/
theorem forall_reached_iff (step : σ → ι → Option σ) (J I : σ → Prop) (C : σ → ι → Prop) {s : σ}
    (hJ : J s) (hI : I s) (ops : List ι)
    (hneed : ∀ t i t', J t → I t → step t i = some t' → I t' → C t i)
    (hkeep : ∀ t i t', J t → I t → step t i = some t' → C t i → J t' ∧ I t') :
    (∀ pre, pre <+: ops → ∀ t, pre.foldl (fun t i => t.bind (step · i)) (some s) = some t →
        I t) ↔
      ∀ pre i, pre ++ [i] <+: ops → ∀ t t',
        pre.foldl (fun t i => t.bind (step · i)) (some s) = some t → step t i = some t' →
          C t i := by
  apply forall_prefix_iff_of_aux (fun (t : Option σ) i => t.bind (step · i))
    (fun t => ∀ r, t = some r → J r) (fun t => ∀ r, t = some r → I r)
    (fun t i => ∀ r r', t = some r → step r i = some r' → C r i)
  · rintro r ⟨⟩
    exact hJ
  · rintro r ⟨⟩
    exact hI
  · intro pre i _ hJpre hIpre hnext r r' hr hr'
    refine hneed r i r' (hJpre r hr) (hIpre r hr) hr' (hnext r' ?_)
    rw [hr]
    exact hr'
  · intro pre i _ hJpre hIpre hC
    refine forall_and.mp (fun r' => forall_and.mp (fun hr' => ?_))
    obtain ⟨r, hr, hstep⟩ := Option.bind_eq_some_iff.mp hr'
    exact hkeep r i r' (hJpre r hr) (hIpre r hr) hstep (hC r r' hr hstep)

end Serveez.Lib
