import Serveez.Hash.Behind

/-!
# The walk in step with a table at rest

As long as nothing disturbs it, a walk over a table whose function deletes makes the calls of a
walk over the table at rest, in the same order.

* `Lockstep`: the walk has come to a bucket undisturbed.
* `Lockstep.bucket_step`: one bucket in which nothing disturbs.
* `Lockstep.shrinks`: a bucket whose delete shrinks the table.
-/

namespace Serveez.Hash

open Lib

variable {σ V : Type}

/-! ## The walk over a table at rest -/

section Rest

variable {f : σ → SvzHashEntry V → σ × Bool} {closure : σ} {hash : SvzHash V}

theorem flatten_take_succ {α : Type*} (t : List (List α)) (n : Nat) :
    (t.take (n + 1)).flatten = (t.take n).flatten ++ bucket t n := by
  by_cases hn : n < t.length
  · rw [List.take_succ_eq_append_getElem hn, List.flatten_append, bucket_eq_getElem hn]
    simp
  · rw [bucket_of_le (Nat.le_of_not_lt hn), List.append_nil,
      List.take_of_length_le (Nat.le_succ_of_le (Nat.le_of_not_lt hn)),
      List.take_of_length_le (Nat.le_of_not_lt hn)]

theorem closureAt_succ (n : Nat) : closureAt f closure hash (n + 1) =
    (sweep f (closureAt f closure hash n) (bucket hash.table n)).1 := by
  rw [closureAt, flatten_take_succ, sweep_append]
  rfl

theorem deletedAt_succ (n : Nat) : deletedAt f closure hash (n + 1) =
    deletedAt f closure hash n +
      (sweep f (closureAt f closure hash n) (bucket hash.table n)).2.length := by
  rw [deletedAt, flatten_take_succ, sweep_append, List.length_append]
  rfl

theorem emptiedAt_succ (n : Nat) : emptiedAt f closure hash (n + 1) =
    emptiedAt f closure hash n + if Empties f closure hash n then 1 else 0 := by
  rw [emptiedAt, List.range_succ, List.countP_append, List.countP_singleton, emptiedAt]
  simp

theorem exists_first_deleted {l : List (SvzHashEntry V)} (h : (sweep f closure l).2 ≠ []) :
    ∃ pre x post, l = pre ++ x :: post ∧ (sweep f closure pre).2 = [] ∧
      (f (sweep f closure pre).1 x).2 = true := by
  induction l generalizing closure with
  | nil => exact absurd rfl h
  | cons x l ih =>
    cases hx : (f closure x).2 with
    | true => exact ⟨[], x, l, rfl, rfl, hx⟩
    | false =>
      have hrest : (sweep f (f closure x).1 l).2 ≠ [] := by
        rwa [sweep, hx] at h
      obtain ⟨pre, y, post, hl, hpre, hy⟩ := ih hrest
      refine ⟨x :: pre, y, post, by rw [hl]; rfl, ?_, hy⟩
      rw [sweep, hx]
      exact hpre

theorem getElem?_swapRemove_self {α : Type*} (pre post : List α) (x z : α) :
    (swapRemove (pre ++ x :: (post ++ [z])) pre.length)[pre.length]? = some z := by
  have hlist : pre ++ x :: (post ++ [z]) = (pre ++ x :: post) ++ [z] := by simp
  rw [hlist, swapRemove_append_singleton]
  simp

end Rest

/-! ## The walk and the sweep in step -/

section Step

variable {c : Callbacks} {hc : c.Lawful} {func : Func σ V} {f : σ → SvzHashEntry V → σ × Bool}

theorem visitBucket_keeps (hd : DeletesOwn hc func f) {n : Nat} (fuel : Nat)
    (post : List (SvzHashEntry V)) : ∀ (l : List (SvzHashEntry V)) {e i : Nat} {v : Visit σ V},
      OnTable hc v → (bucket v.hash.table n).drop e = l ++ post → (sweep f v.closure l).2 = [] →
      ∃ v', visitBucket func n (l.length + fuel) e i v =
          visitBucket func n fuel (e + l.length) (i + l.length) v' ∧
        v'.hash = v.hash ∧ v'.closure = (sweep f v.closure l).1 ∧
        v'.calls.map Prod.fst = v.calls.map Prod.fst ++ l.map SvzHashEntry.key := by
  intro l
  induction l with
  | nil =>
    intro e i v _ _ _
    exact ⟨v, by simp, rfl, rfl, by simp⟩
  | cons x l ih =>
    intro e i v hv hdrop hsweep
    have hx : (bucket v.hash.table n)[e]? = some x := by
      rw [← List.head?_drop, hdrop]
      rfl
    obtain ⟨hon, hclosure, hcalls, hcases⟩ := visitEntry_cases hd hv hx
    cases hgone : (f v.closure x).2 with
    | true =>
      rw [sweep, hgone] at hsweep
      cases hsweep
    | false =>
      rw [sweep, hgone] at hsweep
      have hhash : (visitEntry func x v).hash = v.hash := by
        rcases hcases with ⟨-, hhash⟩ | ⟨htrue, -⟩ | ⟨htrue, -⟩
        · exact hhash
        · rw [hgone] at htrue
          cases htrue
        · rw [hgone] at htrue
          cases htrue
      have hnext : (bucket (visitEntry func x v).hash.table n).drop (e + 1) = l ++ post := by
        rw [hhash, ← List.drop_drop, hdrop]
        rfl
      obtain ⟨v', hrun, hhash', hclosure', hcalls'⟩ :=
        ih (i := i + 1) hon hnext (by rw [hclosure]; exact hsweep)
      refine ⟨v', ?_, hhash'.trans hhash, ?_, ?_⟩
      · rw [List.length_cons, Nat.add_right_comm, visitBucket]
        simp only [hx]
        rw [if_pos (congrArg SvzHash.buckets hhash), hrun]
        congr 1 <;> omega
      · rw [hclosure', hclosure, sweep]
      · rw [hcalls', hcalls, List.map_append, List.append_assoc]
        rfl

variable {closure : σ} {T : SvzHash V}

/-- The walk over `T` has come to bucket `n` undisturbed. -/
structure Lockstep (hc : c.Lawful) (f : σ → SvzHashEntry V → σ × Bool) (closure : σ)
    (T : SvzHash V) (n i : Nat) (v : Visit σ V) : Prop where
  table : OnTable hc v
  buckets : v.hash.buckets = T.buckets
  ahead : ∀ k, n ≤ k → bucket v.hash.table k = bucket T.table k
  keys : v.hash.keys + deletedAt f closure T n = T.keys
  fill : v.hash.fill = T.fill - UInt64.ofNat (emptiedAt f closure T n)
  closure : v.closure = closureAt f closure T n
  calls : v.calls.map Prod.fst = (T.table.take n).flatten.map SvzHashEntry.key
  count : i = (T.table.take n).flatten.length

theorem lockstep_start {m : Map hc V} (hr : Represents hc T m) :
    Lockstep hc f closure T 0 0 ⟨closure, T, []⟩ where
  table := ⟨m, hr⟩
  buckets := rfl
  ahead _ _ := rfl
  keys := by simp [deletedAt, sweep]
  fill := by simp [emptiedAt]
  closure := rfl
  calls := rfl
  count := rfl

theorem Lockstep.shrinksAt_iff {n i : Nat} {v : Visit σ V} (h : Lockstep hc f closure T n i v) :
    ShrinksAt v.hash n ↔ (bucket T.table n).length = 1 ∧ minSize < T.buckets ∧
      (T.fill - UInt64.ofNat (emptiedAt f closure T n + 1)).toNat < hashShrinkLimit T := by
  have hfill : v.hash.fill - 1 = T.fill - UInt64.ofNat (emptiedAt f closure T n + 1) := by
    rw [h.fill, UInt64.ofNat_add]
    have hone : UInt64.ofNat 1 = 1 := rfl
    rw [hone]
    grind
  have hlimit : hashShrinkLimit v.hash = hashShrinkLimit T := by
    rw [hashShrinkLimit, hashShrinkLimit, h.buckets]
  unfold ShrinksAt
  rw [h.ahead n (Nat.le_refl n), h.buckets, hfill, hlimit]

theorem Lockstep.upToLast (hd : DeletesOwn hc func f) {n i : Nat} {v : Visit σ V}
    (h : Lockstep hc f closure T n i v) {l : List (SvzHashEntry V)} {z : SvzHashEntry V}
    (hb : bucket T.table n = l ++ [z]) (hlast : (sweep f (closureAt f closure T n) l).2 = []) :
    ∃ v₁, visitBucket func n (bucket v.hash.table n).length 0 i v =
        visitBucket func n 1 l.length (i + l.length) v₁ ∧
      v₁.hash = v.hash ∧ v₁.closure = (sweep f (closureAt f closure T n) l).1 ∧
      v₁.calls.map Prod.fst = v.calls.map Prod.fst ++ l.map SvzHashEntry.key ∧
      (bucket v₁.hash.table n)[l.length]? = some z := by
  have hbv : bucket v.hash.table n = l ++ [z] := (h.ahead n (Nat.le_refl n)).trans hb
  rw [← h.closure] at hlast ⊢
  obtain ⟨v₁, hrun, hhash, hclosure, hcalls⟩ :=
    visitBucket_keeps hd 1 [z] l (e := 0) (i := i) h.table hbv hlast
  refine ⟨v₁, ?_, hhash, hclosure, hcalls, ?_⟩
  · rw [hbv, List.length_append, List.length_singleton, hrun, Nat.zero_add]
  · rw [hhash, hbv]
    simp

theorem empties_iff {n : Nat} {l : List (SvzHashEntry V)} {z : SvzHashEntry V}
    (hb : bucket T.table n = l ++ [z]) (hlast : (sweep f (closureAt f closure T n) l).2 = []) :
    Empties f closure T n ↔
      l = [] ∧ (f (sweep f (closureAt f closure T n) l).1 z).2 = true := by
  constructor
  · rintro ⟨x, hx, hgone⟩
    rw [hb] at hx
    cases l with
    | nil =>
      rw [List.nil_append, List.cons.injEq] at hx
      obtain ⟨rfl, -⟩ := hx
      exact ⟨rfl, hgone⟩
    | cons y l => simp at hx
  · rintro ⟨rfl, hgone⟩
    exact ⟨z, hb, hgone⟩

theorem sweep_concat (closure : σ) (l : List (SvzHashEntry V)) (z : SvzHashEntry V) :
    sweep f closure (l ++ [z]) = ((f (sweep f closure l).1 z).1,
      (sweep f closure l).2 ++ if (f (sweep f closure l).1 z).2 then [z] else []) := by
  rw [sweep_append]
  rfl

theorem Lockstep.bucket_step (hd : DeletesOwn hc func f) {n i : Nat} {v : Visit σ V}
    (h : Lockstep hc f closure T n i v) (hat : UndisturbedAt f closure T n) :
    ∃ i' v', visitBucket func n (bucket v.hash.table n).length 0 i v = some (i', v') ∧
      Lockstep hc f closure T (n + 1) i' v' := by
  have hnv := h.ahead n (Nat.le_refl n)
  rcases List.eq_nil_or_concat (bucket T.table n) with hb | ⟨l, z, hb⟩
  · -- an empty bucket
    refine ⟨i, v, by rw [hnv, hb]; rfl, ?_⟩
    have hnot : ¬ Empties f closure T n := by
      rintro ⟨x, hx, -⟩
      rw [hb] at hx
      cases hx
    exact
      { h with
        ahead := fun k hk => h.ahead k (by omega)
        keys := by rw [deletedAt_succ, hb]; exact h.keys
        fill := by rw [emptiedAt_succ, if_neg hnot]; exact h.fill
        closure := by rw [closureAt_succ, hb]; exact h.closure
        calls := by rw [flatten_take_succ, hb, List.append_nil]; exact h.calls
        count := by rw [flatten_take_succ, hb, List.append_nil]; exact h.count }
  rw [List.concat_eq_append] at hb
  have hlast : (sweep f (closureAt f closure T n) l).2 = [] := by
    have := hat.last
    rwa [hb, List.dropLast_concat] at this
  obtain ⟨v₁, hrun, hhash₁, hclosure₁, hcalls₁, hz⟩ := h.upToLast hd hb hlast
  have hon₁ : OnTable hc v₁ := by
    unfold OnTable
    rw [hhash₁]
    exact h.table
  obtain ⟨hon, hclosure, hcalls, hcases⟩ := visitEntry_cases hd hon₁ hz
  have hsweep := sweep_concat (f := f) (closureAt f closure T n) l z
  rw [← hb, hlast, List.nil_append, ← hclosure₁] at hsweep
  have hemp := empties_iff hb hlast
  rw [← hclosure₁] at hemp
  rw [hhash₁] at hcases
  -- whatever becomes of the last entry, the calls and their number are the same
  have hnext : ∀ v₂ : Visit σ V, visitEntry func z v₁ = v₂ → v₂.hash.buckets = v₁.hash.buckets →
      visitBucket func n (bucket v.hash.table n).length 0 i v = some (i + l.length + 1, v₂) := by
    intro v₂ hv₂ hstay
    rw [hrun, visitBucket]
    simp only [hz, hv₂]
    rw [if_pos hstay]
    rfl
  have hcallsT : (visitEntry func z v₁).calls.map Prod.fst =
      (T.table.take (n + 1)).flatten.map SvzHashEntry.key := by
    rw [hcalls, flatten_take_succ, hb, List.map_append, hcalls₁, h.calls]
    simp
  have hcountT : i + l.length + 1 = (T.table.take (n + 1)).flatten.length := by
    rw [flatten_take_succ, hb, List.length_append, ← h.count]
    simp [Nat.add_assoc]
  have hclosureT : (visitEntry func z v₁).closure = closureAt f closure T (n + 1) := by
    rw [hclosure, closureAt_succ, hsweep]
  rcases hcases with ⟨hkeep, hhash⟩ | ⟨hgone, -, hhash⟩ | ⟨hgone, hshrink, -⟩
  · refine ⟨_, _, hnext _ rfl (by rw [hhash, hhash₁]), ?_⟩
    have hnot : ¬ Empties f closure T n := by
      rw [hemp, hkeep]
      simp
    exact
      { table := hon
        buckets := by rw [hhash]; exact h.buckets
        ahead := fun k hk => by rw [hhash]; exact h.ahead k (by omega)
        keys := by rw [hhash, deletedAt_succ, hsweep, hkeep]; exact h.keys
        fill := by rw [hhash, emptiedAt_succ, if_neg hnot]; exact h.fill
        closure := hclosureT
        calls := hcallsT
        count := hcountT }
  · refine ⟨_, _, hnext _ rfl (by rw [hhash, hhash₁]; rfl), ?_⟩
    have hlen : (bucket v.hash.table n).length = l.length + 1 := by rw [hnv, hb]; simp
    have hlt : n < v.hash.table.length := by
      rw [← hhash₁]
      exact lt_of_mem_bucket (List.mem_of_getElem? hz)
    have hpos : 0 < v.hash.keys := by
      obtain ⟨m, hr⟩ := h.table
      rw [hr.keys]
      refine List.length_pos_of_mem (mem_flatten_of_getElem? (i := n) (e := l.length) (x := z) ?_)
      rw [← hhash₁]
      exact hz
    have hkeys := h.keys
    exact
      { table := hon
        buckets := by rw [hhash]; exact h.buckets
        ahead := by
          intro k hk
          rw [hhash]
          change bucket (v.hash.table.set n _) k = _
          rw [bucket_set hlt, if_neg (by omega)]
          exact h.ahead k (by omega)
        keys := by
          rw [hhash, deletedAt_succ, hsweep, hgone]
          change v.hash.keys - 1 + (deletedAt f closure T n + 1) = T.keys
          omega
        fill := by
          rw [hhash, emptiedAt_succ]
          change (if (bucket v.hash.table n).length - 1 = 0 then v.hash.fill - 1
            else v.hash.fill) = _
          by_cases hl : l = []
          · rw [if_pos (by rw [hlen, hl]; rfl), if_pos (hemp.mpr ⟨hl, hgone⟩), h.fill,
              UInt64.ofNat_add]
            have hone : UInt64.ofNat 1 = 1 := rfl
            rw [hone]
            grind
          · have hpos : 0 < l.length := List.length_pos_of_ne_nil hl
            rw [if_neg (by omega), if_neg (fun he => hl (hemp.mp he).1), h.fill, Nat.add_zero]
        closure := hclosureT
        calls := hcallsT
        count := hcountT }
  · obtain ⟨hone, hmin, hfew⟩ := h.shrinksAt_iff.mp hshrink
    have hl : l = [] := by
      rw [hb, List.length_append, List.length_singleton] at hone
      exact List.eq_nil_of_length_eq_zero (by omega)
    have hempties := hemp.mpr ⟨hl, hgone⟩
    have hlimit := hat.keeps hempties hmin
    rw [emptiedAt_succ, if_pos hempties] at hlimit
    omega

theorem Lockstep.shrinks (hd : DeletesOwn hc func f) {n i : Nat} {v : Visit σ V}
    (h : Lockstep hc f closure T n i v) (hempties : Empties f closure T n)
    (hmin : minSize < T.buckets)
    (hfew : (T.fill - UInt64.ofNat (emptiedAt f closure T (n + 1))).toNat < hashShrinkLimit T) :
    visitBucket func n (bucket v.hash.table n).length 0 i v = none := by
  obtain ⟨z, hb, hgone⟩ := hempties
  rw [emptiedAt_succ, if_pos ⟨z, hb, hgone⟩] at hfew
  have hshrink : ShrinksAt v.hash n := h.shrinksAt_iff.mpr ⟨by rw [hb]; rfl, hmin, hfew⟩
  have hbv : bucket v.hash.table n = [z] := (h.ahead n (Nat.le_refl n)).trans hb
  have hz : (bucket v.hash.table n)[0]? = some z := by rw [hbv]; rfl
  obtain ⟨-, -, -, hcases⟩ := visitEntry_cases hd h.table hz
  rw [h.closure] at hcases
  have hmoved : (visitEntry func z v).hash.buckets ≠ v.hash.buckets := by
    rcases hcases with ⟨hkeep, -⟩ | ⟨-, hnot, -⟩ | ⟨-, -, hmoved⟩
    · rw [hgone] at hkeep
      cases hkeep
    · exact absurd hshrink hnot
    · exact hmoved
  rw [hbv, List.length_singleton, visitBucket]
  simp only [hz]
  rw [if_neg hmoved]

end Step

end Serveez.Hash
