import Serveez.Hash.Lockstep

/-!
# Walks with deletes

A walk is undisturbed if only last entries of buckets are deleted, the table never shrinks, and
there are always more entries ahead than were deleted. Otherwise an entry is moved behind the
walk, the bucket is gone, or the walk ends early.

* `Lockstep.lost`: an entry that is moved behind the walk is lost for it.
* `visitsOnce_iff`: a walk is as good as over a table at rest exactly if it is undisturbed.
-/

namespace Serveez.Hash

open Lib

variable {σ V : Type}

section Lost

variable {c : Callbacks} {hc : c.Lawful} {func : Func σ V} {f : σ → SvzHashEntry V → σ × Bool}
variable {closure : σ} {T : SvzHash V}

/-- An entry that is in the table and has not been called for is not called for again. -/
def Lost (T : SvzHash V) (n : Nat) (v : Visit σ V) : Prop :=
  ∃ (y : SvzHashEntry V) (E : Nat), y ∈ T.table.flatten ∧ (bucket v.hash.table n)[E]? = some y ∧
    y.key ∉ v.calls.map Prod.fst

theorem Lockstep.key_notMem {m : Map hc V} (hr : Represents hc T m) {n i : Nat} {v : Visit σ V}
    (h : Lockstep hc f closure T n i v) {y : SvzHashEntry V} {k : Nat} (hk : n ≤ k)
    (hy : y ∈ bucket T.table k) : y.key ∉ v.calls.map Prod.fst := by
  intro hin
  rw [h.calls] at hin
  obtain ⟨x, hx, hkey⟩ := List.mem_map.mp hin
  have hyT : y ∈ T.table.flatten := mem_flatten_iff_bucket.mpr ⟨k, hy⟩
  obtain ⟨j, hj⟩ := mem_flatten_iff_bucket.mp hx
  rw [bucket_take] at hj
  split at hj
  · next hlt =>
    have hxT : x ∈ T.table.flatten := mem_flatten_iff_bucket.mpr ⟨j, hj⟩
    have hxy := hr.eq_of_key hxT hyT hkey
    subst hxy
    have hjk := (hr.shape.placed j x hj).symm.trans (hr.shape.placed k x hy)
    omega
  · cases hj

theorem Lockstep.lost (hd : DeletesOwn hc func f) {m : Map hc V} (hr : Represents hc T m)
    {n i i' : Nat} {v v' : Visit σ V} (h : Lockstep hc f closure T n i v)
    (hlast : (sweep f (closureAt f closure T n) (bucket T.table n).dropLast).2 ≠ [])
    (hrun : visitBucket func n (bucket v.hash.table n).length 0 i v = some (i', v')) :
    OnTable hc v' ∧ Lost T n v' := by
  have hnv := h.ahead n (Nat.le_refl n)
  obtain ⟨l, x, post, hsplit, hl, hgone⟩ := exists_first_deleted hlast
  have hne : bucket T.table n ≠ [] := by
    intro hnil
    rw [hnil] at hsplit
    simp at hsplit
  obtain ⟨z, hz⟩ : ∃ z, bucket T.table n = l ++ x :: (post ++ [z]) := by
    refine ⟨(bucket T.table n).getLast hne, ?_⟩
    rw [← List.cons_append, ← List.append_assoc, ← hsplit, List.dropLast_append_getLast]
  have hbv := hnv.trans hz
  rw [← h.closure] at hl hgone
  obtain ⟨v₁, hrun₁, hhash₁, hclosure₁, hcalls₁⟩ :=
    visitBucket_keeps hd (post.length + 2) (x :: (post ++ [z])) l (e := 0) (i := i) h.table hbv hl
  have hfuel : (bucket v.hash.table n).length = l.length + (post.length + 2) := by
    rw [hbv]
    simp
  rw [hfuel, hrun₁, Nat.zero_add, visitBucket] at hrun
  have hx : (bucket v₁.hash.table n)[l.length]? = some x := by
    rw [hhash₁, hbv]
    simp
  simp only [hx] at hrun
  have hon₁ : OnTable hc v₁ := by
    unfold OnTable
    rw [hhash₁]
    exact h.table
  obtain ⟨hon, -, hcalls, hcases⟩ := visitEntry_cases hd hon₁ hx
  rw [hclosure₁, hgone, hhash₁] at hcases
  have hlong : ¬ ShrinksAt v.hash n := by
    rintro ⟨hone, -⟩
    omega
  have hhash : (visitEntry func x v₁).hash =
      { dropEntry v.hash n l.length with keys := v.hash.keys - 1 } := by
    rcases hcases with ⟨hkeep, -⟩ | ⟨-, -, hhash⟩ | ⟨-, hshrink, -⟩
    · cases hkeep
    · exact hhash
    · exact absurd hshrink hlong
  rw [if_pos (by rw [hhash, hhash₁]; rfl)] at hrun
  have hlt : n < v.hash.table.length := by
    rw [← hhash₁]
    exact lt_of_mem_bucket (List.mem_of_getElem? hx)
  have hplace : (bucket (visitEntry func x v₁).hash.table n)[l.length]? = some z := by
    rw [hhash]
    change (bucket (v.hash.table.set n (swapRemove (bucket v.hash.table n) l.length)) n)[_]? = _
    rw [bucket_set hlt, if_pos rfl, hbv]
    exact getElem?_swapRemove_self l post x z
  obtain ⟨hon', hbehind⟩ :=
    behind_visitBucket hd _ hon hplace (Or.inr ⟨rfl, Nat.lt_succ_self _⟩) hrun
  have hzT : z ∈ bucket T.table n := by rw [hz]; simp
  refine ⟨hon', z, l.length, mem_flatten_iff_bucket.mpr ⟨n, hzT⟩, hbehind.place, ?_⟩
  intro hin
  have hin₁ := hbehind.calls hin
  rw [hcalls, List.map_append, hcalls₁, List.mem_append, List.mem_append] at hin₁
  -- the entry is last in its bucket, and the calls there were for entries before it
  have hnodup : (l ++ x :: (post ++ [z])).Nodup := by
    have hltT := lt_of_mem_bucket hzT
    rw [← hz, bucket_eq_getElem hltT]
    exact hr.nodup.sublist (List.sublist_flatten_of_mem (List.getElem_mem hltT))
  have hbefore : ∀ w ∈ l ++ [x], w.key ≠ z.key := by
    intro w hw hkey
    have hwT : w ∈ bucket T.table n := by
      rw [hz]
      rcases List.mem_append.mp hw with hw | hw
      · exact List.mem_append_left _ hw
      · rw [List.mem_singleton.mp hw]
        simp
    have hwz := hr.eq_of_key (mem_flatten_iff_bucket.mpr ⟨n, hwT⟩)
      (mem_flatten_iff_bucket.mpr ⟨n, hzT⟩) hkey
    have hlist : l ++ x :: (post ++ [z]) = (l ++ [x]) ++ (post ++ [z]) := by simp
    rw [hlist] at hnodup
    exact (List.nodup_append.mp hnodup).2.2 w hw z (by simp) hwz
  rcases hin₁ with (hin₁ | hin₁) | hin₁
  · exact h.key_notMem hr (Nat.le_refl n) hzT hin₁
  · obtain ⟨w, hw, hkey⟩ := List.mem_map.mp hin₁
    exact hbefore w (List.mem_append_left _ hw) hkey
  · have hkey : z.key = x.key := by simpa using hin₁
    exact hbefore x (by simp) hkey.symm

/-- What the walk leaves undone: an entry that is still there has not been called for. -/
def AllCalled (T : SvzHash V) (v : Visit σ V) : Prop :=
  ∀ x ∈ T.table.flatten, x ∈ v.hash.table.flatten → x.key ∈ v.calls.map Prod.fst

theorem Lost.not_allCalled (hd : DeletesOwn hc func f) {n fuel i : Nat} {v v' : Visit σ V}
    (hv : OnTable hc v) (h : Lost T n v) (hrun : visitBuckets func fuel (n + 1) i v = some v') :
    ¬ AllCalled T v' := by
  obtain ⟨y, E, hyT, hy, hnot⟩ := h
  have hbehind := behind_visitBuckets hd fuel hv hy (Nat.lt_succ_self n) hrun
  exact fun hall => hnot (hbehind.calls (hall y hyT (mem_flatten_of_getElem? hbehind.place)))

theorem bucket_eq_nil_of_drop {α : Type*} {t : List (List α)} {n k : Nat}
    (hdrop : (t.drop n).flatten = []) (hk : n ≤ k) : bucket t k = [] := by
  by_cases hlt : k < t.length
  · have hmem : t[k] ∈ t.drop n := by
      rw [List.mem_drop_iff_getElem]
      exact ⟨k - n, by omega, by simp [Nat.add_sub_cancel' hk]⟩
    rw [bucket_eq_getElem hlt]
    exact List.flatten_eq_nil_iff.mp hdrop _ hmem
  · exact bucket_of_le (Nat.le_of_not_lt hlt)

/-- Behind the last entry nothing can disturb. -/
theorem undisturbedAt_of_drop {n k : Nat} (hdrop : (T.table.drop n).flatten = []) (hk : n ≤ k) :
    UndisturbedAt f closure T k where
  last := by
    rw [bucket_eq_nil_of_drop hdrop hk]
    rfl
  keeps := by
    rintro ⟨x, hx, -⟩
    rw [bucket_eq_nil_of_drop hdrop hk] at hx
    cases hx
  ahead := by
    intro hne
    refine absurd ?_ hne
    rw [← Nat.add_sub_cancel' hk, ← List.drop_drop]
    refine List.flatten_eq_nil_iff.mpr fun b hb => ?_
    exact List.flatten_eq_nil_iff.mp hdrop b (List.mem_of_mem_drop hb)

theorem Lockstep.walk (hd : DeletesOwn hc func f) {m : Map hc V} (hr : Represents hc T m)
    (fuel : Nat) : ∀ {n i : Nat} {v : Visit σ V}, Lockstep hc f closure T n i v →
      n + fuel = T.buckets →
      ((∃ v', visitBuckets func fuel n i v = some v' ∧ AllCalled T v') ↔
        ∀ k, n ≤ k → k < T.buckets → UndisturbedAt f closure T k) ∧
      ((∀ k, n ≤ k → k < T.buckets → UndisturbedAt f closure T k) →
        ∃ v', visitBuckets func fuel n i v = some v' ∧
          v'.calls.map Prod.fst = T.table.flatten.map SvzHashEntry.key) := by
  induction fuel with
  | zero =>
    intro n i v h hn
    have htake : T.table.take n = T.table := by
      rw [List.take_of_length_le]
      rw [hr.shape.length]
      omega
    have hcalls : v.calls.map Prod.fst = T.table.flatten.map SvzHashEntry.key := by
      rw [h.calls, htake]
    refine ⟨⟨fun _ k hk hlt => absurd hlt (by omega), fun _ => ⟨v, rfl, ?_⟩⟩,
      fun _ => ⟨v, rfl, hcalls⟩⟩
    intro x hx _
    rw [hcalls]
    exact List.mem_map_of_mem hx
  | succ fuel ih =>
    intro n i v h hn
    have hlength : T.keys = (T.table.take n).flatten.length + (T.table.drop n).flatten.length := by
      rw [hr.keys, ← List.length_append, ← List.flatten_append, List.take_append_drop]
    have hdeleted : deletedAt f closure T n ≤ (T.table.take n).flatten.length :=
      length_sweep_le f closure _
    have hkeys := h.keys
    have hcount := h.count
    rw [visitBuckets]
    by_cases hdrop : (T.table.drop n).flatten = []
    · -- all entries are behind
      have hend : ¬ (i < v.hash.keys ∧ n < v.hash.buckets) := by
        rintro ⟨hlt, -⟩
        rw [hdrop, List.length_nil] at hlength
        omega
      have htake : (T.table.take n).flatten = T.table.flatten := by
        conv_rhs => rw [← List.take_append_drop n T.table, List.flatten_append, hdrop,
          List.append_nil]
      have hcalls : v.calls.map Prod.fst = T.table.flatten.map SvzHashEntry.key := by
        rw [h.calls, htake]
      rw [if_neg hend]
      refine ⟨⟨fun _ k hk _ => undisturbedAt_of_drop hdrop hk, fun _ => ⟨v, rfl, ?_⟩⟩,
        fun _ => ⟨v, rfl, hcalls⟩⟩
      intro x hx _
      rw [hcalls]
      exact List.mem_map_of_mem hx
    by_cases hfew : deletedAt f closure T n < (T.table.drop n).flatten.length
    · have hgo : i < v.hash.keys ∧ n < v.hash.buckets := by
        rw [h.buckets]
        omega
      rw [if_pos hgo]
      by_cases hlast : (sweep f (closureAt f closure T n) (bucket T.table n).dropLast).2 = []
      · by_cases hkeeps : Empties f closure T n → minSize < T.buckets → hashShrinkLimit T ≤
            (T.fill - UInt64.ofNat (emptiedAt f closure T (n + 1))).toNat
        · -- nothing disturbs here
          have hat : UndisturbedAt f closure T n := ⟨hlast, hkeeps, fun _ => hfew⟩
          obtain ⟨i', v', hone, h'⟩ := h.bucket_step hd hat
          obtain ⟨hiff, hall⟩ := ih h' (by omega)
          have hsplit : (∀ k, n ≤ k → k < T.buckets → UndisturbedAt f closure T k) ↔
              ∀ k, n + 1 ≤ k → k < T.buckets → UndisturbedAt f closure T k := by
            constructor
            · exact fun hrest k hk => hrest k (by omega)
            · intro hrest k hk hlt
              by_cases hkn : k = n
              · rw [hkn]
                exact hat
              · exact hrest k (by omega) hlt
          simp only [hone]
          rw [hsplit]
          exact ⟨hiff, hall⟩
        · -- the table shrinks under the walk
          push Not at hkeeps
          obtain ⟨hempties, hmin, hshrink⟩ := hkeeps
          have hnone := h.shrinks hd hempties hmin hshrink
          have hnot : ¬ ∀ k, n ≤ k → k < T.buckets → UndisturbedAt f closure T k := by
            intro hall
            have := (hall n (Nat.le_refl n) (by omega)).keeps hempties hmin
            omega
          simp only [hnone]
          refine ⟨⟨?_, fun hall => absurd hall hnot⟩, fun hall => absurd hall hnot⟩
          rintro ⟨v', hrun, -⟩
          cases hrun
      · -- an entry is moved behind the walk
        have hnot : ¬ ∀ k, n ≤ k → k < T.buckets → UndisturbedAt f closure T k :=
          fun hall => hlast (hall n (Nat.le_refl n) (by omega)).last
        refine ⟨⟨?_, fun hall => absurd hall hnot⟩, fun hall => absurd hall hnot⟩
        rintro ⟨v', hrun, hcalled⟩
        cases hone : visitBucket func n (bucket v.hash.table n).length 0 i v with
        | none =>
          simp only [hone] at hrun
          cases hrun
        | some p =>
          simp only [hone] at hrun
          obtain ⟨hon, hlost⟩ := h.lost hd hr hlast hone
          exact absurd hcalled (hlost.not_allCalled hd hon hrun)
    · -- the calls made count for the entries ahead
      have hend : ¬ (i < v.hash.keys ∧ n < v.hash.buckets) := by
        rintro ⟨hlt, -⟩
        omega
      have hnot : ¬ ∀ k, n ≤ k → k < T.buckets → UndisturbedAt f closure T k :=
        fun hall => hfew ((hall n (Nat.le_refl n) (by omega)).ahead hdrop)
      rw [if_neg hend]
      refine ⟨⟨?_, fun hall => absurd hall hnot⟩, fun hall => absurd hall hnot⟩
      rintro ⟨v', hrun, hcalled⟩
      rw [Option.some_inj] at hrun
      subst hrun
      obtain ⟨y, hy⟩ := List.exists_mem_of_ne_nil _ hdrop
      obtain ⟨j, hj⟩ := mem_flatten_iff_bucket.mp hy
      have hbucket : bucket (T.table.drop n) j = bucket T.table (n + j) := by
        simp [bucket, List.getD_eq_getElem?_getD]
      rw [hbucket] at hj
      have hyv : y ∈ v.hash.table.flatten :=
        mem_flatten_iff_bucket.mpr ⟨n + j, by rwa [h.ahead _ (Nat.le_add_right n j)]⟩
      exact absurd (hcalled y (mem_flatten_iff_bucket.mpr ⟨n + j, hj⟩) hyv)
        (h.key_notMem hr (Nat.le_add_right n j) hj)

/-! ## Calls -/

/-- Whatever the function does, it is called for entries of the table. -/
def Present (v : Visit σ V) : Prop :=
  ∀ call ∈ v.calls, ∃ x ∈ call.2.table.flatten, x.key = call.1

theorem present_visitBucket (func : Func σ V) {n : Nat} (fuel : Nat) :
    ∀ {e i i' : Nat} {v v' : Visit σ V}, Present v →
      visitBucket func n fuel e i v = some (i', v') → Present v' := by
  induction fuel with
  | zero =>
    intro e i i' v v' hv hrun
    rw [visitBucket, Option.some_inj, Prod.mk.injEq] at hrun
    exact hrun.2 ▸ hv
  | succ fuel ih =>
    intro e i i' v v' hv hrun
    rw [visitBucket] at hrun
    cases hx : (bucket v.hash.table n)[e]? with
    | none =>
      simp only [hx, Option.some_inj, Prod.mk.injEq] at hrun
      exact hrun.2 ▸ hv
    | some x =>
      simp only [hx] at hrun
      split at hrun
      · refine ih ?_ hrun
        intro call hcall
        rcases List.mem_append.mp hcall with hcall | hcall
        · exact hv call hcall
        · rw [List.mem_singleton.mp hcall]
          exact ⟨x, mem_flatten_of_getElem? hx, rfl⟩
      · cases hrun

theorem present_visitBuckets (func : Func σ V) (fuel : Nat) : ∀ {n i : Nat} {v v' : Visit σ V},
    Present v → visitBuckets func fuel n i v = some v' → Present v' := by
  induction fuel with
  | zero =>
    intro n i v v' hv hrun
    rw [visitBuckets, Option.some_inj] at hrun
    exact hrun ▸ hv
  | succ fuel ih =>
    intro n i v v' hv hrun
    rcases visitBuckets_succ hrun with rfl | ⟨i₁, v₁, hone, hrun⟩
    · exact hv
    · exact ih (present_visitBucket func _ hv hone) hrun

/-- **A walk with deletes.** A function that at most deletes the key it is called with is called
once for every entry that stays, and for no entry twice, exactly if nothing it deletes disturbs
the walk. -/
theorem visitsOnce_iff (hd : DeletesOwn hc func f) {m : Map hc V} (hr : Represents hc T m) :
    VisitsOnce T (svzHashVisit func closure T) ↔ Undisturbed f closure T := by
  have hstart : Lockstep hc f closure T 0 0 ⟨closure, T, []⟩ := lockstep_start hr
  obtain ⟨hiff, hall⟩ := hstart.walk hd hr T.buckets (Nat.zero_add _)
  have hevery : Undisturbed f closure T ↔
      ∀ k, 0 ≤ k → k < T.buckets → UndisturbedAt f closure T k :=
    ⟨fun h k _ => h k, fun h k => h k (Nat.zero_le k)⟩
  rw [hevery]
  constructor
  · rintro ⟨v, hrun, -, -, hcalled⟩
    exact hiff.mp ⟨v, hrun, hcalled⟩
  · intro hat
    obtain ⟨v, hrun, hcalled⟩ := hiff.mpr hat
    obtain ⟨v', hrun', hcalls⟩ := hall hat
    obtain rfl : v = v' := Option.some.inj (hrun.symm.trans hrun')
    refine ⟨v, hrun, ?_, ?_, hcalled⟩
    · rw [hcalls]
      have hnodup := hr.nodup_keys
      rw [← Function.comp_def hc.key, ← List.map_map] at hnodup
      exact List.Nodup.of_map _ hnodup
    · refine present_visitBuckets func _ ?_ hrun
      intro call hcall
      cases hcall

end Lost

end Serveez.Hash
