import Serveez.Nut.Routing

/-!
# Repeated queries

`nut_canonize_query` keeps the time of a query under its letters and digits, and refuses an equal
query that comes less than ten seconds later. From time to time `nut_server_notify` deletes the
times that are older than three minutes. The time is written only when there is none: a query
that is accepted although there is an older time leaves that time as it is, and the queries after
it are accepted, too.

* `queryLimit`: a refusal has its reason in every run, and accepted queries are ten seconds apart
  in the runs in which no query with some text meets an old time.
* `not_spaced_third`: the third of three queries may follow the second at once.
-/

namespace Serveez.Nut

open Lib

/-- The letters and digits of a query. -/
def queryKey (text : List UInt8) : List UInt8 := ((cString text).filter isAlnum).map toLower

def nutEntryAge : Nat := 60 * 3

/-- What `nut_server_notify` does with the table of the queries. -/
def dropQueries (now : Nat) (nut : NutConfig) : NutConfig :=
  { nut with
    query := fun key =>
      if nut.query key ≠ 0 ∧ now - nut.query key > nutEntryAge then 0 else nut.query key }

inductive QueryStep
  | query (now : Nat) (text : List UInt8)
  | notify (now : Nat)

def QueryStep.now : QueryStep → Nat
  | .query now _ => now
  | .notify now => now

inductive QueryVerdict
  | invalid
  | tooRecent
  | accepted
  deriving DecidableEq

/-- A query that was received. -/
structure Received where
  now : Nat
  key : List UInt8
  verdict : QueryVerdict
  deriving DecidableEq

/-- The table of the queries, and the queries received so far, the last one first. -/
structure QueryRun where
  nut : NutConfig
  received : List Received

def queryStep (s : QueryRun) : QueryStep → QueryRun
  | .query now text =>
    let canonized := nutCanonizeQuery now s.nut text
    let verdict :=
      if cString text = [] then .invalid else if canonized.2 then .accepted else .tooRecent
    ⟨canonized.1, ⟨now, queryKey text, verdict⟩ :: s.received⟩
  | .notify now => { s with nut := dropQueries now s.nut }

def queryRun (nut : NutConfig) (steps : List QueryStep) : QueryRun :=
  steps.foldl queryStep ⟨nut, []⟩

/-! ## Distances and refusals -/

/-- Accepted queries that are equal are as far apart as they should be. -/
def Spaced (s : QueryRun) : Prop :=
  s.received.Pairwise (fun later earlier => later.verdict = .accepted →
    earlier.verdict = .accepted → later.key = earlier.key →
      earlier.now + nutQueryTooRecent ≤ later.now)

/-- A query that was refused as too recent follows an equal one that is. -/
def RefusedRight (s : QueryRun) : Prop :=
  ∀ later r earlier, s.received = later ++ r :: earlier → r.verdict = .tooRecent →
    ∃ q ∈ earlier, q.key = r.key ∧ q.verdict ≠ .invalid ∧ r.now < q.now + nutQueryTooRecent

/-- The time that a query with some text meets, if there is one, is recent; and the clock is not at
its zero, which stands for no time. -/
def MeetsRecent (s : QueryRun) : QueryStep → Prop
  | .query now text => cString text ≠ [] → now ≠ 0 ∧
      (s.nut.query (queryKey text) ≠ 0 → now - s.nut.query (queryKey text) < nutQueryTooRecent)
  | .notify _ => True

/-! ## A query -/

/-- The cases of `nut_canonize_query`. -/
theorem queryStep_query (s : QueryRun) (now : Nat) (text : List UInt8) :
    let key := queryKey text
    (cString text = [] ∧
        queryStep s (.query now text) = ⟨s.nut, ⟨now, key, .invalid⟩ :: s.received⟩) ∨
      (s.nut.query key ≠ 0 ∧ now - s.nut.query key < nutQueryTooRecent ∧
        queryStep s (.query now text) = ⟨s.nut, ⟨now, key, .tooRecent⟩ :: s.received⟩) ∨
      (cString text ≠ [] ∧ s.nut.query key ≠ 0 ∧ ¬ now - s.nut.query key < nutQueryTooRecent ∧
        queryStep s (.query now text) = ⟨s.nut, ⟨now, key, .accepted⟩ :: s.received⟩) ∨
      (cString text ≠ [] ∧ s.nut.query key = 0 ∧
        queryStep s (.query now text) =
          ⟨{ s.nut with query := Function.update s.nut.query key now },
            ⟨now, key, .accepted⟩ :: s.received⟩) := by
  intro key
  unfold queryStep nutCanonizeQuery
  dsimp only
  by_cases hempty : cString text = []
  · rw [if_pos hempty, if_pos hempty]
    exact Or.inl ⟨hempty, rfl⟩
  rw [if_neg hempty, if_neg hempty]
  have hkey : ((cString text).filter isAlnum).map toLower = key := rfl
  rw [hkey]
  by_cases hnone : s.nut.query key = 0
  · rw [if_neg (fun h => h hnone)]
    exact Or.inr (Or.inr (Or.inr ⟨hempty, hnone, rfl⟩))
  rw [if_pos hnone]
  by_cases hrecent : now - s.nut.query key < nutQueryTooRecent
  · refine Or.inr (Or.inl ⟨hnone, hrecent, ?_⟩)
    simp [hrecent, key]
  · refine Or.inr (Or.inr (Or.inl ⟨hempty, hnone, hrecent, ?_⟩))
    simp [hrecent, key]

/-! ## Refusals -/

/-- The times in the table are those of queries accepted. -/
def Remembered (query : List UInt8 → Nat) (received : List Received) : Prop :=
  ∀ key, query key ≠ 0 →
    ∃ q ∈ received, q.key = key ∧ q.verdict = .accepted ∧ q.now = query key

variable {received : List Received} {s : QueryRun} {nut : NutConfig}

theorem Remembered.cons {query : List UInt8 → Nat} (h : Remembered query received) (r : Received) :
    Remembered query (r :: received) := by
  intro key hkey
  obtain ⟨q, hq, hrest⟩ := h key hkey
  exact ⟨q, List.mem_cons_of_mem _ hq, hrest⟩

theorem Remembered.update {query : List UInt8 → Nat} (h : Remembered query received)
    (key : List UInt8) (now : Nat) :
    Remembered (Function.update query key now) (⟨now, key, .accepted⟩ :: received) := by
  intro key' hkey'
  by_cases hsame : key' = key
  · subst hsame
    have hself : Function.update query key' now key' = now := Function.update_self ..
    exact ⟨_, List.mem_cons_self, rfl, rfl, hself.symm⟩
  · rw [Function.update_of_ne hsame] at hkey' ⊢
    exact h.cons _ key' hkey'

theorem dropQueries_query (now : Nat) (nut : NutConfig) (key : List UInt8) :
    (dropQueries now nut).query key =
      if nut.query key ≠ 0 ∧ now - nut.query key > nutEntryAge then 0 else nut.query key := rfl

theorem remembered_step (h : Remembered s.nut.query s.received) (step : QueryStep) :
    Remembered (queryStep s step).nut.query (queryStep s step).received := by
  cases step with
  | query now text =>
    rcases queryStep_query s now text with ⟨-, hs⟩ | ⟨-, -, hs⟩ | ⟨-, -, -, hs⟩ | ⟨-, -, hs⟩
    · rw [hs]
      exact h.cons _
    · rw [hs]
      exact h.cons _
    · rw [hs]
      exact h.cons _
    · rw [hs]
      exact h.update _ now
  | notify now =>
    intro key hkey
    change (dropQueries now s.nut).query key ≠ 0 at hkey
    change ∃ q ∈ s.received, q.key = key ∧ q.verdict = .accepted ∧
      q.now = (dropQueries now s.nut).query key
    rw [dropQueries_query] at hkey ⊢
    split_ifs at hkey ⊢
    · exact absurd rfl hkey
    · exact h key hkey

theorem refusedRight_cons (h : RefusedRight s) {r : Received} (hr : r.verdict = .tooRecent →
      ∃ q ∈ s.received, q.key = r.key ∧ q.verdict ≠ .invalid ∧
        r.now < q.now + nutQueryTooRecent) : RefusedRight ⟨nut, r :: s.received⟩ := by
  intro later r' earlier hsplit hverdict
  cases later with
  | nil =>
    obtain ⟨rfl, rfl⟩ := List.cons.inj hsplit
    exact hr hverdict
  | cons l later => exact h later r' earlier (List.cons.inj hsplit).2 hverdict

theorem refusedRight_step (hremembered : Remembered s.nut.query s.received) (h : RefusedRight s)
    (step : QueryStep) : RefusedRight (queryStep s step) := by
  cases step with
  | query now text =>
    rcases queryStep_query s now text with ⟨-, hs⟩ | ⟨hne, hrecent, hs⟩ | ⟨-, -, -, hs⟩ |
      ⟨-, -, hs⟩
    · rw [hs]
      exact refusedRight_cons h (fun hno => nomatch hno)
    · rw [hs]
      apply refusedRight_cons h
      intro _
      obtain ⟨q, hq, hkey, haccepted, hnow⟩ := hremembered _ hne
      refine ⟨q, hq, hkey, by rw [haccepted]; exact nofun, ?_⟩
      have hten : nutQueryTooRecent = 10 := rfl
      rw [hnow]
      dsimp only
      omega
    · rw [hs]
      exact refusedRight_cons h (fun hno => nomatch hno)
    · rw [hs]
      exact refusedRight_cons h (fun hno => nomatch hno)
  | notify now => exact h

/-! ## Accepted queries -/

/-- What the table knows of the queries accepted: a time that is not before theirs, or that they
are long ago. -/
def Dated (query : List UInt8 → Nat) (received : List Received) (clock : Nat) : Prop :=
  ∀ r ∈ received, r.verdict = .accepted → r.now ≤ clock ∧
    ((query r.key = 0 ∧ r.now + nutEntryAge < clock) ∨ (query r.key ≠ 0 ∧ r.now ≤ query r.key))

theorem Dated.later {query : List UInt8 → Nat} {clock now : Nat} (h : Dated query received clock)
    (hnow : clock ≤ now) : Dated query received now := by
  intro r hr haccepted
  obtain ⟨hle, ⟨hnone, hage⟩ | hentry⟩ := h r hr haccepted
  · exact ⟨by omega, Or.inl ⟨hnone, by omega⟩⟩
  · exact ⟨by omega, Or.inr hentry⟩

theorem Dated.cons {query : List UInt8 → Nat} {clock : Nat} (h : Dated query received clock)
    {r : Received} (hr : r.verdict ≠ .accepted) :
    Dated query (r :: received) clock := by
  intro q hq haccepted
  rcases List.mem_cons.mp hq with rfl | hq
  · exact absurd haccepted hr
  · exact h q hq haccepted

theorem Dated.update {query : List UInt8 → Nat} {now : Nat} (h : Dated query received now)
    (hnow : now ≠ 0) (key : List UInt8) :
    Dated (Function.update query key now) (⟨now, key, .accepted⟩ :: received) now := by
  intro q hq haccepted
  have hself : Function.update query key now key = now := Function.update_self ..
  rcases List.mem_cons.mp hq with rfl | hq
  · refine ⟨Nat.le_refl _, Or.inr ?_⟩
    dsimp only
    rw [hself]
    exact ⟨hnow, Nat.le_refl _⟩
  · obtain ⟨hle, hentry⟩ := h q hq haccepted
    refine ⟨hle, ?_⟩
    by_cases hsame : q.key = key
    · rw [hsame, hself]
      exact Or.inr ⟨hnow, hle⟩
    · rw [Function.update_of_ne hsame]
      exact hentry

theorem Dated.drop {now : Nat} (h : Dated nut.query received now) :
    Dated (dropQueries now nut).query received now := by
  intro q hq haccepted
  obtain ⟨hle, hentry⟩ := h q hq haccepted
  refine ⟨hle, ?_⟩
  rw [dropQueries_query]
  rcases hentry with hnone | ⟨hne, htime⟩
  · rw [if_neg (fun hdrop => hdrop.1 hnone.1)]
    exact Or.inl hnone
  · split_ifs with hdrop
    · exact Or.inl ⟨rfl, by omega⟩
    · exact Or.inr ⟨hne, htime⟩

theorem spaced_cons (h : Spaced s) {r : Received}
    (hr : r.verdict = .accepted → ∀ q ∈ s.received, q.verdict = .accepted → r.key = q.key →
      q.now + nutQueryTooRecent ≤ r.now) : Spaced ⟨nut, r :: s.received⟩ :=
  List.pairwise_cons.mpr ⟨fun q hq hlater hearlier hkey => hr hlater q hq hearlier hkey, h⟩

/-- A query that meets no old time keeps accepted queries apart. -/
theorem spaced_step {clock : Nat} (hdated : Dated s.nut.query s.received clock) (h : Spaced s)
    {step : QueryStep} (hclock : clock ≤ step.now) (hmeets : MeetsRecent s step) :
    Dated (queryStep s step).nut.query (queryStep s step).received step.now ∧
      Spaced (queryStep s step) := by
  have hlater := hdated.later hclock
  cases step with
  | query now text =>
    rcases queryStep_query s now text with ⟨-, hs⟩ | ⟨-, -, hs⟩ | ⟨htext, hne, hold, -⟩ |
      ⟨htext, hnone, hs⟩
    · rw [hs]
      exact ⟨hlater.cons nofun, spaced_cons h (fun hno => nomatch hno)⟩
    · rw [hs]
      exact ⟨hlater.cons nofun, spaced_cons h (fun hno => nomatch hno)⟩
    · exact absurd ((hmeets htext).2 hne) hold
    · rw [hs]
      refine ⟨hlater.update (hmeets htext).1 _, spaced_cons h ?_⟩
      intro _ q hq haccepted hkey
      -- the time of an equal query was deleted after three minutes
      obtain ⟨-, ⟨-, hage⟩ | ⟨hne, -⟩⟩ := hlater q hq haccepted
      · have hages : nutEntryAge = 180 ∧ nutQueryTooRecent = 10 := ⟨rfl, rfl⟩
        dsimp only [QueryStep.now] at hage ⊢
        omega
      · exact absurd (hkey ▸ hnone) hne
  | notify now => exact ⟨hlater.drop, h⟩

/-! ## Runs -/

/-- The times of the steps do not decrease. -/
def Ordered (steps : List QueryStep) : Prop := (steps.map QueryStep.now).Pairwise (· ≤ ·)

theorem queryRun_concat (nut : NutConfig) (pre : List QueryStep) (step : QueryStep) :
    queryRun nut (pre ++ [step]) = queryStep (queryRun nut pre) step :=
  foldl_concat queryStep _ pre step

theorem refusedRight_run (hempty : ∀ key, nut.query key = 0) (steps : List QueryStep) :
    RefusedRight (queryRun nut steps) := by
  have h := foldl_invariant queryStep
    (fun s => Remembered s.nut.query s.received ∧ RefusedRight s)
    (fun s step hs => ⟨remembered_step hs.1 step, refusedRight_step hs.1 hs.2 step⟩) steps
    ⟨nut, []⟩ ⟨fun key hkey => absurd (hempty key) hkey, fun _ _ _ hsplit => by simp at hsplit⟩
  exact h.2

/-- The time of the last step. -/
def lastTime (steps : List QueryStep) : Nat := (steps.map QueryStep.now).getLastD 0

theorem lastTime_le {pre : List QueryStep} {step : QueryStep} (h : Ordered (pre ++ [step])) :
    lastTime pre ≤ step.now := by
  unfold Ordered at h
  unfold lastTime
  rw [List.map_append, List.pairwise_append] at h
  rcases List.eq_nil_or_concat (pre.map QueryStep.now) with hnil | ⟨init, last, hconcat⟩
  · rw [hnil]
    exact Nat.zero_le _
  · rw [hconcat, List.concat_eq_append, List.getLastD_concat]
    exact h.2.2 last (by simp [hconcat]) step.now (by simp)

theorem spaced_run {steps : List QueryStep} (hordered : Ordered steps)
    (hmeets : ∀ pre step, pre ++ [step] <+: steps → MeetsRecent (queryRun nut pre) step) :
    ∀ pre, pre <+: steps → Spaced (queryRun nut pre) := by
  have hall : ∀ pre, pre <+: steps →
      Dated (queryRun nut pre).nut.query (queryRun nut pre).received (lastTime pre) ∧
        Spaced (queryRun nut pre) := by
    intro pre
    induction pre using List.reverseRecOn with
    | nil =>
      intro _
      exact ⟨fun r hr => absurd hr List.not_mem_nil, List.Pairwise.nil⟩
    | append_singleton pre step ih =>
      intro hpre
      obtain ⟨hdated, hspaced⟩ := ih (prefix_of_concat hpre)
      have hsorted : Ordered (pre ++ [step]) :=
        List.Pairwise.sublist (hpre.sublist.map QueryStep.now) hordered
      have hlast : lastTime (pre ++ [step]) = step.now := by
        unfold lastTime
        rw [List.map_append, List.map_singleton, List.getLastD_concat]
      rw [queryRun_concat, hlast]
      exact spaced_step hdated hspaced (lastTime_le hsorted) (hmeets pre step hpre)
  exact fun pre hpre => (hall pre hpre).2

/-- A query is refused as too recent only when it is, in every run. Accepted queries are ten
seconds apart in every run in which no query meets a time that is older. -/
theorem queryLimit (nut : NutConfig) (hempty : ∀ key, nut.query key = 0) (steps : List QueryStep)
    (hordered : Ordered steps) :
    (∀ pre, pre <+: steps → RefusedRight (queryRun nut pre)) ∧
      ((∀ pre step, pre ++ [step] <+: steps → MeetsRecent (queryRun nut pre) step) →
        ∀ pre, pre <+: steps → Spaced (queryRun nut pre)) :=
  ⟨fun pre _ => refusedRight_run hempty pre, spaced_run hordered⟩

theorem queryLimit_three :
    Spaced (queryRun (startConfig 7)
      [.query 100 [97], .query 105 [97], .notify 300, .query 301 [65]]) := by
  have h := queryLimit (startConfig 7) (fun _ => rfl)
    [.query 100 [97], .query 105 [97], .notify 300, .query 301 [65]]
    (by simp [Ordered, QueryStep.now])
  apply h.2 ?_ _ (List.prefix_refl _)
  apply forall_steps
  intro n step hstep
  rcases n with _ | _ | _ | _ | n
  · obtain rfl := Option.some.inj hstep
    exact fun _ => ⟨by decide, fun hne => absurd rfl hne⟩
  · obtain rfl := Option.some.inj hstep
    exact fun _ => ⟨by decide, fun _ => by decide⟩
  · obtain rfl := Option.some.inj hstep
    trivial
  · obtain rfl := Option.some.inj hstep
    exact fun _ => ⟨by decide, fun hne => absurd (by decide) hne⟩
  · simp at hstep

/-- The third query meets the time of the first one, and follows the second at once. -/
theorem not_spaced_third :
    ¬ ∀ (nut : NutConfig) (steps : List QueryStep), (∀ key, nut.query key = 0) →
      Ordered steps → Spaced (queryRun nut steps) := by
  intro h
  have hspaced := h (startConfig 7) [.query 100 [97], .query 110 [97], .query 111 [97]]
    (fun _ => rfl) (by simp [Ordered, QueryStep.now])
  have hreceived : (queryRun (startConfig 7) [.query 100 [97], .query 110 [97],
      .query 111 [97]]).received =
      [⟨111, [97], .accepted⟩, ⟨110, [97], .accepted⟩, ⟨100, [97], .accepted⟩] := by decide
  unfold Spaced at hspaced
  rw [hreceived] at hspaced
  have hlast := (List.pairwise_cons.mp hspaced).1 ⟨110, [97], .accepted⟩ (by simp) rfl rfl rfl
  exact absurd hlast (by decide)

end Serveez.Nut
