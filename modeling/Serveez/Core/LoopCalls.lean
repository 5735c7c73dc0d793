import Serveez.Core.Children
import Serveez.Core.Loop

/-!
# The callbacks of a round

When `select` or `poll` has answered, the loop calls the callbacks of the sockets whose descriptors
are ready. A callback is a function on the whole state of the server. It may fail, and its socket
is then scheduled for shutdown. The loop behind `poll` ends when it has seen as many entries with
an event as `poll` has counted.

* `svzSockScheduleForShutdown_shows`: scheduling for shutdown is that of the list of sockets.
* `pollLoop_counted`: it leaves no event out.
* `pollLoop_once`: the loop calls no callback of a socket after one has failed.
* `pollLoop_errors`: every connection with an error is scheduled for shutdown.
* `svzSockCheckBogus_valid`: after `EBADF`, no descriptor is asked for that is not valid.
-/

namespace Serveez.Core.Loop

open Lib

/-- The list of sockets, the sockets by their addresses, and all else. -/
structure World (σ : Type) where
  order : List Nat
  sock : Nat → Sock
  rest : σ

variable {σ : Type}

/-! ## Scheduling for shutdown -/

def World.kill (w : World σ) (i : Nat) : World σ :=
  { w with sock := Function.update w.sock i { w.sock i with killed := true } }

/-- The loop over the list for a listener; `schedule` is the function for a child. -/
def scheduleChild (schedule : World σ → Nat → World σ) (i : Nat) (w : World σ) (child : Nat) :
    World σ :=
  if (w.sock child).parent = some i then schedule w child else w

/-- `svz_sock_schedule_for_shutdown`; a listener takes its children with it. -/
def scheduleIn : Nat → World σ → Nat → World σ
  | 0, w, _ => w
  | fuel + 1, w, i =>
    if (w.sock i).killed then w
    else if (w.sock i).listening then
      w.order.foldl (scheduleChild (scheduleIn fuel) i) (w.kill i)
    else w.kill i

/-- The calls are nested at most as deep as there are sockets to kill. -/
def svzSockScheduleForShutdown (w : World σ) (i : Nat) : World σ :=
  scheduleIn (w.order.length + 1) w i

/-- Only `SVZ_SOFLG_KILLED` has changed, and it has not been taken back. -/
structure Kills (w w' : World σ) : Prop where
  order : w'.order = w.order
  rest : w'.rest = w.rest
  sock : ∀ j, w'.sock j = { w.sock j with killed := (w'.sock j).killed }
  killed : ∀ j, (w.sock j).killed = true → (w'.sock j).killed = true

theorem Kills.refl (w : World σ) : Kills w w := ⟨rfl, rfl, fun _ => rfl, fun _ h => h⟩

theorem Kills.trans {w w' w'' : World σ} (h : Kills w w') (h' : Kills w' w'') : Kills w w'' where
  order := h'.order.trans h.order
  rest := h'.rest.trans h.rest
  sock := fun j => by
    rw [h'.sock j, h.sock j]
  killed := fun j hj => h'.killed j (h.killed j hj)

theorem kills_kill (w : World σ) (i : Nat) : Kills w (w.kill i) where
  order := rfl
  rest := rfl
  sock := fun j => by
    by_cases hj : j = i
    · subst hj
      simp [World.kill]
    · simp [World.kill, hj]
  killed := fun j hj => by
    by_cases hji : j = i
    · subst hji
      simp [World.kill]
    · simpa [World.kill, hji] using hj

theorem scheduleChild_kills {schedule : World σ → Nat → World σ}
    (hschedule : ∀ w i, Kills w (schedule w i)) (i : Nat) (w : World σ) (child : Nat) :
    Kills w (scheduleChild schedule i w child) := by
  unfold scheduleChild
  split_ifs
  · exact hschedule w child
  · exact Kills.refl w

theorem scheduleIn_kills (fuel : Nat) :
    ∀ (w : World σ) (i : Nat), Kills w (scheduleIn fuel w i) := by
  induction fuel with
  | zero => exact fun w _ => Kills.refl w
  | succ fuel ih =>
    intro w i
    unfold scheduleIn
    split_ifs
    · exact Kills.refl w
    · apply foldl_invariant _ (Kills w) _ _ _ (kills_kill w i)
      exact fun w' child h => h.trans (scheduleChild_kills ih i w' child)
    · exact kills_kill w i

theorem svzSockScheduleForShutdown_kills (w : World σ) (i : Nat) :
    Kills w (svzSockScheduleForShutdown w i) := scheduleIn_kills _ w i

theorem svzSockScheduleForShutdown_killed (w : World σ) (i : Nat) :
    ((svzSockScheduleForShutdown w i).sock i).killed = true := by
  have hself : ((w.kill i).sock i).killed = true := by simp [World.kill]
  unfold svzSockScheduleForShutdown scheduleIn
  split_ifs with hkilled
  · exact hkilled
  · apply foldl_invariant _ (fun w' : World σ => (w'.sock i).killed = true) _ _ _ hself
    exact fun w' child h => (scheduleChild_kills (scheduleIn_kills _) i w' child).killed i h
  · exact hself

/-! ## The list of sockets -/

variable {f : Family} {l : List Addr} {killed : Addr → Bool} {w : World σ}

/-- What the loop knows of the sockets of the list: their flags, and their parents as they are
found. -/
structure Shows (f : Family) (l : List Addr) (killed : Addr → Bool) (w : World σ) : Prop where
  order : w.order = l
  killed : ∀ i, (w.sock i).killed = killed i
  listening : ∀ i s, f.core.heap i = some s → (w.sock i).listening = s.attrs.flags.listening
  parent : ∀ i, svzSockGetparent f i = .ok (w.sock i).parent

theorem Shows.kill (h : Shows f l killed w) (i : Addr) :
    Shows f l (Function.update killed i true) (w.kill i) where
  order := h.order
  killed := fun j => by
    by_cases hj : j = i
    · subst hj
      simp [World.kill]
    · simp [World.kill, hj, h.killed]
  listening := fun j s hs => by
    rw [(kills_kill w i).sock j]
    exact h.listening j s hs
  parent := fun j => by
    rw [(kills_kill w i).sock j]
    exact h.parent j

theorem Shows.children {schedule : (Addr → Bool) → Addr → Except Fault (Addr → Bool)}
    {schedule' : World σ → Addr → World σ}
    (hschedule : ∀ killed killed' w child, Shows f l killed w →
      schedule killed child = .ok killed' → Shows f l killed' (schedule' w child)) (i : Addr) :
    ∀ (rest : List Addr) (killed killed' : Addr → Bool) (w : World σ), Shows f l killed w →
      rest.foldlM (shutdownChild f schedule i) killed = .ok killed' →
      Shows f l killed' (rest.foldl (scheduleChild schedule' i) w) := by
  intro rest
  induction rest with
  | nil =>
    intro killed killed' w h hrun
    obtain rfl := Except.ok.inj hrun
    exact h
  | cons child rest ih =>
    intro killed killed' w h hrun
    rw [List.foldlM_cons] at hrun
    obtain ⟨next, hnext, hrun⟩ := of_bind_eq_ok hrun
    refine ih next killed' _ ?_ hrun
    rw [shutdownChild, h.parent child, ok_bind] at hnext
    unfold scheduleChild
    split_ifs at hnext ⊢ with hparent
    · exact hschedule killed next w child h hnext
    · obtain rfl := Except.ok.inj hnext
      exact h

theorem scheduleIn_shows (hcoherent : Coherent f.core l) (fuel : Nat) :
    ∀ (killed killed' : Addr → Bool) (w : World σ) (i : Addr), Shows f l killed w →
      Core.scheduleIn f fuel killed i = .ok killed' →
      Shows f l killed' (scheduleIn fuel w i) := by
  induction fuel with
  | zero =>
    intro killed killed' w i _ hrun
    cases hrun
  | succ fuel ih =>
    intro killed killed' w i h hrun
    cases hheap : f.core.heap i with
    | none =>
      rw [Core.scheduleIn, State.load, hheap] at hrun
      cases hrun
    | some s =>
      rw [Core.scheduleIn, load_eq hheap, ok_bind] at hrun
      dsimp only at hrun
      rw [svzSockForeach_eq hcoherent] at hrun
      unfold scheduleIn
      rw [h.killed i, h.listening i s hheap, h.order]
      split_ifs at hrun ⊢
      · obtain rfl := Except.ok.inj hrun
        exact h
      · exact Shows.children ih i l _ _ _ (h.kill i) hrun
      · obtain rfl := Except.ok.inj hrun
        exact h.kill i

/-- The loop schedules a socket of the list for shutdown as the list does. -/
theorem svzSockScheduleForShutdown_shows (hcoherent : Coherent f.core l)
    (h : Shows f l f.killed w) {i : Addr} (hi : i ∈ l) :
    ∃ killed, Core.svzSockScheduleForShutdown f i = .ok killed ∧
      Shows f l killed (svzSockScheduleForShutdown w i) := by
  obtain ⟨s, hs, -⟩ := hcoherent.live hi
  have hsome := Option.isSome_iff_exists.mpr ⟨s, hs⟩
  have hcount (hlive : f.killed i = false) :
      liveCount l (Function.update f.killed i true) < l.length :=
    (liveCount_update_lt hi hlive).trans_le List.countP_le_length
  have hlength := hcoherent.length_le
  obtain ⟨killed, hrun, hmarks⟩ := scheduleIn_spec hcoherent (f.core.sockLimit + 2) f.killed i hsome
    (Nat.succ_pos _) fun hlive => by
      have hless := hcount hlive
      omega
  obtain ⟨killed', hrun', hmarks'⟩ := scheduleIn_spec hcoherent (l.length + 1) f.killed i hsome
    (Nat.succ_pos _) fun hlive => Nat.succ_lt_succ (hcount hlive)
  have hsame : killed' = killed :=
    funext fun q => Bool.eq_iff_iff.mpr ((hmarks'.iff_reaches q).trans (hmarks.iff_reaches q).symm)
  refine ⟨killed, hrun, ?_⟩
  rw [svzSockScheduleForShutdown, h.order]
  exact scheduleIn_shows hcoherent _ _ _ _ _ h (hsame ▸ hrun')

/-! ## Calls -/

/-- A callback that has been called for a socket, and what it has returned. -/
structure Call where
  sock : Nat
  callback : Callback
  ret : Int

structure Round (σ : Type) where
  world : World σ
  calls : List Call

/-- The callbacks that are set. -/
abbrev Callbacks (σ : Type) := Callback → Nat → World σ → World σ × Int

/-- Schedule a socket for shutdown. -/
def Round.schedule (r : Round σ) (i : Nat) : Round σ :=
  { r with world := svzSockScheduleForShutdown r.world i }

/-- Call a callback of a socket, if it is set. -/
def invoke (call : Callbacks σ) (cb : Callback) (i : Nat) (r : Round σ) : Round σ × Bool :=
  if (r.world.sock i).has cb then
    let x := call cb i r.world
    (⟨x.1, r.calls ++ [⟨i, cb, x.2⟩]⟩, decide (x.2 ≠ 0))
  else (r, false)

/-- If `ready`, call a callback; schedule the socket and `continue` if it fails, and go on with
`next` otherwise. -/
def attempt (call : Callbacks σ) (ready : Bool) (cb : Callback) (i : Nat)
    (next : Round σ → Round σ) (r : Round σ) : Round σ :=
  if ready then
    let x := invoke call cb i r
    if x.2 then x.1.schedule i else next x.1
  else next r

/-- A socket that is connecting is connected when it is writable. -/
def attemptWrite (call : Callbacks σ) (ready : Bool) (i : Nat) (next : Round σ → Round σ)
    (r : Round σ) : Round σ :=
  attempt call ready (if (r.world.sock i).connecting then .connectedSocket else .writeSocket) i
    next r

/-- After a call has returned. -/
def Round.after (call : Callbacks σ) (cb : Callback) (i : Nat) (r : Round σ) : Round σ :=
  ⟨(call cb i r.world).1, r.calls ++ [⟨i, cb, (call cb i r.world).2⟩]⟩

/-- There is no call, or one that is well, or one that fails. -/
theorem attempt_cases (call : Callbacks σ) (ready : Bool) (cb : Callback) (i : Nat)
    (next : Round σ → Round σ) (r : Round σ) :
    ((ready = false ∨ (r.world.sock i).has cb = false) ∧
        attempt call ready cb i next r = next r) ∨
    (ready = true ∧ (r.world.sock i).has cb = true ∧ (call cb i r.world).2 = 0 ∧
        attempt call ready cb i next r = next (r.after call cb i)) ∨
    (ready = true ∧ (r.world.sock i).has cb = true ∧ (call cb i r.world).2 ≠ 0 ∧
        attempt call ready cb i next r = (r.after call cb i).schedule i) := by
  cases ready with
  | false => exact Or.inl ⟨Or.inl rfl, rfl⟩
  | true =>
    cases hset : (r.world.sock i).has cb with
    | false => exact Or.inl ⟨Or.inr rfl, by simp [attempt, invoke, hset]⟩
    | true =>
      by_cases hret : (call cb i r.world).2 = 0
      · refine Or.inr (Or.inl ⟨rfl, rfl, hret, ?_⟩)
        simp [attempt, invoke, hset, hret, Round.after]
      · refine Or.inr (Or.inr ⟨rfl, rfl, hret, ?_⟩)
        simp [attempt, invoke, hset, hret, Round.after]

/-! ## The loop behind `poll` -/

/-- `revents`; `error` is any of `POLLERR`, `POLLHUP` and `POLLNVAL`. -/
structure Revents where
  pri : Bool
  pollIn : Bool
  pollOut : Bool
  error : Bool
deriving DecidableEq

def Revents.nonzero (ev : Revents) : Bool := ev.pri || ev.pollIn || ev.pollOut || ev.error

def Round.scheduleIf (r : Round σ) (flag : Bool) (i : Nat) : Round σ :=
  if flag then r.schedule i else r

/-- The descriptor has caused some error. -/
def pollError (ev : Revents) (i : Nat) (r : Round σ) : Round σ :=
  if ev.error then
    let r := r.scheduleIf (r.world.sock i).sock i
    let r := r.scheduleIf (r.world.sock i).recvPipe i
    r.scheduleIf (r.world.sock i).sendPipe i
  else r

/-- The body of the loop. -/
def pollEntry (call : Callbacks σ) (ev : Revents) (i : Nat) (r : Round σ) : Round σ :=
  if (r.world.sock i).killed then r
  else
    attempt call ev.pri .readSocketOob i (attempt call ev.pollIn .readSocket i
      (attemptWrite call ev.pollOut i (pollError ev i))) r

/-- The loop over the entries, with what `poll` has returned. -/
def pollLoop (call : Callbacks σ) : List (Revents × Nat) → Int → Round σ → Round σ
  | [], _, r => r
  | (ev, i) :: entries, polled, r =>
    if polled = 0 then r
    else
      pollLoop call entries (if ev.nonzero then polled - 1 else polled) (pollEntry call ev i r)

variable {call : Callbacks σ}

theorem pollLoop_invariant {I : Round σ → Prop}
    (hentry : ∀ r ev i, I r → I (pollEntry call ev i r)) (entries : List (Revents × Nat)) :
    ∀ (polled : Int) (r : Round σ), I r → I (pollLoop call entries polled r) := by
  induction entries with
  | nil => exact fun _ _ h => h
  | cons e entries ih =>
    intro polled r h
    rw [pollLoop]
    split_ifs
    · exact h
    · exact ih _ _ (hentry r e.1 e.2 h)
    · exact ih _ _ (hentry r e.1 e.2 h)

theorem pollEntry_zero {ev : Revents} (hev : ev.nonzero = false) (i : Nat) (r : Round σ) :
    pollEntry call ev i r = r := by
  obtain ⟨pri, pollIn, pollOut, error⟩ := ev
  simp only [Revents.nonzero, Bool.or_eq_false_iff] at hev
  obtain ⟨⟨⟨rfl, rfl⟩, rfl⟩, rfl⟩ := hev
  simp [pollEntry, attempt, attemptWrite, pollError]

/-- How many entries have an event. -/
def counted (entries : List (Revents × Nat)) : Nat := entries.countP fun e => e.1.nonzero

/-- When `poll` returns the number of entries with an event, the loop does to the server what it
would do if it went over all entries. -/
theorem pollLoop_counted (call : Callbacks σ) (entries : List (Revents × Nat)) :
    ∀ r : Round σ, pollLoop call entries (counted entries) r =
      entries.foldl (fun r e => pollEntry call e.1 e.2 r) r := by
  induction entries with
  | nil => exact fun _ => rfl
  | cons e entries ih =>
    intro r
    obtain ⟨ev, i⟩ := e
    rw [List.foldl_cons, pollLoop]
    cases hev : ev.nonzero with
    | true =>
      have hcount : counted ((ev, i) :: entries) = counted entries + 1 := by
        simp [counted, hev]
      rw [hcount, if_neg (by omega), if_pos rfl, ← ih]
      congr 1
      omega
    | false =>
      have hcount : counted ((ev, i) :: entries) = counted entries := by
        simp [counted, hev]
      rw [hcount, pollEntry_zero hev, if_neg Bool.false_ne_true]
      split_ifs with hzero
      · -- no entry that is left has an event
        rw [← ih]
        cases entries with
        | nil => rfl
        | cons e entries => rw [hzero, pollLoop, if_pos rfl]
      · exact ih r

/-- A server whose sockets are connections. -/
def usualWorld : World Unit := ⟨[7], fun _ => usualSock, ()⟩

/-! ## No callback after a failure -/

/-- No callback clears `SVZ_SOFLG_KILLED`. -/
def KeepsKilled (call : Callbacks σ) : Prop :=
  ∀ cb i w j, (w.sock j).killed = true → ((call cb i w).1.sock j).killed = true

/-- Once a callback of a socket has failed, none of the socket is called. -/
def Once (calls : List Call) : Prop := calls.Pairwise fun a b => a.ret ≠ 0 → b.sock ≠ a.sock

/-- The sockets with a failure are scheduled for shutdown. -/
structure Safe (r : Round σ) : Prop where
  once : Once r.calls
  killed : ∀ c ∈ r.calls, c.ret ≠ 0 → (r.world.sock c.sock).killed = true

/-- No callback of the socket has failed yet. -/
def Spared (i : Nat) (r : Round σ) : Prop := ∀ c ∈ r.calls, c.ret ≠ 0 → c.sock ≠ i

variable {r : Round σ}

theorem Safe.schedule (h : Safe r) (i : Nat) : Safe (r.schedule i) where
  once := h.once
  killed := fun c hc hret =>
    (svzSockScheduleForShutdown_kills r.world i).killed c.sock (h.killed c hc hret)

theorem Safe.spared (h : Safe r) {i : Nat} (hi : (r.world.sock i).killed = false) :
    Spared i r := by
  rintro c hc hret rfl
  exact Bool.false_ne_true (hi.symm.trans (h.killed c hc hret))

/-- A call for a socket of which none has failed. -/
theorem Safe.after (hkeep : KeepsKilled call) (h : Safe r) {i : Nat} (hspared : Spared i r)
    (cb : Callback) : Once (r.after call cb i).calls ∧
      ∀ c ∈ r.calls, c.ret ≠ 0 → ((r.after call cb i).world.sock c.sock).killed = true := by
  refine ⟨List.pairwise_append.mpr ⟨h.once, List.pairwise_singleton _ _, ?_⟩, ?_⟩
  · intro c hc c' hc' hret
    rw [List.mem_singleton.mp hc']
    exact (hspared c hc hret).symm
  · exact fun c hc hret => hkeep cb i r.world c.sock (h.killed c hc hret)

theorem attempt_safe (hkeep : KeepsKilled call) {ready : Bool} {cb : Callback} {i : Nat}
    {next : Round σ → Round σ} (hnext : ∀ r, Safe r → Spared i r → Safe (next r)) (h : Safe r)
    (hspared : Spared i r) :
    Safe (attempt call ready cb i next r) := by
  obtain ⟨honce, hkilled⟩ := h.after hkeep hspared cb
  obtain ⟨-, hnone⟩ | ⟨-, -, hret, hwell⟩ | ⟨-, -, hret, hfail⟩ :=
    attempt_cases call ready cb i next r
  · rw [hnone]
    exact hnext r h hspared
  · have hsplit : ∀ c ∈ (r.after call cb i).calls, c.ret ≠ 0 → c ∈ r.calls := by
      intro c hc hne
      obtain hc | hc := List.mem_append.mp hc
      · exact hc
      · rw [List.mem_singleton.mp hc] at hne
        exact absurd hret hne
    rw [hwell]
    apply hnext
    · exact ⟨honce, fun c hc hne => hkilled c (hsplit c hc hne) hne⟩
    · exact fun c hc hne => hspared c (hsplit c hc hne) hne
  · rw [hfail]
    refine ⟨honce, fun c hc hne => ?_⟩
    obtain hc | hc := List.mem_append.mp hc
    · exact (svzSockScheduleForShutdown_kills _ i).killed c.sock (hkilled c hc hne)
    · rw [List.mem_singleton.mp hc]
      exact svzSockScheduleForShutdown_killed _ i

theorem Safe.scheduleIf (h : Safe r) (flag : Bool) (i : Nat) :
    Safe (r.scheduleIf flag i) := by
  unfold Round.scheduleIf
  split_ifs
  · exact h.schedule i
  · exact h

theorem pollError_safe {ev : Revents} {i : Nat} (h : Safe r) :
    Safe (pollError ev i r) := by
  unfold pollError
  split_ifs
  · exact ((h.scheduleIf _ i).scheduleIf _ i).scheduleIf _ i
  · exact h

theorem pollEntry_safe (hkeep : KeepsKilled call) (ev : Revents) (i : Nat) (h : Safe r) :
    Safe (pollEntry call ev i r) := by
  unfold pollEntry
  split_ifs with hkilled
  · exact h
  · apply attempt_safe hkeep _ h (h.spared (Bool.eq_false_iff.mpr hkilled))
    intro r h hspared
    apply attempt_safe hkeep _ h hspared
    intro r h hspared
    exact attempt_safe hkeep (fun r h _ => pollError_safe h) h hspared

/-- Whatever the callbacks do, and however many events `poll` has counted: when a callback of a
socket has failed, the loop calls no further one of the socket. The idle callback may still be
called behind the loop, by `svz_periodic_tasks`. -/
theorem pollLoop_once (hkeep : KeepsKilled call) (entries : List (Revents × Nat)) (polled : Int)
    (w : World σ) : Once (pollLoop call entries polled ⟨w, []⟩).calls := by
  have hsafe : Safe (pollLoop call entries polled ⟨w, []⟩) :=
    pollLoop_invariant (fun _ ev i h => pollEntry_safe hkeep ev i h) entries polled ⟨w, []⟩
      ⟨List.Pairwise.nil, by simp⟩
  exact hsafe.once

/-- A callback fails that two entries of a socket would call. -/
theorem pollLoop_once_failing :
    let call : Callbacks Unit := fun _ _ w => (w, -1)
    let ready : Revents := ⟨false, true, true, false⟩
    Once (pollLoop call [(ready, 7), (ready, 7)] 2 ⟨usualWorld, []⟩).calls :=
  pollLoop_once (fun _ _ _ _ h => h) _ 2 usualWorld

/-! ## Errors -/

/-- No callback clears `SVZ_SOFLG_SOCK`. -/
def KeepsSock (call : Callbacks σ) : Prop :=
  ∀ cb i w j, (w.sock j).sock = true → ((call cb i w).1.sock j).sock = true

/-- The callbacks and a shutdown keep it. -/
structure Kept (call : Callbacks σ) (P : World σ → Prop) : Prop where
  call : ∀ cb i w, P w → P (call cb i w).1
  schedule : ∀ w i, P w → P (svzSockScheduleForShutdown w i)

theorem kept_killed (hkeep : KeepsKilled call) (j : Nat) :
    Kept call fun w => (w.sock j).killed = true :=
  ⟨fun cb i w => hkeep cb i w j, fun w i => (svzSockScheduleForShutdown_kills w i).killed j⟩

theorem kept_sock (hsock : KeepsSock call) (j : Nat) :
    Kept call fun w => (w.sock j).sock = true := by
  refine ⟨fun cb i w => hsock cb i w j, fun w i h => ?_⟩
  rw [(svzSockScheduleForShutdown_kills w i).sock j]
  exact h

variable {P : World σ → Prop}

theorem Kept.scheduleIf (hP : Kept call P) (flag : Bool) (i : Nat) (h : P r.world) :
    P (r.scheduleIf flag i).world := by
  unfold Round.scheduleIf
  split_ifs
  · exact hP.schedule r.world i h
  · exact h

theorem Kept.attempt (hP : Kept call P) (ready : Bool) (cb : Callback) (i : Nat)
    {next : Round σ → Round σ} (hnext : ∀ r, P r.world → P (next r).world) (h : P r.world) :
    P (attempt call ready cb i next r).world := by
  have hcalled := hP.call cb i r.world h
  obtain ⟨-, heq⟩ | ⟨-, -, -, heq⟩ | ⟨-, -, -, heq⟩ := attempt_cases call ready cb i next r
  · exact heq ▸ hnext r h
  · exact heq ▸ hnext _ hcalled
  · exact heq ▸ hP.schedule _ i hcalled

theorem Kept.pollEntry (hP : Kept call P) (ev : Revents) (i : Nat) (h : P r.world) :
    P (pollEntry call ev i r).world := by
  unfold Loop.pollEntry
  split_ifs
  · exact h
  · refine hP.attempt _ _ i (fun r h => hP.attempt _ _ i (fun r h => hP.attempt _ _ i ?_ h) h) h
    intro r h
    unfold pollError
    split_ifs
    · exact hP.scheduleIf _ i (hP.scheduleIf _ i (hP.scheduleIf _ i h))
    · exact h

theorem attempt_killed (hsock : KeepsSock call) (ready : Bool) (cb : Callback) {i : Nat}
    {next : Round σ → Round σ}
    (hnext : ∀ r, (r.world.sock i).sock = true → ((next r).world.sock i).killed = true)
    (hr : (r.world.sock i).sock = true) :
    ((attempt call ready cb i next r).world.sock i).killed = true := by
  obtain ⟨-, h⟩ | ⟨-, -, -, h⟩ | ⟨-, -, -, h⟩ := attempt_cases call ready cb i next r
  · exact h ▸ hnext r hr
  · exact h ▸ hnext _ (hsock cb i r.world i hr)
  · exact h ▸ svzSockScheduleForShutdown_killed _ i

theorem pollEntry_error (hkeep : KeepsKilled call) (hsock : KeepsSock call) {ev : Revents}
    (hev : ev.error = true) {i : Nat} (hr : (r.world.sock i).sock = true) :
    ((pollEntry call ev i r).world.sock i).killed = true := by
  have hP := kept_killed hkeep i
  unfold pollEntry
  split_ifs with hkilled
  · exact hkilled
  · refine attempt_killed hsock _ _ (fun r hr => ?_) hr
    refine attempt_killed hsock _ _ (fun r hr => ?_) hr
    refine attempt_killed hsock _ _ (fun r hr => ?_) hr
    simp only [pollError, hev, if_true]
    apply hP.scheduleIf
    apply hP.scheduleIf
    simp only [Round.scheduleIf, hr, if_true]
    exact svzSockScheduleForShutdown_killed _ i

/-- A connection with an error or a hangup is scheduled for shutdown when the round is over,
whatever the callbacks do, and although the loop does not go over all entries. -/
theorem pollLoop_errors (hkeep : KeepsKilled call) (hsock : KeepsSock call)
    {entries : List (Revents × Nat)} {ev : Revents} {i : Nat} (hmem : (ev, i) ∈ entries)
    (hev : ev.error = true) {w : World σ} (hi : (w.sock i).sock = true) :
    ((pollLoop call entries (counted entries) ⟨w, []⟩).world.sock i).killed = true := by
  have hloop : ∀ (entries : List (Revents × Nat)) (r : Round σ), (ev, i) ∈ entries →
      (r.world.sock i).sock = true →
      ((pollLoop call entries (counted entries) r).world.sock i).killed = true := by
    intro entries
    induction entries with
    | nil => exact fun _ hmem => absurd hmem List.not_mem_nil
    | cons e entries ih =>
      intro r hmem hr
      have hpos : 0 < counted (e :: entries) :=
        List.countP_pos_iff.mpr ⟨_, hmem, by simp [Revents.nonzero, hev]⟩
      rw [pollLoop, if_neg (by omega)]
      obtain rfl | hmem := List.mem_cons.mp hmem
      · apply pollLoop_invariant (I := fun r => (r.world.sock i).killed = true)
        · exact fun _ ev i' h => (kept_killed hkeep i).pollEntry ev i' h
        · exact pollEntry_error hkeep hsock hev hr
      · have hleft : (if e.1.nonzero then (counted (e :: entries) : Int) - 1
            else counted (e :: entries)) = counted entries := by
          cases he : e.1.nonzero <;> simp [counted, he]
        rw [hleft]
        exact ih _ hmem ((kept_sock hsock i).pollEntry e.1 e.2 hr)
  exact hloop entries ⟨w, []⟩ hmem hi

/-- A callback of one socket fails, and behind the entry with an error the loop stops. -/
theorem pollLoop_errors_usual :
    let call : Callbacks Unit := fun _ i w =>
      if i = 3 then (w, -1) else ({ w with order := i :: w.order }, 0)
    let entries : List (Revents × Nat) :=
      [(⟨false, true, false, false⟩, 3), (⟨false, false, false, false⟩, 4),
        (⟨false, true, true, true⟩, 7), (⟨false, false, false, false⟩, 9)]
    ((pollLoop call entries (counted entries) ⟨usualWorld, []⟩).world.sock 7).killed = true := by
  intro call entries
  have hkept : ∀ cb i w j, ((call cb i w).1.sock j) = w.sock j := by
    intro cb i w j
    dsimp only [call]
    split_ifs <;> rfl
  have hmem : ((⟨false, true, true, true⟩ : Revents), 7) ∈ entries := by decide
  exact pollLoop_errors (fun cb i w j h => (hkept cb i w j).symm ▸ h)
    (fun cb i w j h => (hkept cb i w j).symm ▸ h) hmem rfl rfl

/-! ## Descriptors that are not valid -/

/-- `valid` stands for the answers of `fcntl`. -/
def scheduleBogus (valid : Nat → Bool) (flag : Sock → Bool) (fd : Sock → Nat) (i : Nat)
    (w : World σ) : World σ :=
  if flag (w.sock i) && !valid (fd (w.sock i)) then svzSockScheduleForShutdown w i else w

/-- The sockets that the loop asks for. -/
def World.live (w : World σ) : List (Nat × Sock) :=
  (w.order.filter fun i => !(w.sock i).killed).map fun i => (i, w.sock i)

/-- A socket in `svz_sock_check_bogus`. -/
def bogusSock (valid : Nat → Bool) (w : World σ) (i : Nat) : World σ :=
  let w := scheduleBogus valid Sock.sock Sock.sockDesc i w
  let w := scheduleBogus valid Sock.recvPipe Sock.pipeRead i w
  scheduleBogus valid Sock.sendPipe Sock.pipeWrite i w

/-- `svz_sock_check_bogus`, which is called when the question had a descriptor that is none. -/
def svzSockCheckBogus (valid : Nat → Bool) (w : World σ) : World σ :=
  w.order.foldl (bogusSock valid) w

/-- A socket is killed, or a descriptor of it is valid. -/
def Passed (valid : Nat → Bool) (flag : Sock → Bool) (fd : Sock → Nat) (w : World σ) (i : Nat) :
    Prop :=
  (w.sock i).killed = true ∨ (flag (w.sock i) = true → valid (fd (w.sock i)) = true)

/-- All descriptors of it. -/
structure Checked (valid : Nat → Bool) (w : World σ) (i : Nat) : Prop where
  sock : Passed valid Sock.sock Sock.sockDesc w i
  recvPipe : Passed valid Sock.recvPipe Sock.pipeRead w i
  sendPipe : Passed valid Sock.sendPipe Sock.pipeWrite w i

variable {valid : Nat → Bool} {flag : Sock → Bool} {fd : Sock → Nat} {w w' : World σ} {i : Nat}

theorem scheduleBogus_spec (valid : Nat → Bool) (flag : Sock → Bool) (fd : Sock → Nat) (i : Nat)
    (w : World σ) : Kills w (scheduleBogus valid flag fd i w) ∧
      Passed valid flag fd (scheduleBogus valid flag fd i w) i := by
  unfold scheduleBogus
  split_ifs with hbogus
  · exact ⟨svzSockScheduleForShutdown_kills w i,
      Or.inl (svzSockScheduleForShutdown_killed w i)⟩
  · refine ⟨Kills.refl w, Or.inr fun hflag => ?_⟩
    simpa [hflag] using hbogus

theorem Passed.kills (h : Passed valid flag fd w i) (hkills : Kills w w')
    (hsame : ∀ s b, flag { s with killed := b } = flag s ∧ fd { s with killed := b } = fd s) :
    Passed valid flag fd w' i := by
  obtain hkilled | hvalid := h
  · exact Or.inl (hkills.killed i hkilled)
  · right
    rw [hkills.sock i, (hsame _ _).1, (hsame _ _).2]
    exact hvalid

theorem Checked.kills (h : Checked valid w i) (hkills : Kills w w') : Checked valid w' i :=
  ⟨h.sock.kills hkills fun _ _ => ⟨rfl, rfl⟩, h.recvPipe.kills hkills fun _ _ => ⟨rfl, rfl⟩,
    h.sendPipe.kills hkills fun _ _ => ⟨rfl, rfl⟩⟩

theorem bogusSock_spec (valid : Nat → Bool) (w : World σ) (i : Nat) :
    Kills w (bogusSock valid w i) ∧ Checked valid (bogusSock valid w i) i := by
  obtain ⟨hkills₁, hsock⟩ := scheduleBogus_spec valid Sock.sock Sock.sockDesc i w
  obtain ⟨hkills₂, hrecv⟩ := scheduleBogus_spec valid Sock.recvPipe Sock.pipeRead i
    (scheduleBogus valid Sock.sock Sock.sockDesc i w)
  obtain ⟨hkills₃, hsend⟩ := scheduleBogus_spec valid Sock.sendPipe Sock.pipeWrite i
    (scheduleBogus valid Sock.recvPipe Sock.pipeRead i
      (scheduleBogus valid Sock.sock Sock.sockDesc i w))
  exact ⟨hkills₁.trans (hkills₂.trans hkills₃),
    hsock.kills (hkills₂.trans hkills₃) fun _ _ => ⟨rfl, rfl⟩,
    hrecv.kills hkills₃ fun _ _ => ⟨rfl, rfl⟩, hsend⟩

theorem checked_all (valid : Nat → Bool) : ∀ (rest : List Nat) (w : World σ),
    Kills w (rest.foldl (bogusSock valid) w) ∧
      ∀ i ∈ rest, Checked valid (rest.foldl (bogusSock valid) w) i := by
  intro rest
  induction rest with
  | nil => exact fun w => ⟨Kills.refl w, by simp⟩
  | cons i rest ih =>
    intro w
    obtain ⟨hkills, hchecked⟩ := bogusSock_spec valid w i
    obtain ⟨hrest, hall⟩ := ih (bogusSock valid w i)
    refine ⟨hkills.trans hrest, fun j hj => ?_⟩
    obtain rfl | hj := List.mem_cons.mp hj
    · exact hchecked.kills hrest
    · exact hall j hj

/-- After `svz_sock_check_bogus` neither `select` nor `poll` is asked for a descriptor that is not
valid, so that it does not fail again for what it has failed for. -/
theorem svzSockCheckBogus_valid (valid : Nat → Bool) (w : World σ) (now : Int) :
    let live := (svzSockCheckBogus valid w).live
    let sets := selectPrepare now live
    (∀ fd ∈ sets.readFds ++ sets.writeFds ++ sets.exceptFds, valid fd = true) ∧
      ∀ t ∈ question now live, valid t.request.fd = true := by
  obtain ⟨hkills, hchecked⟩ : Kills w (svzSockCheckBogus valid w) ∧
      ∀ i ∈ w.order, Checked valid (svzSockCheckBogus valid w) i := checked_all valid w.order w
  have hdescs : ∀ fd ∈ (svzSockCheckBogus valid w).live.flatMap fun q => descriptors q.2,
      valid fd = true := by
    intro fd hfd
    obtain ⟨q, hq, hfd⟩ := List.mem_flatMap.mp hfd
    obtain ⟨i, hi, rfl⟩ := List.mem_map.mp hq
    obtain ⟨hi, hlive⟩ := List.mem_filter.mp hi
    have hnot := Bool.eq_false_iff.mp (by simpa using hlive)
    have h := hchecked i (hkills.order ▸ hi)
    obtain ⟨-, ⟨hflag, rfl⟩ | ⟨hflag, rfl⟩ | ⟨hflag, rfl⟩⟩ := mem_descriptors_iff.mp hfd
    · exact h.sendPipe.resolve_left hnot hflag
    · exact h.recvPipe.resolve_left hnot hflag
    · exact h.sock.resolve_left hnot hflag
  refine ⟨fun fd hfd => hdescs fd (selectPrepare_descriptors hfd), fun t ht => ?_⟩
  exact hdescs t.request.fd (question_descriptors ht)

end Serveez.Core.Loop
