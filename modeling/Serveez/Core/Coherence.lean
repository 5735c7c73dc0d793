import Serveez.Core.Ids
import Serveez.Lib.Runs

/-!
# The socket list stays coherent

* `svzSockShutdown_unlinks`, `svzSockShutdown_unlisted`: a shutdown that keeps the coherence.
* `svzSockShutdown_dangles`: a shutdown for which `dequeue` refuses to unlink a listed socket
  frees it all the same, and the list and the table keep its address.
* `validateListOfSocks_spec`: in a coherent core the validation finds the list in order.
* `apply_keepsIds`: what the steps other than allocations keep.
* `coherent_run_iff`: the core is coherent in every state of a run exactly if every socket
  that is shut down while listed has valid descriptors after its callback.
-/

namespace Serveez.Core

open Lib

/-! ## One shutdown -/

variable {p : Addr} {c : State} {l : List Addr} {s : Sock} {r : Int}

theorem disconnectedSocket_touched (hs : c.heap p = some s) (callback : Callback) :
    ∃ c', disconnectedSocket c p callback = .ok c' ∧ Touched p c c' ∧
      c'.heap p = some { s with attrs := callback.getD s.attrs } := by
  cases callback with
  | none => exact ⟨c, rfl, Touched.refl p c, hs⟩
  | some a => exact storeAttrs_touched hs p (fun _ => a) (fun hne => absurd rfl hne)

/-- The shutdown after `dequeue` has left the core `c₁`. -/
theorem svzSockShutdown_of_dequeue {c c₀ c₁ : State} {callback : Callback}
    (hcb : disconnectedSocket c p callback = .ok c₀) (hdeq : dequeue c₀ p = .ok (c₁, r))
    (h : Coherent c₁ l) (hs : c₁.heap p = some s) :
    ∃ c₂, svzSockShutdown c p callback = .ok (freed c₂ p) ∧ Touched p c₁ c₂ := by
  obtain ⟨c₂, c₃, h₂, h₃, ht⟩ := disconnect_touched h hs
  obtain ⟨s₃, hs₃⟩ := ht.live hs
  refine ⟨c₃, ?_, ht⟩
  unfold svzSockShutdown
  rw [hcb, ok_bind, hdeq, ok_bind]
  dsimp only
  rw [h₂, ok_bind, h₃, ok_bind, svzSockFree_eq hs₃]

theorem svzSockShutdown_unlinks {l₁ l₂ : List Addr} (h : Coherent c (l₁ ++ p :: l₂))
    (hs : c.heap p = some s) {callback : Callback}
    (hv : descriptorsValid (callback.getD s.attrs) = true) :
    ∃ c', svzSockShutdown c p callback = .ok c' ∧ Coherent c' (l₁ ++ l₂) ∧ Spares p c c' ∧
      c'.heap p = none := by
  obtain ⟨c₀, hcb, ht, hs₀⟩ := disconnectedSocket_touched hs callback
  have h₀ := ht.coherent h
  have hdeq := dequeue_accepts h₀ hs₀ hv
  have h₁ := coherent_unlinked h₀ hs₀
  obtain ⟨c₂, hshut, ht₂⟩ := svzSockShutdown_of_dequeue hcb hdeq h₁ (if_pos rfl)
  refine ⟨_, hshut, coherent_freed (ht₂.coherent h₁) ?_, ?_, Function.update_self _ _ _⟩
  · exact (List.nodup_middle.mp h.nodup).notMem
  · exact ht.spares.trans ((unlinked_spares c₀ p _).trans (ht₂.spares.trans (freed_spares c₂ p)))

/-- When `dequeue` refuses, the socket is freed where it is. -/
theorem svzSockShutdown_refused (h : Coherent c l) (hs : c.heap p = some s) {callback : Callback}
    (hno : ¬ (descriptorsValid (callback.getD s.attrs) = true ∧ s.enqueued = true)) :
    ∃ c', svzSockShutdown c p callback = .ok (freed c' p) ∧ Touched p c c' := by
  obtain ⟨c₀, hcb, ht, hs₀⟩ := disconnectedSocket_touched hs callback
  have h₀ := ht.coherent h
  obtain ⟨c₂, hshut, ht₂⟩ :=
    svzSockShutdown_of_dequeue hcb (dequeue_refuses h₀ hs₀ hno) h₀ hs₀
  exact ⟨c₂, hshut, ht.trans ht₂⟩

theorem svzSockShutdown_unlisted (h : Coherent c l) (hs : c.heap p = some s) (hp : p ∉ l)
    (callback : Callback) :
    ∃ c', svzSockShutdown c p callback = .ok c' ∧ Coherent c' l ∧ Spares p c c' ∧
      c'.heap p = none := by
  have hno : ¬ (descriptorsValid (callback.getD s.attrs) = true ∧ s.enqueued = true) :=
    fun hboth => hp ((h.enqueued p).mpr ⟨s, hs, hboth.2⟩)
  obtain ⟨c', hshut, ht⟩ := svzSockShutdown_refused h hs hno
  exact ⟨_, hshut, coherent_freed (ht.coherent h) hp, ht.spares.trans (freed_spares c' p),
    Function.update_self _ _ _⟩

theorem svzSockShutdown_dangles (h : Coherent c l) (hs : c.heap p = some s) (hp : p ∈ l)
    {callback : Callback} (hv : ¬ descriptorsValid (callback.getD s.attrs) = true) :
    ∃ c', svzSockShutdown c p callback = .ok c' ∧ c'.heap p = none ∧
      c'.svzSockRoot = c.svzSockRoot ∧ c'.sockLimit = c.sockLimit ∧
      c'.socktab[s.id]? = some (some p) := by
  obtain ⟨c', hshut, ht⟩ := svzSockShutdown_refused h hs (fun hboth => hv hboth.1)
  refine ⟨_, hshut, Function.update_self _ _ _, ht.root, ht.sockLimit, ?_⟩
  change c'.socktab[s.id]? = some (some p)
  rw [ht.socktab]
  exact (h.table s.id p).mpr ⟨hp, s, hs, rfl⟩

/-! ## Validation -/

/-- The validation did not complain about the links or the lookup table. -/
def InOrder (r : Option Abort) : Prop :=
  r ≠ some .lookupTableCorrupted ∧ r ≠ some .listStructureInvalidPrev ∧
    r ≠ some .listStructureInvalidLast

theorem validateFrom_spec (h : Coherent c l) :
    ∀ (rest pre : List Addr) (fuel : Nat), l = pre ++ rest → rest.length ≤ fuel →
      ∃ r, validateFrom c fuel pre.getLast? rest.head? = .ok r ∧ InOrder r := by
  intro rest
  induction rest with
  | nil =>
    intro pre fuel hl _
    have hlast : pre.getLast? = c.lastSocket := by rw [h.last, hl, List.append_nil]
    refine ⟨none, ?_, by simp [InOrder]⟩
    cases fuel <;> simp [validateFrom, hlast]
  | cons p rest ih =>
    intro pre fuel hl hfuel
    obtain ⟨fuel, rfl⟩ : ∃ n, fuel = n + 1 := ⟨fuel - 1, by simp at hfuel; omega⟩
    have hmem : p ∈ l := by simp [hl]
    obtain ⟨s, hs, -⟩ := h.live hmem
    obtain ⟨hnext, hprev, -⟩ := (hl ▸ h).neighbours hs
    have hentry := (h.table s.id p).mpr ⟨hmem, s, hs, rfl⟩
    rw [List.head?_cons, validateFrom, load_eq hs, ok_bind]
    split
    · exact ⟨_, rfl, by simp [InOrder]⟩
    · split
      · exact ⟨_, rfl, by simp [InOrder]⟩
      · rw [entry_eq hentry, ok_bind, if_neg (not_not.mpr rfl), if_neg (not_not.mpr hprev.symm),
          hnext]
        have hlast : (pre ++ [p]).getLast? = some p := List.getLast?_concat
        rw [← hlast]
        exact ih (pre ++ [p]) fuel (by simp [hl]) (by simpa using hfuel)

theorem validateListOfSocks_spec (h : Coherent c l) :
    ∃ r, validateListOfSocks c = .ok r ∧ InOrder r := by
  unfold validateListOfSocks
  rw [h.root]
  exact validateFrom_spec h l [] (c.sockLimit + 1) rfl (Nat.le_succ_of_le h.length_le)

/-! ## Steps other than allocations -/

def Op.isAllocate : Op → Bool
  | .allocate _ => true
  | _ => false

/-- A socket that is shut down while it is listed has valid descriptors after its callback. -/
def Op.LeavesValid (c : State) : Op → Prop
  | .shutdown p callback => ∀ s, c.heap p = some s → s.enqueued = true →
      descriptorsValid (callback.getD s.attrs) = true
  | _ => True

/-- The allocated sockets are some of those before, with their ids and versions. -/
structure KeepsIds (c c' : State) : Prop where
  sockVersion : c'.sockVersion = c.sockVersion
  sockLimit : c'.sockLimit = c.sockLimit
  heap : ∀ z s', c'.heap z = some s' →
    ∃ s, c.heap z = some s ∧ s.id = s'.id ∧ s.version = s'.version

theorem Spares.keepsIds {c c' : State} (hsp : Spares p c c')
    (hp : ∀ s', c'.heap p = some s' → ∃ s, c.heap p = some s ∧ s.id = s'.id ∧
      s.version = s'.version) : KeepsIds c c' := by
  refine ⟨hsp.sockVersion, hsp.sockLimit, ?_⟩
  intro z s' hs'
  by_cases hz : z = p
  · subst hz
    exact hp s' hs'
  · have hstamp := hsp.others z hz
    rw [hs'] at hstamp
    obtain ⟨s, hs, heq⟩ := Option.map_eq_some_iff.mp hstamp.symm
    simp only [Sock.stamp, Prod.mk.injEq] at heq
    exact ⟨s, hs, heq.1, heq.2.1⟩

theorem apply_keepsIds (h : Coherent c l) {op : Op} (hproper : op.Proper c)
    (hvalid : op.LeavesValid c) (hop : op.isAllocate = false) :
    ∃ c', op.apply c = .ok c' ∧ (∃ l', Coherent c' l') ∧ KeepsIds c c' := by
  have hsame : KeepsIds c c := ⟨rfl, rfl, fun z s hs => ⟨s, hs, rfl, rfl⟩⟩
  cases op with
  | allocate p => cases hop
  | modify p attrs =>
    obtain ⟨s, hs⟩ := Option.isSome_iff_exists.mp hproper
    obtain ⟨c', hc', ht, hs'⟩ :=
      storeAttrs_touched hs p (fun _ => attrs) (fun hne => absurd rfl hne)
    refine ⟨c', hc', ⟨l, ht.coherent h⟩, ht.spares.keepsIds ?_⟩
    intro t ht'
    rw [hs'] at ht'
    cases ht'
    exact ⟨s, hs, rfl, rfl⟩
  | enqueue p =>
    obtain ⟨s, hs⟩ := Option.isSome_iff_exists.mp hproper
    rw [Op.apply]
    by_cases hyes : descriptorsValid s.attrs = true ∧ c.socktab[s.id]? = some none ∧
        s.enqueued = false
    · rw [svzSockEnqueue_accepts h hs hyes.1 hyes.2.1 hyes.2.2]
      refine ⟨_, rfl, ⟨_, coherent_appended h hs hyes.2.1 hyes.2.2⟩,
        (appended_spares c p s).keepsIds ?_⟩
      intro t ht
      rw [show (appended c p s).heap p = _ from if_pos rfl] at ht
      cases ht
      exact ⟨s, hs, rfl, rfl⟩
    · rw [svzSockEnqueue_refuses h hs hyes]
      exact ⟨c, rfl, ⟨l, h⟩, hsame⟩
  | shutdown p callback =>
    obtain ⟨s, hs⟩ := Option.isSome_iff_exists.mp hproper
    rw [Op.apply]
    by_cases hp : p ∈ l
    · have hen := h.enqueued_of_mem hs hp
      obtain ⟨l₁, l₂, rfl⟩ := List.append_of_mem hp
      obtain ⟨c', hshut, h', hsp, hdead⟩ := svzSockShutdown_unlinks h hs (hvalid s hs hen)
      exact ⟨c', hshut, ⟨_, h'⟩, hsp.keepsIds (fun t ht => by rw [hdead] at ht; cases ht)⟩
    · obtain ⟨c', hshut, h', hsp, hdead⟩ := svzSockShutdown_unlisted h hs hp callback
      exact ⟨c', hshut, ⟨l, h'⟩, hsp.keepsIds (fun t ht => by rw [hdead] at ht; cases ht)⟩
  | rechain =>
    rw [Op.apply]
    rcases rechainListOfSocks_eq h with hsame' | ⟨a, q, b, sock, s, e, rfl, hs, he, hmoved⟩
    · exact ⟨c, hsame', ⟨l, h⟩, hsame⟩
    · refine ⟨_, hmoved, ⟨_, coherent_rechained h hs he⟩,
        (rechained_spares c sock s _ q e).keepsIds ?_⟩
      intro t ht
      rw [show (rechained c sock s a.getLast? q e).heap sock = _ from if_pos rfl] at ht
      cases ht
      exact ⟨s, hs, rfl, rfl⟩

/-! ## Coherent states -/

/-- The core of a running process is coherent and passes its validation; a process that has
ended has no core, and a fault is none of the two. -/
def CoherentState : Except Fault State → Prop
  | .ok c => (∃ l, Coherent c l) ∧ ∃ r, validateListOfSocks c = .ok r ∧ InOrder r
  | .error .exit => True
  | .error _ => False

/-- A property of the next operation in the core that is reached, if there is one. -/
def NextOp (P : State → Op → Prop) : Except Fault State → Op → Prop
  | .ok c, op => P c op
  | .error _, _ => True

theorem coherent_boot : Coherent boot [] := by
  refine ⟨List.nodup_nil, rfl, rfl, trivial, ?_, ?_, ?_, List.length_replicate,
    ⟨10, by decide, rfl⟩, by decide⟩
  · intro p
    refine iff_of_false List.not_mem_nil ?_
    rintro ⟨s, hs, -⟩
    cases hs
  · intro i p
    refine iff_of_false ?_ (fun h => absurd h.1 List.not_mem_nil)
    change ¬ (List.replicate 1024 none)[i]? = some (some p)
    rw [List.getElem?_replicate]
    split <;> simp
  · intro p s hs
    cases hs

theorem coherentState_ok_iff : CoherentState (.ok c) ↔ ∃ l, Coherent c l := by
  constructor
  · exact fun h => h.1
  · rintro ⟨l, h⟩
    exact ⟨⟨l, h⟩, validateListOfSocks_spec h⟩

/-- A shutdown that frees a listed socket leaves its address behind. -/
theorem leavesValid_of_coherent (h : Coherent c l) {op : Op} (hstate : CoherentState (op.apply c)) :
    op.LeavesValid c := by
  cases op with
  | shutdown p callback =>
    intro s hs hen
    by_contra hv
    obtain ⟨c', hshut, hdead, -, -, hentry⟩ :=
      svzSockShutdown_dangles h hs ((h.enqueued p).mpr ⟨s, hs, hen⟩) hv
    rw [Op.apply, hshut, coherentState_ok_iff] at hstate
    obtain ⟨l', h'⟩ := hstate
    obtain ⟨-, t, ht, -⟩ := (h'.table s.id p).mp hentry
    rw [hdead] at ht
    cases ht
  | _ => trivial

theorem coherentState_allocate (h : Coherent c l) (hp : c.heap p = none) :
    CoherentState (allocate c p) := by
  rw [allocate_eq]
  cases hid : nextId c with
  | error f =>
    rw [nextId_error hid]
    trivial
  | ok c' =>
    exact coherentState_ok_iff.mpr
      ⟨l, coherent_enrolled (coherent_nextId h hid) (nextId_heap hid ▸ hp)⟩

theorem coherentState_apply_iff (h : Coherent c l) {op : Op} (hproper : op.Proper c) :
    CoherentState (op.apply c) ↔ op.LeavesValid c := by
  refine ⟨leavesValid_of_coherent h, ?_⟩
  intro hvalid
  cases hop : op.isAllocate with
  | true =>
    cases op with
    | allocate p => exact coherentState_allocate h hproper
    | _ => cases hop
  | false =>
    obtain ⟨c', happly, h', -⟩ := apply_keepsIds h hproper hvalid hop
    rw [happly]
    exact coherentState_ok_iff.mpr h'

/-! ## Refusals -/

theorem of_bind_eq_ok {α β : Type} {x : Except Fault α} {f : α → Except Fault β} {r : β}
    (h : x >>= f = .ok r) : ∃ a, x = .ok a ∧ f a = .ok r := by
  cases x with
  | error e => cases h
  | ok a => exact ⟨a, rfl, h⟩

/-- A socket is refused, or it is linked behind the last one. -/
theorem svzSockEnqueue_cases {c c' : State} (hr : svzSockEnqueue c p = .ok (c', r)) :
    (c' = c ∧ r = -1) ∨ r = 0 ∧ ∃ (s : Sock) (c₁ c₂ c₃ : State), c.load p = .ok s ∧
      c.store p (fun s => { s with next := none, prev := none }) = .ok c₁ ∧
      linkLast c₁ p = .ok c₂ ∧
      State.store { c₂ with lastSocket := some p } p (fun s => { s with enqueued := true }) =
        .ok c₃ ∧
      c₃.setEntry s.id (some p) = .ok c' := by
  unfold svzSockEnqueue at hr
  obtain ⟨s, hs, hr⟩ := of_bind_eq_ok hr
  split at hr
  · cases hr
    exact Or.inl ⟨rfl, rfl⟩
  · obtain ⟨e, -, hr⟩ := of_bind_eq_ok hr
    split at hr
    · cases hr
      exact Or.inl ⟨rfl, rfl⟩
    · obtain ⟨c₁, h₁, hr⟩ := of_bind_eq_ok hr
      obtain ⟨c₂, h₂, hr⟩ := of_bind_eq_ok hr
      obtain ⟨c₃, h₃, hr⟩ := of_bind_eq_ok hr
      obtain ⟨c₄, h₄, hr⟩ := of_bind_eq_ok hr
      cases hr
      exact Or.inr ⟨rfl, s, c₁, c₂, c₃, hs, h₁, h₂, h₃, h₄⟩

/-- A socket is refused, or it is taken from between its neighbours. -/
theorem dequeue_cases {c c' : State} (hr : dequeue c p = .ok (c', r)) :
    (c' = c ∧ r = -1) ∨ r = 0 ∧ ∃ (s : Sock) (c₁ c₂ c₃ : State), c.load p = .ok s ∧
      c.setPrevOfNext s.next s.prev = .ok c₁ ∧ c₁.setNextOfPrev s.prev s.next = .ok c₂ ∧
      c₂.store p (fun s => { s with enqueued := false }) = .ok c₃ ∧
      c₃.setEntry s.id none = .ok c' := by
  unfold dequeue at hr
  obtain ⟨s, hs, hr⟩ := of_bind_eq_ok hr
  split at hr
  · cases hr
    exact Or.inl ⟨rfl, rfl⟩
  · obtain ⟨e, -, hr⟩ := of_bind_eq_ok hr
    split at hr
    · cases hr
      exact Or.inl ⟨rfl, rfl⟩
    · obtain ⟨c₁, h₁, hr⟩ := of_bind_eq_ok hr
      obtain ⟨c₂, h₂, hr⟩ := of_bind_eq_ok hr
      obtain ⟨c₃, h₃, hr⟩ := of_bind_eq_ok hr
      obtain ⟨c₄, h₄, hr⟩ := of_bind_eq_ok hr
      cases hr
      exact Or.inr ⟨rfl, s, c₁, c₂, c₃, hs, h₁, h₂, h₃, h₄⟩

theorem svzSockEnqueue_unchanged {c c' : State} (hr : svzSockEnqueue c p = .ok (c', r))
    (hne : r ≠ 0) : c' = c := by
  rcases svzSockEnqueue_cases hr with ⟨hsame, -⟩ | ⟨hzero, -⟩
  · exact hsame
  · exact absurd hzero hne

theorem dequeue_unchanged {c c' : State} (hr : dequeue c p = .ok (c', r)) (hne : r ≠ 0) :
    c' = c := by
  rcases dequeue_cases hr with ⟨hsame, -⟩ | ⟨hzero, -⟩
  · exact hsame
  · exact absurd hzero hne

/-! ## Runs -/

theorem coherentState_step_iff {state : Except Fault State} (hstate : CoherentState state)
    {op : Op} (hproper : NextOp (fun c op => op.Proper c) state op) :
    CoherentState (step state op) ↔ NextOp (fun c op => op.LeavesValid c) state op := by
  cases state with
  | error f =>
    cases f with
    | exit => exact Iff.rfl
    | _ => exact absurd hstate id
  | ok c =>
    obtain ⟨l, h⟩ := coherentState_ok_iff.mp hstate
    exact coherentState_apply_iff h hproper

theorem coherentState_boot : CoherentState (.ok boot) :=
  coherentState_ok_iff.mpr ⟨[], coherent_boot⟩

theorem coherentState_run {ops : List Op}
    (hproper : ∀ pre op, pre ++ [op] <+: ops →
      NextOp (fun c op => op.Proper c) (run (.ok boot) pre) op)
    (hvalid : ∀ pre op, pre ++ [op] <+: ops →
      NextOp (fun c op => op.LeavesValid c) (run (.ok boot) pre) op) :
    ∀ pre, pre <+: ops → CoherentState (run (.ok boot) pre) := by
  unfold run at hproper hvalid ⊢
  refine forall_prefix_of_step step CoherentState (NextOp (fun c op => op.LeavesValid c))
    coherentState_boot ?_ hvalid
  intro pre op hpre hstate hop
  exact (coherentState_step_iff hstate (hproper pre op hpre)).mpr hop

/-- **Coherence.** A refused enqueue or dequeue changes nothing. In a run of the booted core,
the list is coherent in every state exactly if every socket that is shut down while it is
listed has valid descriptors when its `disconnected_socket` callback is through. -/
theorem coherent_run_iff (ops : List Op)
    (hproper : ∀ pre op, pre ++ [op] <+: ops →
      NextOp (fun c op => op.Proper c) (run (.ok boot) pre) op) :
    (∀ c p c' r, svzSockEnqueue c p = .ok (c', r) → r ≠ 0 → c' = c) ∧
    (∀ c p c' r, dequeue c p = .ok (c', r) → r ≠ 0 → c' = c) ∧
    ((∀ pre, pre <+: ops → CoherentState (run (.ok boot) pre)) ↔
      ∀ pre op, pre ++ [op] <+: ops →
        NextOp (fun c op => op.LeavesValid c) (run (.ok boot) pre) op) := by
  refine ⟨fun c p c' r => svzSockEnqueue_unchanged, fun c p c' r => dequeue_unchanged, ?_⟩
  unfold run at hproper ⊢
  refine forall_prefix_iff step CoherentState (NextOp (fun c op => op.LeavesValid c))
    coherentState_boot ?_
  intro pre op hpre hstate
  exact coherentState_step_iff hstate (hproper pre op hpre)

/-- The attributes of a connected socket. -/
def connectedAttrs : Attrs :=
  { newSock.attrs with
    flags := { newSock.attrs.flags with connected := true, sock := true }
    sockDesc := 5 }

/-- One connection from its allocation to its shutdown. -/
def oneConnection : List Op :=
  [.allocate 1, .modify 1 connectedAttrs, .enqueue 1, .rechain, .shutdown 1 none]

set_option maxRecDepth 100000 in
theorem coherent_run_one_connection :
    (∀ pre op, pre ++ [op] <+: oneConnection →
      NextOp (fun c op => op.Proper c) (run (.ok boot) pre) op) ∧
    ∀ pre, pre <+: oneConnection → CoherentState (run (.ok boot) pre) := by
  have hproper : ∀ pre op, pre ++ [op] <+: oneConnection →
      NextOp (fun c op => op.Proper c) (run (.ok boot) pre) op := by
    refine forall_steps ?_
    rintro (_ | _ | _ | _ | _ | n) op hop
    all_goals cases hop
    · exact rfl
    · exact rfl
    · exact rfl
    · exact trivial
    · exact rfl
  refine ⟨hproper, (coherent_run_iff oneConnection hproper).2.2.mpr ?_⟩
  refine forall_steps ?_
  rintro (_ | _ | _ | _ | _ | n) op hop
  all_goals cases hop
  · exact trivial
  · exact trivial
  · exact trivial
  · exact trivial
  · rintro s hs -
    cases hs
    rfl

set_option maxRecDepth 100000 in
/-- A callback that closes the descriptor of its socket itself: the list keeps the freed
socket. -/
theorem not_coherent_after_closing_callback :
    ¬ CoherentState (run (.ok boot) [.allocate 1, .modify 1 connectedAttrs, .enqueue 1,
      .shutdown 1 (some { connectedAttrs with sockDesc := invalid })]) := by
  rintro ⟨⟨l, h⟩, -⟩
  obtain ⟨-, s, hs, -⟩ := (h.table 1 1).mp rfl
  cases hs

end Serveez.Core
