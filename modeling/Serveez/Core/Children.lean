import Serveez.Core.Stamps
import Serveez.Lib.Marking

/-!
# Scheduling for shutdown

`svz_sock_schedule_for_shutdown` marks a socket and, for a listener, its children in the list, by
calling itself. A child knows its parent by an id and a version, which are zero in a new structure.
The flag `SVZ_SOFLG_KILLED` and the parents of the sockets stand beside the core.

* `scheduleIn_spec`: the recursion ends, and is a search over the live listeners.
* `registered_run`: no socket has the id and the version of a parent that has not been set.
* `svzSockScheduleForShutdown_spec`: the sockets that are killed.
-/

namespace Serveez.Core

open Lib

structure Family where
  core : State
  killed : Addr → Bool
  /-- `parent_id` and `parent_version` -/
  parent : Addr → Int32 × Int32

def svzSockGetparent (f : Family) (child : Addr) : Except Fault (Option Addr) :=
  svzSockFind f.core (f.parent child).1 (f.parent child).2

/-- `svz_sock_foreach`, with a body that leaves the list as it is. -/
def svzSockForeach {σ : Type} (core : State) (body : σ → Addr → Except Fault σ) :
    Nat → σ → Option Addr → Except Fault σ
  | _, x, none => .ok x
  | 0, _, some _ => .error .endlessLoop
  | n + 1, x, some sock => do
    let x ← body x sock
    let s ← core.load sock
    svzSockForeach core body n x s.next

/-- The body of the loop over the list; `schedule` is the function for a child. -/
def shutdownChild (f : Family) (schedule : (Addr → Bool) → Addr → Except Fault (Addr → Bool))
    (sock : Addr) (killed : Addr → Bool) (child : Addr) : Except Fault (Addr → Bool) := do
  let parent ← svzSockGetparent f child
  if parent = some sock then schedule killed child else .ok killed

def scheduleIn (f : Family) : Nat → (Addr → Bool) → Addr → Except Fault (Addr → Bool)
  | 0, _, _ => .error .endlessLoop
  | fuel + 1, killed, sock => do
    let s ← f.core.load sock
    if killed sock then return killed
    let killed := Function.update killed sock true
    if s.attrs.flags.listening then
      svzSockForeach f.core (shutdownChild f (scheduleIn f fuel) sock) (f.core.sockLimit + 1) killed
        f.core.svzSockRoot
    else return killed

/-- `svz_sock_schedule_for_shutdown`, nested at most as deep as the table has entries. -/
def svzSockScheduleForShutdown (f : Family) (sock : Addr) : Except Fault (Addr → Bool) :=
  scheduleIn f (f.core.sockLimit + 2) f.killed sock

/-- A listed socket is a child of a listener. -/
def ChildOf (f : Family) (l : List Addr) (a b : Addr) : Prop :=
  (∃ s, f.core.heap a = some s ∧ s.attrs.flags.listening = true) ∧ b ∈ l ∧
    svzSockGetparent f b = .ok (some a)

/-! ## The search -/

variable {f : Family} {l : List Addr}

theorem svzSockGetparent_ok (h : Coherent f.core l) (child : Addr) :
    ∃ parent, svzSockGetparent f child = .ok parent := by
  obtain ⟨r, hr, -⟩ := svzSockFind_spec h (f.parent child).1 (f.parent child).2
  exact ⟨r, hr⟩

theorem svzSockForeach_eq {σ : Type} {c : State} (h : Coherent c l)
    (body : σ → Addr → Except Fault σ) (x : σ) :
    svzSockForeach c body (c.sockLimit + 1) x c.svzSockRoot = l.foldlM body x := by
  have hwalk : ∀ (rest pre : List Addr) (n : Nat) (x : σ), l = pre ++ rest → rest.length ≤ n →
      svzSockForeach c body n x rest.head? = rest.foldlM body x := by
    intro rest
    induction rest with
    | nil =>
      intro pre n x _ _
      cases n <;> rfl
    | cons p rest ih =>
      intro pre n x hl hn
      rw [List.length_cons] at hn
      obtain ⟨n, rfl⟩ : ∃ m, n = m + 1 := ⟨n - 1, by omega⟩
      obtain ⟨s, hs, -⟩ := h.live (hl ▸ List.mem_append_right pre List.mem_cons_self)
      obtain ⟨hnext, -⟩ := (hl ▸ h).neighbours hs
      rw [List.head?_cons, svzSockForeach, List.foldlM_cons]
      cases body x p with
      | error fault => rfl
      | ok x =>
        rw [ok_bind, ok_bind, load_eq hs, ok_bind, hnext]
        exact ih (pre ++ [p]) n x (by rw [hl, List.append_assoc]; rfl) (by omega)
  rw [h.root]
  exact hwalk l [] _ x rfl (Nat.le_succ_of_le h.length_le)

theorem shutdownChildren_spec (h : Coherent f.core l) {sock : Addr} {s : Sock}
    (hs : f.core.heap sock = some s) (hlistening : s.attrs.flags.listening = true)
    {killed : Addr → Bool} (hlive : killed sock = false)
    {schedule : (Addr → Bool) → Addr → Except Fault (Addr → Bool)}
    (hschedule : ∀ killed' child, child ∈ l →
      (∀ q, Function.update killed sock true q = true → killed' q = true) →
      ∃ killed'', schedule killed' child = .ok killed'' ∧
        Explored (ChildOf f l) killed' child killed'') :
    ∀ (rest pre : List Addr) (killed' : Addr → Bool), l = pre ++ rest →
      Exploring (ChildOf f l) killed sock pre killed' →
      ∃ killed'', rest.foldlM (shutdownChild f schedule sock) killed' = .ok killed'' ∧
        Explored (ChildOf f l) killed sock killed'' := by
  intro rest
  induction rest with
  | nil =>
    intro pre killed' hl hexploring
    rw [List.append_nil] at hl
    exact ⟨killed', rfl, hexploring.finish fun b hedge => hl ▸ hedge.2.1⟩
  | cons child rest ih =>
    intro pre killed' hl hexploring
    have hmem : child ∈ l := hl ▸ List.mem_append_right _ List.mem_cons_self
    obtain ⟨parent, hparent⟩ := svzSockGetparent_ok h child
    have hrest : l = (pre ++ [child]) ++ rest := by rw [hl, List.append_assoc]; rfl
    rw [List.foldlM_cons, shutdownChild, hparent, ok_bind]
    by_cases heq : parent = some sock
    · -- the child is scheduled, and perhaps others by it
      have hmarks : ∀ q, Function.update killed sock true q = true → killed' q = true := by
        intro q hq
        rw [Function.update_apply] at hq
        split at hq
        · next hsame => exact hsame ▸ hexploring.start
        · exact hexploring.keeps q hq
      obtain ⟨killed'', hcall, hexplored⟩ := hschedule killed' child hmem hmarks
      have hedge : ChildOf f l sock child := ⟨⟨s, hs, hlistening⟩, hmem, heq ▸ hparent⟩
      rw [if_pos heq, hcall, ok_bind]
      exact ih _ killed'' hrest (hexploring.next hlive hedge hexplored)
    · have hno : ¬ ChildOf f l sock child := by
        rintro ⟨-, -, hfound⟩
        rw [hparent] at hfound
        exact heq (Except.ok.inj hfound)
      rw [if_neg heq, ok_bind]
      exact ih _ killed' hrest (hexploring.skip hno)

/-- The sockets of the list that are live. -/
def liveCount (l : List Addr) (killed : Addr → Bool) : Nat := l.countP fun q => !killed q

theorem liveCount_mono {killed killed' : Addr → Bool}
    (h : ∀ q, killed q = true → killed' q = true) : liveCount l killed' ≤ liveCount l killed := by
  refine List.countP_mono_left fun q _ hq => ?_
  cases hk : killed q with
  | false => rfl
  | true =>
    rw [h q hk] at hq
    cases hq

theorem liveCount_update_lt {killed : Addr → Bool} {p : Addr} (hp : p ∈ l)
    (hlive : killed p = false) :
    liveCount l (Function.update killed p true) < liveCount l killed := by
  obtain ⟨l₁, l₂, rfl⟩ := List.append_of_mem hp
  have hmarks : ∀ q, killed q = true → Function.update killed p true q = true := by
    intro q hq
    rw [Function.update_apply]
    split
    · rfl
    · exact hq
  have h₁ := liveCount_mono (l := l₁) hmarks
  have h₂ := liveCount_mono (l := l₂) hmarks
  unfold liveCount at h₁ h₂ ⊢
  rw [List.countP_append, List.countP_append, List.countP_cons, List.countP_cons,
    Function.update_self, hlive]
  simp only [Bool.not_true, Bool.not_false, Bool.false_eq_true, if_false, if_true]
  omega

/-- A call that is nested in others ends when there are fewer live sockets than calls left. -/
theorem scheduleIn_spec (h : Coherent f.core l) :
    ∀ (fuel : Nat) (killed : Addr → Bool) (sock : Addr), (f.core.heap sock).isSome → 0 < fuel →
      (killed sock = false → liveCount l (Function.update killed sock true) + 1 < fuel) →
      ∃ killed', scheduleIn f fuel killed sock = .ok killed' ∧
        Explored (ChildOf f l) killed sock killed' := by
  intro fuel
  induction fuel with
  | zero => exact fun _ _ _ hpos => absurd hpos (Nat.lt_irrefl 0)
  | succ fuel ih =>
    intro killed sock hsome _ hfuel
    obtain ⟨s, hs⟩ := Option.isSome_iff_exists.mp hsome
    rw [scheduleIn, load_eq hs, ok_bind]
    cases hkilled : killed sock with
    | true => exact ⟨killed, rfl, Explored.refl hkilled⟩
    | false =>
      have hcount := hfuel hkilled
      have henter := Exploring.enter (ChildOf f l) killed sock
      rw [if_neg Bool.false_ne_true]
      dsimp only
      cases hlistening : s.attrs.flags.listening with
      | false =>
        refine ⟨_, rfl, henter.finish fun b hedge => ?_⟩
        obtain ⟨⟨t, ht, hlisten⟩, -⟩ := hedge
        rw [hs] at ht
        obtain rfl := Option.some.inj ht
        rw [hlistening] at hlisten
        cases hlisten
      | true =>
        rw [if_pos rfl, svzSockForeach_eq h]
        refine shutdownChildren_spec h hs hlistening hkilled ?_ l [] _ rfl henter
        intro killed' child hmem hmarks
        obtain ⟨t, ht, -⟩ := h.live hmem
        refine ih killed' child (Option.isSome_iff_exists.mpr ⟨t, ht⟩) (by omega) fun hlive => ?_
        -- one live socket less than before this call
        have hless := liveCount_update_lt hmem hlive
        have hle := liveCount_mono (l := l) hmarks
        omega

/-! ## Runs -/

def svzSockSetparent (f : Family) (child parent : Addr) : Except Fault Family := do
  let _ ← f.core.load child
  let s ← f.core.load parent
  return { f with parent := Function.update f.parent child (Int32.ofNat s.id, s.version) }

inductive FamilyOp
  | core (op : Op)
  | setparent (child parent : Addr)
  | schedule (sock : Addr)
  /-- Any code that changes the flag. -/
  | flag (killed : Addr → Bool)

/-- The fields of a new structure are zero. -/
def afterCore (f : Family) (core : State) : Op → Family
  | .allocate p =>
    { core
      killed := Function.update f.killed p false
      parent := Function.update f.parent p (0, 0) }
  | _ => { f with core }

def familyStep (f : Family) : FamilyOp → Except Fault Family
  | .core op => do
    let core ← op.apply f.core
    return afterCore f core op
  | .setparent child parent => svzSockSetparent f child parent
  | .schedule sock => do
    let killed ← svzSockScheduleForShutdown f sock
    return { f with killed }
  | .flag killed => return { f with killed }

def familyRun (ops : List FamilyOp) : Except Fault Family :=
  ops.foldl (fun f op => do familyStep (← f) op) (.ok ⟨boot, fun _ => false, fun _ => (0, 0)⟩)

def FamilyOp.isAllocate : FamilyOp → Bool
  | .core op => op.isAllocate
  | _ => false

/-- The parent of a socket has not been set since it was allocated. -/
def neverSet (q : Addr) (ops : List FamilyOp) : Bool :=
  ops.foldl (fun never op =>
    match op with
    | .core (.allocate p) => p = q || never
    | .setparent child _ => child ≠ q && never
    | _ => never) true

/-- The `k`-th socket has the version `k`, and the first one does not have the id zero. -/
structure Registered (ops : List FamilyOp) (f : Family) : Prop where
  version : f.core.sockVersion = Int32.ofNat (ops.countP FamilyOp.isAllocate)
  first : ops.countP FamilyOp.isAllocate = 0 → f.core = boot
  stamp : ∀ p s, f.core.heap p = some s → ∃ k, k < ops.countP FamilyOp.isAllocate ∧
    s.version = Int32.ofNat k ∧ (k = 0 → s.id = 1)
  orphan : ∀ q, neverSet q ops = true → f.parent q = (0, 0)

theorem apply_boot {op : Op} {c' : State} (hop : op.isAllocate = false)
    (hrun : op.apply boot = .ok c') : c' = boot := by
  cases op with
  | allocate p => cases hop
  | modify p attrs => cases hrun
  | enqueue p => cases hrun
  | shutdown p callback =>
    cases callback with
    | some a => cases hrun
    | none => cases hrun
  | rechain => exact (Except.ok.inj hrun).symm

theorem nextId_boot {c : State} (hid : nextId boot = .ok c) : c.sockId = 1 := by
  have hfree : freeId boot.socktab boot.sockLimit boot.sockLimit boot.sockId = (true, 1) := rfl
  unfold nextId at hid
  rw [hfree] at hid
  obtain rfl := Except.ok.inj hid
  rfl

variable {ops : List FamilyOp}

theorem countP_append_singleton (ops : List FamilyOp) (op : FamilyOp) :
    (ops ++ [op]).countP FamilyOp.isAllocate =
      ops.countP FamilyOp.isAllocate + if op.isAllocate = true then 1 else 0 := by
  rw [List.countP_append, List.countP_singleton]

theorem neverSet_append (q : Addr) (ops : List FamilyOp) (op : FamilyOp) :
    neverSet q (ops ++ [op]) =
      match op with
      | .core (.allocate p) => decide (p = q) || neverSet q ops
      | .setparent child _ => decide (child ≠ q) && neverSet q ops
      | _ => neverSet q ops := by
  unfold neverSet
  rw [List.foldl_append]
  rfl

/-- A step that assigns no id. -/
theorem Registered.keep (h : Registered ops f) {op : FamilyOp} {f' : Family}
    (hop : op.isAllocate = false) (hids : KeepsIds f.core f'.core)
    (hboot : f.core = boot → f'.core = boot)
    (horphan : ∀ q, neverSet q (ops ++ [op]) = true → f'.parent q = (0, 0)) :
    Registered (ops ++ [op]) f' := by
  have hcount : (ops ++ [op]).countP FamilyOp.isAllocate = ops.countP FamilyOp.isAllocate := by
    rw [countP_append_singleton, hop]
    rfl
  refine ⟨?_, ?_, ?_, horphan⟩
  · rw [hcount, hids.sockVersion, h.version]
  · rw [hcount]
    exact fun hnone => hboot (h.first hnone)
  · intro p s' hs'
    obtain ⟨s, hs, hid, hversion⟩ := hids.heap p s' hs'
    rw [hcount, ← hid, ← hversion]
    exact h.stamp p s hs

theorem Registered.allocate (h : Registered ops f) {p : Addr} {core : State}
    (hrun : Core.allocate f.core p = .ok core) :
    Registered (ops ++ [.core (.allocate p)]) (afterCore f core (.allocate p)) := by
  rw [allocate_eq] at hrun
  cases hid : nextId f.core with
  | error fault =>
    rw [hid] at hrun
    cases hrun
  | ok c =>
    rw [hid] at hrun
    obtain rfl := Except.ok.inj hrun
    have hcount : (ops ++ [FamilyOp.core (.allocate p)]).countP FamilyOp.isAllocate =
        ops.countP FamilyOp.isAllocate + 1 := countP_append_singleton ops _
    have hversion : c.sockVersion = Int32.ofNat (ops.countP FamilyOp.isAllocate) :=
      (nextId_sockVersion hid).trans h.version
    refine ⟨?_, ?_, ?_, ?_⟩
    · rw [hcount, Int32.ofNat_add, ← hversion]
      rfl
    · rw [hcount]
      exact fun hnone => absurd hnone (Nat.succ_ne_zero _)
    · intro z s hs
      rw [hcount]
      by_cases hz : z = p
      · subst hz
        obtain rfl := Option.some.inj ((enrolled_heap_self c z).symm.trans hs)
        refine ⟨_, Nat.lt_succ_self _, hversion, fun hnone => ?_⟩
        rw [h.first hnone] at hid
        exact nextId_boot hid
      · have hold : f.core.heap z = some s := by
          rw [← nextId_heap hid]
          exact (enrolled_heap_of_ne c hz).symm.trans hs
        obtain ⟨k, hk, hstamp⟩ := h.stamp z s hold
        exact ⟨k, Nat.lt_succ_of_lt hk, hstamp⟩
    · intro q hq
      show Function.update f.parent p (0, 0) q = (0, 0)
      rw [neverSet_append] at hq
      rw [Function.update_apply]
      split
      · rfl
      · next hne =>
        dsimp only at hq
        rw [decide_eq_false (fun heq => hne heq.symm), Bool.false_or] at hq
        exact h.orphan q hq

theorem Registered.step (h : Registered ops f) {op : FamilyOp} {f' : Family}
    (hrun : familyStep f op = .ok f') : Registered (ops ++ [op]) f' := by
  cases op with
  | core op =>
    obtain ⟨core, hcore, hrun⟩ := of_bind_eq_ok hrun
    obtain rfl := Except.ok.inj hrun
    cases hop : op.isAllocate with
    | true =>
      cases op with
      | allocate p => exact h.allocate hcore
      | _ => cases hop
    | false =>
      have hafter : afterCore f core op = { f with core } := by
        cases op with
        | allocate p => cases hop
        | _ => rfl
      rw [hafter]
      refine h.keep hop (apply_stamps hop hcore) (fun hboot => ?_) fun q hq => ?_
      · rw [hboot] at hcore
        exact apply_boot hop hcore
      · refine h.orphan q ?_
        rw [neverSet_append] at hq
        cases op with
        | allocate p => cases hop
        | _ => exact hq
  | setparent child parent =>
    obtain ⟨s, hs, hrun⟩ := of_bind_eq_ok hrun
    obtain ⟨t, ht, hrun⟩ := of_bind_eq_ok hrun
    obtain rfl := Except.ok.inj hrun
    refine h.keep rfl (KeepsIds.refl _) id fun q hq => ?_
    rw [neverSet_append, Bool.and_eq_true] at hq
    have hne : q ≠ child := (of_decide_eq_true hq.1).symm
    show Function.update f.parent child _ q = (0, 0)
    rw [Function.update_of_ne hne]
    exact h.orphan q hq.2
  | schedule sock =>
    obtain ⟨killed, -, hrun⟩ := of_bind_eq_ok hrun
    obtain rfl := Except.ok.inj hrun
    refine h.keep rfl (KeepsIds.refl _) id fun q hq => h.orphan q ?_
    rw [neverSet_append] at hq
    exact hq
  | flag killed =>
    obtain rfl := Except.ok.inj hrun
    refine h.keep rfl (KeepsIds.refl _) id fun q hq => h.orphan q ?_
    rw [neverSet_append] at hq
    exact hq

theorem registered_run (hrun : familyRun ops = .ok f) : Registered ops f := by
  induction ops using List.reverseRecOn generalizing f with
  | nil =>
    obtain rfl := Except.ok.inj hrun
    refine ⟨rfl, fun _ => rfl, fun p s hs => ?_, fun _ _ => rfl⟩
    cases hs
  | append_singleton ops op ih =>
    unfold familyRun at hrun
    rw [List.foldl_append] at hrun
    obtain ⟨before, hbefore, hstep⟩ := of_bind_eq_ok hrun
    exact (ih hbefore).step hstep

theorem Registered.no_parent (h : Registered ops f) (hcoherent : Coherent f.core l)
    (hcount : ops.countP FamilyOp.isAllocate < 2 ^ 31) {q a : Addr} (hq : neverSet q ops = true) :
    svzSockGetparent f q ≠ .ok (some a) := by
  intro hparent
  unfold svzSockGetparent at hparent
  rw [h.orphan q hq] at hparent
  obtain ⟨r, hfind, hwanted⟩ := svzSockFind_spec hcoherent 0 0
  rw [hfind] at hparent
  obtain ⟨-, s, hs, hid, hversion⟩ := (hwanted a).mp (Except.ok.inj hparent)
  obtain ⟨k, hk, hstamp, hfirst⟩ := h.stamp a s hs
  have hzero : s.version = 0 := hversion.resolve_left (by decide)
  have hnat : (Int32.ofNat k).toInt = k := Int32.toInt_ofNat_of_lt (by omega)
  rw [← hstamp, hzero] at hnat
  have hk : k = 0 := (Int.ofNat_eq_zero.mp hnat.symm)
  rw [hfirst hk] at hid
  exact absurd hid (by decide)

/-! ## The sockets that are killed -/

/-- **Scheduling for shutdown**: the call comes back, takes no flag away, and kills the socket and
what can be reached from it over live listeners; no socket is among those because its parent has
not been set. -/
theorem svzSockScheduleForShutdown_spec (h : Coherent f.core l) {sock : Addr}
    (hsock : (f.core.heap sock).isSome) :
    ∃ killed, svzSockScheduleForShutdown f sock = .ok killed ∧
      (∀ q, f.killed q = true → killed q = true) ∧
      (∀ q, killed q = true ↔ f.killed q = true ∨ Reaches (ChildOf f l) f.killed sock q) ∧
      ∀ ops, familyRun ops = .ok f → ops.countP FamilyOp.isAllocate < 2 ^ 31 →
        ∀ q, neverSet q ops = true → killed q = true → f.killed q = true ∨ q = sock := by
  have hcount : liveCount l (Function.update f.killed sock true) ≤ l.length := List.countP_le_length
  have hlength := h.length_le
  obtain ⟨killed, hrun, hexplored⟩ := scheduleIn_spec h (f.core.sockLimit + 2) f.killed sock hsock
    (Nat.succ_pos _) fun _ => by omega
  refine ⟨killed, hrun, hexplored.keeps, hexplored.iff_reaches, ?_⟩
  intro ops hops hallocations q hq hkilled
  refine (hexplored.reached q hkilled).imp_right fun hreach => ?_
  rcases Relation.ReflTransGen.cases_tail hreach with heq | ⟨a, -, -, hedge⟩
  · exact heq
  · exact absurd hedge.2.2 ((registered_run hops).no_parent h hallocations hq)

def listenerAttrs : Attrs :=
  { connectedAttrs with
    flags := { connectedAttrs.flags with connected := false, listening := true } }

/-- A listener, its child and a socket without a parent. -/
def threeSockets : List Op :=
  [.allocate 1, .modify 1 listenerAttrs, .enqueue 1, .allocate 2, .modify 2 connectedAttrs,
    .enqueue 2, .allocate 3, .modify 3 connectedAttrs, .enqueue 3]

def threeSocketsRun : List FamilyOp := threeSockets.map .core ++ [.setparent 2 1]

set_option maxRecDepth 100000 in
theorem threeSocketsRun_coherent : ∃ f l, familyRun threeSocketsRun = .ok f ∧ Coherent f.core l ∧
    (∃ s, f.core.heap 1 = some s ∧ s.attrs.flags.listening = true) ∧
    (∃ s, f.core.heap 2 = some s ∧ s.attrs.flags.listening = false) ∧ 1 ∈ l ∧ 2 ∈ l ∧
    svzSockGetparent f 2 = .ok (some 1) ∧ f.killed 1 = false ∧ f.killed 3 = false := by
  have hproper : ∀ pre op, pre ++ [op] <+: threeSockets →
      NextOp (fun c op => op.Proper c) (run (.ok boot) pre) op := by
    refine forall_steps ?_
    rintro (_ | _ | _ | _ | _ | _ | _ | _ | _ | n) op hop
    all_goals cases hop
    all_goals exact rfl
  have hcoherent := (coherent_run_iff threeSockets hproper).2.2.mpr
    (forall_steps (by
      rintro (_ | _ | _ | _ | _ | _ | _ | _ | _ | n) op hop
      all_goals cases hop
      all_goals exact trivial)) threeSockets (List.prefix_refl _)
  obtain ⟨f, hrun, hcore, hone, ⟨t, ht, hclient⟩, hlisted, hrest⟩ :
      ∃ f, familyRun threeSocketsRun = .ok f ∧ run (.ok boot) threeSockets = .ok f.core ∧
        (∃ s, f.core.heap 1 = some s ∧ s.attrs.flags.listening = true) ∧
        (∃ s, f.core.heap 2 = some s ∧ s.attrs.flags.listening = false) ∧
        ((∃ s, f.core.heap 1 = some s ∧ s.enqueued = true) ∧
          ∃ s, f.core.heap 2 = some s ∧ s.enqueued = true) ∧
        svzSockGetparent f 2 = .ok (some 1) ∧ f.killed 1 = false ∧ f.killed 3 = false :=
    ⟨_, rfl, rfl, ⟨_, rfl, rfl⟩, ⟨_, rfl, rfl⟩, ⟨⟨_, rfl, rfl⟩, ⟨_, rfl, rfl⟩⟩, rfl, rfl, rfl⟩
  rw [hcore] at hcoherent
  obtain ⟨⟨l, h⟩, -⟩ := hcoherent
  exact ⟨f, l, hrun, h, hone, ⟨t, ht, hclient⟩, (h.enqueued 1).mpr hlisted.1,
    (h.enqueued 2).mpr hlisted.2, hrest⟩

theorem svzSockScheduleForShutdown_listener : ∃ f killed, familyRun threeSocketsRun = .ok f ∧
    svzSockScheduleForShutdown f 1 = .ok killed ∧ killed 2 = true ∧ killed 3 = false := by
  obtain ⟨f, l, hrun, h, ⟨s, hs, hlistening⟩, -, -, htwo, hparent, hlive, hother⟩ :=
    threeSocketsRun_coherent
  obtain ⟨killed, hschedule, -, hkilled, hnever⟩ := svzSockScheduleForShutdown_spec h
    (Option.isSome_iff_exists.mpr ⟨s, hs⟩)
  have hedge : ChildOf f l 1 2 := ⟨⟨s, hs, hlistening⟩, htwo, hparent⟩
  refine ⟨f, killed, hrun, hschedule,
    (hkilled 2).mpr (Or.inr (Relation.ReflTransGen.single ⟨hlive, hedge⟩)), ?_⟩
  rw [Bool.eq_false_iff]
  intro hthree
  rcases hnever _ hrun (by decide) 3 (by decide) hthree with hold | heq
  · rw [hother] at hold
    cases hold
  · cases heq

end Serveez.Core
