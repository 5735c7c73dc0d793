import Serveez.Core.Coherence

/-!
# Socket ids and versions as handles

Other parts of the server remember a socket by its id and its version and look it up again
with `svz_sock_find`. A trace of the core keeps every pair that was handed out, so that the
lookups can be judged long after.

* `safeHandles_iff`: only shared ids can make handles unsafe.
* `uniqueIds_enrolled_iff`: a new socket shares no id exactly if the search meets a free entry
  before the id of any socket that is allocated and not enqueued.
* `safeHandles_run_iff`: when handles are safe in every state of a run.
-/

namespace Serveez.Core

open Lib

/-! ## Traces -/

structure Handle where
  addr : Addr
  id : Nat
  version : Int32

/-- The pair that an allocation hands out. -/
def given (core : Except Fault State) : Op → List Handle
  | .allocate p =>
    match core with
    | .ok c => ((c.heap p).map (fun s => { addr := p, id := s.id, version := s.version })).toList
    | .error _ => []
  | _ => []

structure Traced where
  core : Except Fault State
  handed : List Handle

def Traced.step (t : Traced) (op : Op) : Traced :=
  { core := Core.step t.core op
    handed := t.handed ++ given (Core.step t.core op) op }

def trace (ops : List Op) : Traced := ops.foldl Traced.step { core := .ok boot, handed := [] }

/-! ## Safe handles -/

/-- The socket that got the handle is enqueued. -/
def enqueuedAt (c : State) (h : Handle) : Bool :=
  match c.heap h.addr with
  | some s => s.id == h.id && s.version == h.version && s.enqueued
  | none => false

/-- No two allocated sockets share an id. -/
def UniqueIds (c : State) : Prop :=
  ∀ p q s t, c.heap p = some s → c.heap q = some t → s.id = t.id → p = q

/-- Every handle finds its socket while that is enqueued and nothing else; other ids are
rejected; every enqueued socket is in the table at its id. -/
def SafeHandles : Traced → Prop
  | { core := .ok c, handed := handed } =>
    (∀ h ∈ handed, svzSockFind c (Int32.ofNat h.id) h.version =
      .ok (if enqueuedAt c h then some h.addr else none)) ∧
    (∀ id version : Int32, ¬ (0 ≤ id.toInt ∧ id.toInt < c.sockLimit) →
      svzSockFind c id version = .ok none) ∧
    (∀ p s, c.heap p = some s → s.enqueued = true → c.socktab[s.id]? = some (some p)) ∧
    UniqueIds c
  | { core := .error .exit, handed := _ } => True
  | { core := .error _, handed := _ } => False

/-- The condition on a step. An allocation needs, for every socket that is allocated and not
enqueued, another free entry between the cursor and the id of that socket, unless the table
is full. A socket that is shut down while it is listed needs valid descriptors. -/
def Op.KeepsHandles (c : State) : Op → Prop
  | .allocate _ => ∀ q t, c.heap q = some t → t.enqueued = false →
      (∀ i < c.sockLimit, c.socktab[i]? ≠ some none) ∨
        ∃ d, 0 < d ∧ d ≤ c.sockLimit ∧ c.socktab[(c.sockId + d) % c.sockLimit]? = some none ∧
          ∀ e, 0 < e → e ≤ d → (c.sockId + e) % c.sockLimit ≠ t.id
  | op => op.LeavesValid c

/-! ## The books -/

/-- The handles in the order they were given: the `n`-th has version `n`, and every allocated
socket has one. -/
structure Booked (c : State) (handed : List Handle) : Prop where
  coherent : ∃ l, Coherent c l
  version : c.sockVersion = Int32.ofNat handed.length
  versions : ∀ n h, handed[n]? = some h → h.version = Int32.ofNat n
  ids : ∀ h ∈ handed, h.id < c.sockLimit
  live : ∀ p s, c.heap p = some s → { addr := p, id := s.id, version := s.version } ∈ handed

theorem toInt_ofNat {n : Nat} (hn : n < 2 ^ 31) : (Int32.ofNat n).toInt = n :=
  Int32.toInt_ofNat_of_lt hn

variable {c : State} {handed : List Handle}

theorem Booked.unique (b : Booked c handed) (hlen : handed.length ≤ 2 ^ 31) {h h' : Handle}
    (hh : h ∈ handed) (hh' : h' ∈ handed) (heq : h.version = h'.version) : h = h' := by
  obtain ⟨n, hn⟩ := List.mem_iff_getElem?.mp hh
  obtain ⟨m, hm⟩ := List.mem_iff_getElem?.mp hh'
  have hnlt := (List.getElem?_eq_some_iff.mp hn).1
  have hmlt := (List.getElem?_eq_some_iff.mp hm).1
  rw [b.versions n h hn, b.versions m h' hm] at heq
  have hnm := congrArg Int32.toInt heq
  rw [toInt_ofNat (by omega), toInt_ofNat (by omega)] at hnm
  obtain rfl : n = m := by omega
  exact Option.some.inj (hn.symm.trans hm)

theorem Booked.version_ne (b : Booked c handed) (hlen : handed.length ≤ 2 ^ 31) {h : Handle}
    (hh : h ∈ handed) : h.version ≠ -1 := by
  obtain ⟨n, hn⟩ := List.mem_iff_getElem?.mp hh
  have hnlt := (List.getElem?_eq_some_iff.mp hn).1
  rw [b.versions n h hn]
  intro heq
  have hint := congrArg Int32.toInt heq
  rw [toInt_ofNat (by omega)] at hint
  have hneg : (-1 : Int32).toInt = -1 := rfl
  rw [hneg] at hint
  omega

theorem Coherent.sockLimit_le {l : List Addr} (h : Coherent c l) :
    c.sockLimit ≤ 2 ^ 30 := by
  obtain ⟨k, hk, hlimit⟩ := h.limit
  rw [hlimit]
  exact Nat.pow_le_pow_right Nat.two_pos hk

theorem enqueuedAt_iff {h : Handle} : enqueuedAt c h = true ↔
    ∃ s, c.heap h.addr = some s ∧ s.id = h.id ∧ s.version = h.version ∧ s.enqueued = true := by
  unfold enqueuedAt
  cases c.heap h.addr with
  | none => simp
  | some s => simp [and_assoc]

theorem svzSockFind_handle (b : Booked c handed) (hlen : handed.length ≤ 2 ^ 31) {h : Handle}
    (hh : h ∈ handed) :
    svzSockFind c (Int32.ofNat h.id) h.version =
      .ok (if enqueuedAt c h then some h.addr else none) := by
  obtain ⟨l, hco⟩ := b.coherent
  obtain ⟨r, hr, hfind⟩ := svzSockFind_spec hco (Int32.ofNat h.id) h.version
  have hid : (Int32.ofNat h.id).toInt = h.id := by
    have h1 := b.ids h hh
    have h2 := hco.sockLimit_le
    exact toInt_ofNat (by omega)
  have hsome : ∀ q, r = some q ↔ enqueuedAt c h = true ∧ q = h.addr := by
    intro q
    rw [hfind q, Wanted, hid, enqueuedAt_iff]
    constructor
    · rintro ⟨hq, s, hs, hsid, hver⟩
      have hver' : s.version = h.version := hver.resolve_left (b.version_ne hlen hh)
      have hsame := b.unique hlen (b.live q s hs) hh hver'
      have haddr : q = h.addr := congrArg Handle.addr hsame
      exact ⟨⟨s, haddr ▸ hs, by omega, hver', hco.enqueued_of_mem hs hq⟩, haddr⟩
    · rintro ⟨⟨s, hs, hsid, hver, hen⟩, rfl⟩
      exact ⟨(hco.enqueued _).mpr ⟨s, hs, hen⟩, s, hs, by omega, Or.inr hver⟩
  rw [hr]
  congr 1
  cases hen : enqueuedAt c h with
  | true => exact (hsome h.addr).mpr ⟨hen, rfl⟩
  | false =>
    cases r with
    | none => rfl
    | some q => simp [hen] at hsome

theorem svzSockFind_outside {l : List Addr} (h : Coherent c l) {id version : Int32}
    (hout : ¬ (0 ≤ id.toInt ∧ id.toInt < c.sockLimit)) : svzSockFind c id version = .ok none := by
  obtain ⟨r, hr, hfind⟩ := svzSockFind_spec h id version
  cases r with
  | none => exact hr
  | some q =>
    obtain ⟨-, s, hs, hid, -⟩ := (hfind q).mp rfl
    have := h.ids q s hs
    exact absurd ⟨by omega, by omega⟩ hout

/-- With the books in order, only shared ids can make handles unsafe. -/
theorem safeHandles_iff (b : Booked c handed) (hlen : handed.length ≤ 2 ^ 31) :
    SafeHandles { core := .ok c, handed := handed } ↔ UniqueIds c := by
  obtain ⟨l, h⟩ := b.coherent
  constructor
  · exact fun hsafe => hsafe.2.2.2
  · intro huniq
    refine ⟨fun _ hh => svzSockFind_handle b hlen hh, fun _ _ => svzSockFind_outside h, ?_, huniq⟩
    intro p s hs hen
    exact (h.table s.id p).mpr ⟨(h.enqueued p).mpr ⟨s, hs, hen⟩, s, hs, rfl⟩

/-! ## Steps other than allocations -/

theorem KeepsIds.booked {c c' : State} (k : KeepsIds c c') (b : Booked c handed)
    (h : ∃ l, Coherent c' l) : Booked c' handed := by
  refine ⟨h, k.sockVersion.trans b.version, b.versions, k.sockLimit ▸ b.ids, ?_⟩
  intro p s' hs'
  obtain ⟨s, hs, hid, hver⟩ := k.heap p s' hs'
  exact hid ▸ hver ▸ b.live p s hs

theorem KeepsIds.uniqueIds {c c' : State} (k : KeepsIds c c') (hu : UniqueIds c) :
    UniqueIds c' := by
  intro p q s' t' hs' ht' hid
  obtain ⟨s, hs, hsid, -⟩ := k.heap p s' hs'
  obtain ⟨t, ht, htid, -⟩ := k.heap q t' ht'
  exact hu p q s t hs ht (by omega)

/-! ## Allocations -/

theorem booked_enrolled {c c₁ : State} (b : Booked c handed) {p : Addr} (hp : c.heap p = none)
    (hid : nextId c = .ok c₁) :
    Booked (enrolled c₁ p)
      (handed ++ [{ addr := p, id := c₁.sockId, version := c₁.sockVersion }]) := by
  obtain ⟨l, h⟩ := b.coherent
  have h₁ := coherent_nextId h hid
  have hheap := nextId_heap hid
  have hversion := nextId_sockVersion hid
  have hlimit := nextId_sockLimit_le hid
  refine ⟨⟨l, coherent_enrolled h₁ (hheap ▸ hp)⟩, ?_, ?_, ?_, ?_⟩
  · change c₁.sockVersion + 1 = _
    rw [hversion, b.version, List.length_append, List.length_singleton, Int32.ofNat_add]
    rfl
  · intro n g hn
    by_cases hlt : n < handed.length
    · rw [List.getElem?_append_left hlt] at hn
      exact b.versions n g hn
    · have hlen := (List.getElem?_eq_some_iff.mp hn).1
      rw [List.length_append, List.length_singleton] at hlen
      obtain rfl : n = handed.length := by omega
      rw [List.getElem?_concat_length] at hn
      cases hn
      exact hversion.trans b.version
  · intro g hg
    change g.id < c₁.sockLimit
    rcases List.mem_append.mp hg with hg | hg
    · exact Nat.lt_of_lt_of_le (b.ids g hg) hlimit
    · rw [List.mem_singleton.mp hg]
      exact h₁.cursor
  · intro z s hs
    by_cases hz : z = p
    · subst hz
      rw [enrolled_heap_self] at hs
      cases hs
      exact List.mem_append_right _ (List.mem_singleton.mpr rfl)
    · rw [enrolled_heap_of_ne c₁ hz, hheap] at hs
      exact List.mem_append_left _ (b.live z s hs)

theorem entry_free {l : List Addr} (h : Coherent c l) (hu : UniqueIds c) {q : Addr} {t : Sock}
    (hq : c.heap q = some t) (hen : t.enqueued = false) :
    c.socktab[t.id]? = some none := by
  obtain ⟨e, he⟩ := h.entry hq
  cases e with
  | none => exact he
  | some p =>
    obtain ⟨hp, s, hs, hid⟩ := (h.table t.id p).mp he
    obtain rfl := hu p q s t hs hq hid
    exact absurd hp (not_mem_of_enqueued_eq_false h hq hen)

/-- The other sockets keep their different ids, so only the new one matters. -/
theorem uniqueIds_enrolled_iff_fresh (hu : UniqueIds c) {p : Addr} (hp : c.heap p = none) :
    UniqueIds (enrolled c p) ↔ ∀ q t, c.heap q = some t → t.id ≠ c.sockId := by
  constructor
  · intro hun q t hq heq
    have hqp : q ≠ p := by
      rintro rfl
      rw [hp] at hq
      cases hq
    exact hqp (hun q p t _ ((enrolled_heap_of_ne c hqp).trans hq) (enrolled_heap_self c p) heq)
  · intro hall a b s t hs ht heq
    by_cases ha : a = p
    · by_cases hb : b = p
      · rw [ha, hb]
      · subst ha
        rw [enrolled_heap_self] at hs
        cases hs
        rw [enrolled_heap_of_ne c hb] at ht
        exact absurd heq.symm (hall b t ht)
    · rw [enrolled_heap_of_ne c ha] at hs
      by_cases hb : b = p
      · subst hb
        rw [enrolled_heap_self] at ht
        cases ht
        exact absurd heq (hall a s hs)
      · rw [enrolled_heap_of_ne c hb] at ht
        exact hu a b s t hs ht heq

theorem uniqueIds_enrolled_iff {c c₁ : State} {l : List Addr} (h : Coherent c l)
    (hu : UniqueIds c) {p : Addr} (hp : c.heap p = none) (hid : nextId c = .ok c₁) :
    UniqueIds (enrolled c₁ p) ↔ Op.KeepsHandles c (.allocate p) := by
  have hheap := nextId_heap hid
  have hu₁ : UniqueIds c₁ := by
    unfold UniqueIds
    rwa [hheap]
  rw [uniqueIds_enrolled_iff_fresh hu₁ (hheap ▸ hp), hheap]
  rcases nextId_cases h with ⟨d, hd, hdn, heq, hfree, hbefore⟩ | ⟨hfull, hend⟩
  · rw [heq] at hid
    cases hid
    constructor
    · intro hall q t hq hen
      refine Or.inr ⟨d, hd, hdn, hfree, ?_⟩
      intro e h1 h2 heq'
      by_cases hed : e = d
      · subst hed
        exact hall q t hq heq'.symm
      · exact hbefore e h1 (by omega) (heq' ▸ entry_free h hu hq hen)
    · intro hkeep q t hq heq'
      cases hen : t.enqueued with
      | true =>
        have hentry := (h.table t.id q).mpr ⟨(h.enqueued q).mpr ⟨t, hq, hen⟩, t, hq, rfl⟩
        rw [heq', hfree] at hentry
        cases hentry
      | false =>
        rcases hkeep q t hq hen with hfull | ⟨d', h1, h2, hfree', hmiss⟩
        · exact hfull _ (Nat.mod_lt _ (Nat.lt_of_le_of_lt (Nat.zero_le _) h.cursor)) hfree
        · by_cases hdd : d ≤ d'
          · exact hmiss d hd hdd heq'.symm
          · exact hbefore d' h1 (by omega) hfree'
  · rcases hend with hexit | ⟨hgrow, -⟩
    · rw [hexit] at hid
      cases hid
    · rw [hgrow] at hid
      cases hid
      refine iff_of_true ?_ (fun q t _ _ => Or.inl hfull)
      intro q t hq
      exact Nat.ne_of_lt (h.ids q t hq)

/-! ## Runs -/

def BookedTrace : Traced → Prop
  | { core := .ok c, handed := handed } => Booked c handed
  | { core := .error _, handed := _ } => True

theorem trace_core (ops : List Op) : (trace ops).core = run (.ok boot) ops := by
  have hfold : ∀ (ops : List Op) (t : Traced),
      (ops.foldl Traced.step t).core = ops.foldl step t.core := by
    intro ops
    induction ops with
    | nil => exact fun _ => rfl
    | cons op ops ih => exact fun t => ih (t.step op)
  exact hfold ops _

theorem given_length_le (core : Except Fault State) (op : Op) :
    (given core op).length ≤ [op].countP Op.isAllocate := by
  cases op with
  | allocate p =>
    cases core with
    | error f => exact Nat.zero_le _
    | ok c => cases hc : c.heap p <;> simp [given, hc, Op.isAllocate]
  | _ => exact Nat.zero_le _

theorem handed_length_le (ops : List Op) :
    (trace ops).handed.length ≤ ops.countP Op.isAllocate := by
  have hfold : ∀ (ops : List Op) (t : Traced),
      (ops.foldl Traced.step t).handed.length ≤ t.handed.length + ops.countP Op.isAllocate := by
    intro ops
    induction ops with
    | nil => exact fun t => Nat.le_refl _
    | cons op ops ih =>
      intro t
      have hstep := ih (t.step op)
      have hgiven := given_length_le (step t.core op) op
      have hlen : (t.step op).handed.length =
          t.handed.length + (given (step t.core op) op).length := List.length_append
      have hsum : ([op] ++ ops).countP Op.isAllocate =
          [op].countP Op.isAllocate + ops.countP Op.isAllocate := List.countP_append
      rw [List.singleton_append] at hsum
      rw [List.foldl_cons]
      omega
  have h := hfold ops { core := .ok boot, handed := [] }
  rwa [List.length_nil, Nat.zero_add] at h

theorem booked_boot : Booked boot [] := by
  refine ⟨⟨[], coherent_boot⟩, rfl, ?_, ?_, ?_⟩
  · intro n h hn
    simp at hn
  · intro h hh
    simp at hh
  · intro p s hs
    cases hs

theorem not_safeHandles_of_dangling {h : Handle} (hh : h ∈ handed) (hdead : c.heap h.addr = none)
    (hlt : h.id < c.sockLimit) (hlimit : ∃ k, k ≤ 30 ∧ c.sockLimit = 2 ^ k)
    (hver : h.version ≠ -1) (hentry : c.socktab[h.id]? = some (some h.addr)) :
    ¬ SafeHandles { core := .ok c, handed := handed } := by
  rintro ⟨hfind, -⟩
  have hthis := hfind h hh
  obtain ⟨k, hk, hlimit⟩ := hlimit
  have hpow : 2 ^ k ≤ 2 ^ 30 := Nat.pow_le_pow_right Nat.two_pos hk
  have hint : (Int32.ofNat h.id).toInt = h.id := toInt_ofNat (by omega)
  have hmask : ¬ maskOut (Int32.ofNat h.id) c.sockLimit ≠ 0 := by
    rw [not_not, hlimit, maskOut_eq_zero_iff _ (by omega), hint]
    rw [hlimit] at hlt
    exact ⟨Int.natCast_nonneg _, by exact_mod_cast hlt⟩
  unfold svzSockFind at hthis
  rw [if_neg hmask, hint, Int.toNat_natCast, entry_eq hentry, ok_bind] at hthis
  dsimp only at hthis
  rw [if_neg hver] at hthis
  unfold State.load at hthis
  rw [hdead] at hthis
  cases hthis

theorem leavesValid_of_safeHandles (b : Booked c handed) (hlen : handed.length ≤ 2 ^ 31) {op : Op}
    (hop : op.isAllocate = false)
    (hsafe : SafeHandles (Traced.step { core := .ok c, handed := handed } op)) :
    op.LeavesValid c := by
  obtain ⟨l, h⟩ := b.coherent
  cases op with
  | allocate p => cases hop
  | modify p attrs => trivial
  | enqueue p => trivial
  | rechain => trivial
  | shutdown p callback =>
    intro s hs hen
    by_contra hv
    obtain ⟨c', hshut, hdead, -, hlimit, hentry⟩ :=
      svzSockShutdown_dangles h hs ((h.enqueued p).mpr ⟨s, hs, hen⟩) hv
    have hbook := b.live p s hs
    have hstep : Traced.step { core := .ok c, handed := handed } (.shutdown p callback) =
        { core := .ok c', handed := handed } := by
      have hcore : step (.ok c) (.shutdown p callback) = .ok c' := hshut
      unfold Traced.step
      dsimp only
      rw [hcore]
      simp [given]
    rw [hstep] at hsafe
    exact not_safeHandles_of_dangling hbook hdead (hlimit ▸ h.ids p s hs) (hlimit ▸ h.limit)
      (b.version_ne hlen hbook) hentry hsafe

theorem safeHandles_allocate (b : Booked c handed) (hu : UniqueIds c) {p : Addr}
    (hp : c.heap p = none) (hlen : handed.length < 2 ^ 31) :
    BookedTrace (Traced.step { core := .ok c, handed := handed } (.allocate p)) ∧
    (SafeHandles (Traced.step { core := .ok c, handed := handed } (.allocate p)) ↔
      Op.KeepsHandles c (.allocate p)) := by
  obtain ⟨l, h⟩ := b.coherent
  have hcore : step (.ok c) (.allocate p) = (nextId c).map (fun c' => enrolled c' p) :=
    allocate_eq p
  unfold Traced.step
  dsimp only
  rw [hcore]
  cases hid : nextId c with
  | error f =>
    obtain rfl := nextId_error hid
    refine ⟨trivial, iff_of_true trivial ?_⟩
    rcases nextId_cases h with ⟨d, -, -, heq, -⟩ | ⟨hfull, -⟩
    · rw [heq] at hid
      cases hid
    · exact fun q t _ _ => Or.inl hfull
  | ok c₁ =>
    have hb := booked_enrolled b hp hid
    have hgiven : given (Except.map (fun c' => enrolled c' p) (.ok c₁)) (.allocate p) =
        [{ addr := p, id := c₁.sockId, version := c₁.sockVersion }] := by
      change ((enrolled c₁ p).heap p |>.map _).toList = _
      rw [enrolled_heap_self]
      rfl
    rw [hgiven]
    refine ⟨hb, (safeHandles_iff hb ?_).trans (uniqueIds_enrolled_iff h hu hp hid)⟩
    rw [List.length_append, List.length_singleton]
    omega

theorem safeHandles_step {t : Traced} (hbook : BookedTrace t) (hsafe : SafeHandles t) {op : Op}
    (hproper : NextOp (fun c op => op.Proper c) t.core op)
    (hlen : t.handed.length + [op].countP Op.isAllocate ≤ 2 ^ 31) :
    (SafeHandles (t.step op) → NextOp (fun c op => op.KeepsHandles c) t.core op) ∧
    (NextOp (fun c op => op.KeepsHandles c) t.core op →
      BookedTrace (t.step op) ∧ SafeHandles (t.step op)) := by
  obtain ⟨core, handed⟩ := t
  cases core with
  | error f =>
    cases f with
    | exit => exact ⟨fun _ => trivial, fun _ => ⟨trivial, trivial⟩⟩
    | _ => exact absurd hsafe id
  | ok c =>
    dsimp only at hlen
    have b : Booked c handed := hbook
    have hu : UniqueIds c := hsafe.2.2.2
    cases hop : op.isAllocate with
    | true =>
      cases op with
      | allocate p =>
        have hone : [Op.allocate p].countP Op.isAllocate = 1 := rfl
        obtain ⟨hb, hiff⟩ := safeHandles_allocate b hu hproper (by omega)
        exact ⟨hiff.mp, fun hkeep => ⟨hb, hiff.mpr hkeep⟩⟩
      | _ => cases hop
    | false =>
      have hkeeps : Op.KeepsHandles c op = op.LeavesValid c := by
        cases op with
        | allocate p => cases hop
        | _ => rfl
      have hgiven : ∀ core, given core op = [] := by
        intro core
        cases op with
        | allocate p => cases hop
        | _ => rfl
      constructor
      · intro hnext
        change Op.KeepsHandles c op
        rw [hkeeps]
        exact leavesValid_of_safeHandles b (by omega) hop hnext
      · intro hkeep
        change Op.KeepsHandles c op at hkeep
        rw [hkeeps] at hkeep
        obtain ⟨l, h⟩ := b.coherent
        obtain ⟨c', happly, h', hk⟩ := apply_keepsIds h hproper hkeep hop
        have hcore : step (.ok c) op = .ok c' := happly
        have hb := hk.booked b h'
        unfold Traced.step
        dsimp only
        rw [hcore, hgiven, List.append_nil]
        exact ⟨hb, (safeHandles_iff hb (by omega)).mpr (hk.uniqueIds hu)⟩

/-- **Handles.** Enlarging the lookup table keeps all entries. In a run of the booted core
with fewer than `2 ^ 31` allocations, handles are safe in every state exactly if every step
meets its condition: no allocation reaches the id of a socket that is allocated and not
enqueued, and no listed socket is shut down with invalid descriptors. -/
theorem safeHandles_run_iff (ops : List Op) (hcount : ops.countP Op.isAllocate < 2 ^ 31)
    (hproper : ∀ pre op, pre ++ [op] <+: ops →
      NextOp (fun c op => op.Proper c) (trace pre).core op) :
    (∀ c c' : State, nextId c = .ok c' → ∀ (i : Nat) e, c.socktab[i]? = some e →
      c'.socktab[i]? = some e) ∧
    ((∀ pre, pre <+: ops → SafeHandles (trace pre)) ↔
      ∀ pre op, pre ++ [op] <+: ops →
        NextOp (fun c op => op.KeepsHandles c) (trace pre).core op) := by
  refine ⟨fun c c' hid i e he => nextId_keeps_entries hid he, ?_⟩
  have hlen : ∀ pre op, pre ++ [op] <+: ops →
      (trace pre).handed.length + [op].countP Op.isAllocate ≤ 2 ^ 31 := by
    intro pre op hpre
    have h1 := handed_length_le pre
    have h2 := hpre.sublist.countP_le (p := Op.isAllocate)
    rw [List.countP_append] at h2
    omega
  unfold trace at hproper hlen ⊢
  refine forall_prefix_iff_of_aux Traced.step BookedTrace SafeHandles
    (fun t op => NextOp (fun c op => op.KeepsHandles c) t.core op)
    (show BookedTrace { core := .ok boot, handed := [] } from booked_boot) ?_ ?_ ?_
  · refine (safeHandles_iff booked_boot (Nat.zero_le _)).mpr ?_
    intro p q s t hs
    cases hs
  · intro pre op hpre hbook hsafe
    exact (safeHandles_step hbook hsafe (hproper pre op hpre) (hlen pre op hpre)).1
  · intro pre op hpre hbook hsafe
    exact (safeHandles_step hbook hsafe (hproper pre op hpre) (hlen pre op hpre)).2

set_option maxRecDepth 100000 in
/-- One connection from its allocation to its shutdown. -/
theorem safeHandles_one_connection :
    oneConnection.countP Op.isAllocate < 2 ^ 31 ∧
    (∀ pre op, pre ++ [op] <+: oneConnection →
      NextOp (fun c op => op.Proper c) (trace pre).core op) ∧
    ∀ pre, pre <+: oneConnection → SafeHandles (trace pre) := by
  have hcount : oneConnection.countP Op.isAllocate < 2 ^ 31 := by decide
  have hproper : ∀ pre op, pre ++ [op] <+: oneConnection →
      NextOp (fun c op => op.Proper c) (trace pre).core op := by
    refine forall_steps ?_
    rintro (_ | _ | _ | _ | _ | n) op hop
    all_goals cases hop
    · exact rfl
    · exact rfl
    · exact rfl
    · exact trivial
    · exact rfl
  refine ⟨hcount, hproper, (safeHandles_run_iff oneConnection hcount hproper).2.mpr ?_⟩
  refine forall_steps ?_
  rintro (_ | _ | _ | _ | _ | n) op hop
  all_goals cases hop
  · intro q t hq
    cases hq
  · exact trivial
  · exact trivial
  · exact trivial
  · intro s hs _
    cases hs
    rfl

theorem freeId_empty (i : Nat) :
    freeId (List.replicate 1024 none) 1024 1024 i = (true, (i + 1) % 1024) := by
  change freeId (List.replicate 1024 none) 1024 (1023 + 1) i = _
  have hmask : (i + 1) &&& (1024 - 1) = (i + 1) % 1024 :=
    Nat.and_two_pow_sub_one_eq_mod (i + 1) 10
  rw [freeId, hmask, List.getElem?_replicate, if_pos (Nat.mod_lt _ (by decide)), if_pos rfl]

/-- Allocations alone leave the table empty, so the ids go round. -/
theorem run_allocations : ∀ n, ∃ c, run (.ok boot) ((List.range n).map Op.allocate) = .ok c ∧
    c.socktab = List.replicate 1024 none ∧ c.sockLimit = 1024 ∧ c.sockId = n % 1024 ∧
    ∀ p < n, (c.heap p).map Sock.id = some ((p + 1) % 1024) := by
  intro n
  induction n with
  | zero => exact ⟨boot, rfl, rfl, rfl, rfl, fun p hp => absurd hp (Nat.not_lt_zero p)⟩
  | succ n ih =>
    obtain ⟨c, hrun, htab, hlimit, hid, hheap⟩ := ih
    have hnext : nextId c = .ok { c with sockId := (n % 1024 + 1) % 1024 } := by
      unfold nextId
      rw [htab, hlimit, hid, freeId_empty]
    refine ⟨enrolled { c with sockId := (n % 1024 + 1) % 1024 } n, ?_, htab, hlimit, ?_, ?_⟩
    · unfold run at hrun ⊢
      rw [List.range_succ, List.map_append, List.map_singleton, foldl_concat, hrun]
      change allocate c n = _
      rw [allocate_eq, hnext]
      rfl
    · change (n % 1024 + 1) % 1024 = (n + 1) % 1024
      rw [Nat.mod_add_mod]
    · intro p hp
      by_cases hpn : p = n
      · subst hpn
        rw [enrolled_heap_self, Option.map_some]
        change some ((p % 1024 + 1) % 1024) = _
        rw [Nat.mod_add_mod]
      · rw [enrolled_heap_of_ne _ hpn]
        exact hheap p (by omega)

theorem not_safeHandles_of_many {n : Nat} (hn : 1024 < n) :
    ¬ SafeHandles (trace ((List.range n).map Op.allocate)) := by
  obtain ⟨c, hrun, -, -, -, hheap⟩ := run_allocations n
  intro hsafe
  have hcore := trace_core ((List.range n).map Op.allocate)
  rw [hrun] at hcore
  generalize trace ((List.range n).map Op.allocate) = t at hsafe hcore
  obtain ⟨core, handed⟩ := t
  obtain rfl : core = .ok c := hcore
  obtain ⟨s, hs, hsid⟩ := Option.map_eq_some_iff.mp (hheap 0 (by omega))
  obtain ⟨u, hu, huid⟩ := Option.map_eq_some_iff.mp (hheap 1024 hn)
  have hsame := hsafe.2.2.2 0 1024 s u hs hu (by rw [hsid, huid])
  exact absurd hsame (by decide)

/-- After 1025 allocations without an enqueue the last socket has the id of the first. -/
theorem not_safeHandles_after_allocations :
    ¬ SafeHandles (trace ((List.range 1025).map Op.allocate)) :=
  not_safeHandles_of_many (by decide)

end Serveez.Core
