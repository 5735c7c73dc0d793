import Serveez.Lib.Runs
import Serveez.Lib.Heap

/-!
# The coservers and their sockets

A running coserver is in the array `coservers`, its socket is in the lookup table of the core,
and the map `friendly` leads from the id of the socket to the coserver. `start` fills in all
of them; `svz_coserver_destroy` takes the coserver out of the array, `svz_sock_shutdown` runs
`disconnect`, which does so too, and frees the socket, and every socket that is freed takes
the entry with its id out of `friendly`.

A freed coserver is one that is not in the array. The blocks that `svz_malloc` gives and the
ids of `svz_sock_unique_id` are inputs; an operation with a block in use or an id in the
lookup table leaves the state alone. The processes and the pipes are left out.

* `step_coherent_iff`: which steps keep the map and the array together.
* `run_coherent_iff`: a run keeps them together exactly if all its steps are such.
-/

namespace Serveez.Coserver

open Lib

/-- The address of a socket or coserver structure. -/
abbrev Addr := Nat

structure Sock where
  id : Nat
  /-- `SVZ_SOFLG_ENQUEUED` -/
  enqueued : Bool
  /-- Whether the callbacks are those of a coserver. -/
  coserver : Bool

/-- `svz_coserver_t`, the structure at `addr`. -/
structure Instance where
  addr : Addr
  type : Nat
  sock : Addr
  busy : Int

structure State where
  /-- The allocated socket structures. -/
  socks : Addr → Option Sock
  socktab : Nat → Option Addr
  coservers : List Instance
  friendly : Nat → Option Addr

inductive Fault
  | assertionFailed
  | useAfterFree

/-! ## Sockets -/

/-- The structure as `svz_sock_alloc` leaves it has the id zero until `svz_sock_unique_id`
gives it one that is not in the lookup table. -/
def allocate (s : State) (p : Addr) (id : Option Nat) : State :=
  if (s.socks p).isSome || (id.bind s.socktab).isSome then s
  else { s with socks := Function.update s.socks p (some ⟨id.getD 0, false, false⟩) }

/-- `svz_sock_enqueue` -/
def enqueue (s : State) (p : Addr) : State :=
  match s.socks p with
  | none => s
  | some sock =>
    if (s.socktab sock.id).isSome || sock.enqueued then s
    else { s with
      socks := Function.update s.socks p (some { sock with enqueued := true })
      socktab := Function.update s.socktab sock.id (some p) }

def dequeue (s : State) (sock : Sock) : State :=
  if (s.socktab sock.id).isNone || !sock.enqueued then s
  else { s with socktab := Function.update s.socktab sock.id none }

/-- The function that `svz_sock_free` runs before the structure is released. -/
def forgetSock (s : State) (sock : Sock) : State :=
  { s with friendly := Function.update s.friendly sock.id none }

def svzSockFree (s : State) (p : Addr) (sock : Sock) : State :=
  let s := forgetSock s sock
  { s with socks := Function.update s.socks p none }

/-! ## Coservers -/

def deleteNth (coservers : List Instance) (n : Nat) : List Instance := coservers.eraseIdx n

/-- The `disconnected_socket` callback of a coserver deletes the first coserver with the
socket. -/
def disconnect (s : State) (p : Addr) : State :=
  { s with coservers := s.coservers.eraseP (·.sock == p) }

def svzSockShutdown (s : State) (p : Addr) : State :=
  match s.socks p with
  | none => s
  | some sock =>
    let s := if sock.coserver then disconnect s p else s
    svzSockFree (dequeue s sock) p sock

/-- A new coserver at `addr`. It is deleted again if there is no process or socket for it;
otherwise its socket at `p` has the given id and is enqueued. -/
def start (s : State) (type : Nat) (addr : Addr) (sock : Option (Addr × Nat)) : State :=
  if s.coservers.any (·.addr == addr) then s
  else match sock with
    | none =>
      let coservers := s.coservers ++ [⟨addr, type, 0, 0⟩]
      { s with coservers := deleteNth coservers (coservers.length - 1) }
    | some (p, id) =>
      if (s.socks p).isSome || (s.socktab id).isSome then s
      else { s with
        coservers := s.coservers ++ [⟨addr, type, p, 0⟩]
        socks := Function.update s.socks p (some ⟨id, true, true⟩)
        socktab := Function.update s.socktab id (some p)
        friendly := Function.update s.friendly id (some addr) }

/-- The loop of `svz_coserver_destroy` from position `n` on. It stays there when it has
deleted a coserver. -/
def destroyLoop (type : Nat) : Nat → Nat → List Instance → List Instance
  | 0, _, coservers => coservers
  | fuel + 1, n, coservers =>
    match coservers[n]? with
    | none => coservers
    | some c =>
      if c.type = type then destroyLoop type fuel n (deleteNth coservers n)
      else destroyLoop type fuel (n + 1) coservers

def svzCoserverDestroy (s : State) (type : Nat) : State :=
  { s with coservers := destroyLoop type s.coservers.length 0 s.coservers }

/-- The coserver that `check_request` finds for a socket. -/
def lookup (s : State) (sock : Sock) : Except Fault Instance :=
  match s.friendly sock.id with
  | none => .error .assertionFailed
  | some addr =>
    match s.coservers.find? (·.addr == addr) with
    | none => .error .useAfterFree
    | some c => .ok c

/-- `check_request` on a socket that has received the given number of lines. -/
def checkRequest (s : State) (sock : Sock) (lines : Nat) : Except Fault State :=
  (lookup s sock).map fun c => { s with
    coservers := s.coservers.map fun d =>
      if d.addr = c.addr then { d with busy := d.busy - lines } else d }

/-! ## Runs -/

inductive Op
  | allocate (p : Addr) (id : Option Nat)
  | enqueue (p : Addr)
  /-- `svz_sock_free` of a socket that is not enqueued. -/
  | free (p : Addr)
  | shutdown (p : Addr)
  | start (type : Nat) (addr : Addr) (sock : Option (Addr × Nat))
  | destroy (type : Nat)
  /-- Lines of responses arrive at the socket of a coserver. -/
  | respond (p : Addr) (lines : Nat)

/-- The state after a fault is of no interest. -/
def respond (s : State) (p : Addr) (lines : Nat) : State :=
  match s.socks p with
  | none => s
  | some sock =>
    if sock.enqueued && sock.coserver then (checkRequest s sock lines).toOption.getD s else s

def free (s : State) (p : Addr) : State :=
  match s.socks p with
  | none => s
  | some sock => if sock.enqueued then s else svzSockFree s p sock

def step (s : State) : Op → State
  | .allocate p id => allocate s p id
  | .enqueue p => enqueue s p
  | .free p => free s p
  | .shutdown p => svzSockShutdown s p
  | .start type addr sock => start s type addr sock
  | .destroy type => svzCoserverDestroy s type
  | .respond p lines => respond s p lines

def run (s : State) (ops : List Op) : State := ops.foldl step s

/-- Before the first coserver is started. -/
def initial : State where
  socks := fun _ => none
  socktab := fun _ => none
  coservers := []
  friendly := fun _ => none

/-! ## The invariant -/

/-- Every value of the map is a coserver in the array that owns the socket with that id, and
`check_request` finds the coserver of its socket. -/
structure Coherent (s : State) : Prop where
  value : ∀ id addr, s.friendly id = some addr →
    ∃ c ∈ s.coservers, c.addr = addr ∧ ∃ sock, s.socks c.sock = some sock ∧ sock.id = id
  found : ∀ p sock, s.socks p = some sock → sock.enqueued = true → sock.coserver = true →
    ∃ c ∈ s.coservers, c.sock = p ∧ lookup s sock = .ok c

/-- What the operations keep in any case. -/
structure Sound (s : State) : Prop where
  nodup : (s.coservers.map (·.addr)).Nodup
  socktab : ∀ p sock, s.socks p = some sock → sock.enqueued = true → s.socktab sock.id = some p
  enqueued : ∀ p sock, s.socks p = some sock → sock.coserver = true → sock.enqueued = true

/-- The condition on a step. -/
def Harmless (s : State) : Op → Prop
  | .destroy type => ∀ c ∈ s.coservers, c.type = type → ∀ id, s.friendly id ≠ some c.addr
  | .free p => ∀ sock, s.socks p = some sock → sock.enqueued = false →
    ∀ q other, s.socks q = some other → other.coserver = true → other.id ≠ sock.id
  | .shutdown p => ∀ sock, s.socks p = some sock →
    ∀ q other, q ≠ p → s.socks q = some other → other.coserver = true → other.id ≠ sock.id
  | _ => True

variable {s : State}

/-! ## Lookups -/

theorem lookup_ok_iff (h : (s.coservers.map (·.addr)).Nodup) {sock : Sock} {c : Instance} :
    lookup s sock = .ok c ↔ s.friendly sock.id = some c.addr ∧ c ∈ s.coservers := by
  unfold lookup
  cases hf : s.friendly sock.id with
  | none => simp
  | some addr =>
    cases hfind : s.coservers.find? (·.addr == addr) with
    | none =>
      simp only [hfind, reduceCtorEq, Option.some.injEq, false_iff]
      rintro ⟨rfl, hc⟩
      have := List.find?_eq_none.mp hfind c hc
      simp at this
    | some d =>
      have hd := List.mem_of_find?_eq_some hfind
      have haddr : d.addr = addr := by simpa using List.find?_some hfind
      simp only [hfind, Except.ok.injEq, Option.some.injEq]
      constructor
      · rintro rfl
        exact ⟨haddr.symm, hd⟩
      · rintro ⟨hc, hmem⟩
        exact List.inj_on_of_nodup_map h hd hmem (haddr.trans hc)

/-- The second half of the invariant in terms of the map. -/
theorem found_iff (h : (s.coservers.map (·.addr)).Nodup) {p : Addr} {sock : Sock} :
    (∃ c ∈ s.coservers, c.sock = p ∧ lookup s sock = .ok c) ↔
      ∃ c ∈ s.coservers, c.sock = p ∧ s.friendly sock.id = some c.addr := by
  constructor
  · rintro ⟨c, hc, hp, hl⟩
    exact ⟨c, hc, hp, ((lookup_ok_iff h).mp hl).1⟩
  · rintro ⟨c, hc, hp, hf⟩
    exact ⟨c, hc, hp, (lookup_ok_iff h).mpr ⟨hf, hc⟩⟩

/-! ## Destroying -/

theorem destroyLoop_eq (type fuel n : Nat) (coservers : List Instance)
    (hfuel : coservers.length - n ≤ fuel) :
    destroyLoop type fuel n coservers =
      coservers.take n ++ (coservers.drop n).filter (·.type ≠ type) := by
  induction fuel generalizing n coservers with
  | zero =>
    rw [destroyLoop, List.drop_of_length_le (by omega), List.take_of_length_le (by omega)]
    simp
  | succ fuel ih =>
    rw [destroyLoop]
    cases hn : coservers[n]? with
    | none =>
      have hle := List.getElem?_eq_none_iff.mp hn
      rw [List.drop_of_length_le hle, List.take_of_length_le hle]
      simp
    | some c =>
      obtain ⟨hlt, rfl⟩ := List.getElem?_eq_some_iff.mp hn
      have hdrop := List.drop_eq_getElem_cons hlt
      dsimp only
      by_cases htype : coservers[n].type = type
      · rw [if_pos htype, deleteNth, ih n _ (by rw [List.length_eraseIdx_of_lt hlt]; omega),
          List.eraseIdx_eq_take_drop_succ,
          List.take_left' (List.length_take_of_le (Nat.le_of_lt hlt)),
          List.drop_left' (List.length_take_of_le (Nat.le_of_lt hlt)), hdrop,
          List.filter_cons_of_neg (by simp [htype])]
      · rw [if_neg htype, ih (n + 1) _ (by omega), hdrop,
          List.filter_cons_of_pos (by simp [htype]), List.take_succ_eq_append_getElem hlt,
          List.append_assoc, List.singleton_append]

theorem destroy_coservers (s : State) (type : Nat) :
    (svzCoserverDestroy s type).coservers = s.coservers.filter (·.type ≠ type) :=
  destroyLoop_eq type s.coservers.length 0 s.coservers (Nat.sub_le _ _)

/-! ## Starting and responding -/

theorem start_cases (s : State) (type : Nat) (addr : Addr) (sock : Option (Addr × Nat)) :
    start s type addr sock = s ∨
    ∃ p id, (∀ c ∈ s.coservers, c.addr ≠ addr) ∧ s.socks p = none ∧ s.socktab id = none ∧
      start s type addr sock =
        ⟨Function.update s.socks p (some ⟨id, true, true⟩),
          Function.update s.socktab id (some p),
          s.coservers ++ [⟨addr, type, p, 0⟩],
          Function.update s.friendly id (some addr)⟩ := by
  unfold start
  split
  · exact Or.inl rfl
  · rename_i hnew
    cases sock with
    | none =>
      left
      dsimp only
      rw [deleteNth, List.length_append, List.length_singleton, Nat.add_sub_cancel,
        List.eraseIdx_append_of_length_le (Nat.le_refl _), Nat.sub_self]
      simp
    | some pair =>
      obtain ⟨p, id⟩ := pair
      dsimp only
      split
      · exact Or.inl rfl
      · rename_i hfree
        simp only [Bool.or_eq_true, not_or, Option.not_isSome_iff_eq_none] at hfree
        refine Or.inr ⟨p, id, ?_, hfree.1, hfree.2, rfl⟩
        intro c hc he
        exact hnew (List.any_eq_true.mpr ⟨c, hc, by simpa using he⟩)

theorem respond_cases (s : State) (p : Addr) (lines : Nat) :
    respond s p lines = s ∨
    ∃ f : Instance → Instance, (∀ d, (f d).addr = d.addr ∧ (f d).sock = d.sock) ∧
      respond s p lines = { s with coservers := s.coservers.map f } := by
  unfold respond
  cases s.socks p with
  | none => exact Or.inl rfl
  | some sock =>
    dsimp only
    split
    · unfold checkRequest
      cases lookup s sock with
      | error e => exact Or.inl rfl
      | ok c =>
        refine Or.inr ⟨_, fun d => ?_, rfl⟩
        split <;> exact ⟨rfl, rfl⟩
    · exact Or.inl rfl

/-! ## What every step keeps -/

theorem sound_initial : Sound initial where
  nodup := List.nodup_nil
  socktab := fun _ _ h => absurd h (by simp [initial])
  enqueued := fun _ _ h => absurd h (by simp [initial])

theorem allocate_sound (h : Sound s) (p : Addr) (id : Option Nat) : Sound (allocate s p id) := by
  unfold allocate
  split
  · exact h
  · refine ⟨h.nodup, fun q sock hq => ?_, fun q sock hq => ?_⟩
    · obtain ⟨-, ⟨⟩⟩ | ⟨-, hq⟩ := update_eq_some_iff.mp hq
      · exact fun henq => absurd henq (by simp)
      · exact h.socktab q sock hq
    · obtain ⟨-, ⟨⟩⟩ | ⟨-, hq⟩ := update_eq_some_iff.mp hq
      · exact fun hco => absurd hco (by simp)
      · exact h.enqueued q sock hq

theorem enqueue_sound (h : Sound s) (p : Addr) : Sound (enqueue s p) := by
  unfold enqueue
  cases hp : s.socks p with
  | none => exact h
  | some sock =>
    dsimp only
    split
    · exact h
    · rename_i hfree
      simp only [Bool.or_eq_true, not_or, Option.not_isSome_iff_eq_none] at hfree
      refine ⟨h.nodup, fun q other hq henq => ?_, fun q other hq hco => ?_⟩
      · obtain ⟨rfl, ⟨⟩⟩ | ⟨-, hq⟩ := update_eq_some_iff.mp hq
        · exact Function.update_self _ _ _
        · have hold := h.socktab q other hq henq
          have hid : other.id ≠ sock.id := fun he => by simp [he, hfree.1] at hold
          exact (Function.update_of_ne hid _ _).trans hold
      · obtain ⟨rfl, ⟨⟩⟩ | ⟨-, hq⟩ := update_eq_some_iff.mp hq
        · rfl
        · exact h.enqueued q other hq hco

/-- A socket is released, with its table entry or without. -/
theorem release_sound (h : Sound s) {p : Addr} {coservers : List Instance}
    (hsub : coservers.Sublist s.coservers) {socktab : Nat → Option Addr}
    (htab : ∀ q sock, q ≠ p → s.socks q = some sock → sock.enqueued = true →
      socktab sock.id = some q) (friendly : Nat → Option Addr) :
    Sound ⟨Function.update s.socks p none, socktab, coservers, friendly⟩ := by
  refine ⟨(hsub.map _).nodup h.nodup, fun q sock hq henq => ?_, fun q sock hq hco => ?_⟩
  · obtain ⟨hne, hq⟩ := update_none_eq_some_iff.mp hq
    exact htab q sock hne hq henq
  · obtain ⟨-, hq⟩ := update_none_eq_some_iff.mp hq
    exact h.enqueued q sock hq hco

theorem free_sound (h : Sound s) (p : Addr) : Sound (free s p) := by
  unfold free
  cases s.socks p with
  | none => exact h
  | some sock =>
    dsimp only
    split
    · exact h
    · exact release_sound h (List.Sublist.refl _) (fun q other _ hq => h.socktab q other hq) _

@[simp] theorem dequeue_disconnect (s : State) (p : Addr) (sock : Sock) :
    dequeue (disconnect s p) sock = disconnect (dequeue s sock) p := by
  unfold dequeue disconnect
  dsimp only
  split <;> rfl

theorem dequeue_eq (s : State) (sock : Sock) :
    dequeue s sock = { s with socktab := (dequeue s sock).socktab } := by
  unfold dequeue
  split <;> rfl

/-- The state after `svz_sock_shutdown` of an allocated socket. -/
theorem shutdown_eq {p : Addr} {sock : Sock} (hp : s.socks p = some sock) :
    svzSockShutdown s p =
      ⟨Function.update s.socks p none, (dequeue s sock).socktab,
        if sock.coserver then s.coservers.eraseP (·.sock == p) else s.coservers,
        Function.update s.friendly sock.id none⟩ := by
  unfold svzSockShutdown
  rw [hp]
  cases hco : sock.coserver with
  | false =>
    simp only [hco, Bool.false_eq_true, if_false]
    rw [dequeue_eq]
    rfl
  | true =>
    simp only [hco, if_true, dequeue_disconnect]
    rw [dequeue_eq]
    rfl

theorem shutdown_sound (h : Sound s) (p : Addr) : Sound (svzSockShutdown s p) := by
  cases hp : s.socks p with
  | none =>
    rw [svzSockShutdown, hp]
    exact h
  | some sock =>
    rw [shutdown_eq hp]
    refine release_sound h ?_ (fun q other hne hq henq => ?_) _
    · split
      · exact List.eraseP_sublist
      · exact List.Sublist.refl _
    · have hold := h.socktab q other hq henq
      unfold dequeue
      split
      · exact hold
      · rename_i hin
        simp only [Bool.or_eq_true, Bool.not_eq_true', not_or, Bool.not_eq_false] at hin
        have hown := h.socktab p sock hp hin.2
        have hid : other.id ≠ sock.id := by
          intro he
          rw [he, hown] at hold
          exact hne (Option.some.inj hold).symm
        exact (Function.update_of_ne hid _ _).trans hold

theorem start_sound (h : Sound s) (type : Nat) (addr : Addr) (sock : Option (Addr × Nat)) :
    Sound (start s type addr sock) := by
  rcases start_cases s type addr sock with heq | ⟨p, id, hnew, hp, hid, heq⟩
  · rw [heq]
    exact h
  · rw [heq]
    refine ⟨?_, fun q other hq henq => ?_, fun q other hq hco => ?_⟩
    · rw [List.map_append, List.nodup_append]
      refine ⟨h.nodup, List.nodup_singleton _, ?_⟩
      intro a ha b hb
      obtain ⟨c, hc, rfl⟩ := List.mem_map.mp ha
      rw [List.map_singleton, List.mem_singleton] at hb
      exact hb ▸ hnew c hc
    · obtain ⟨rfl, ⟨⟩⟩ | ⟨-, hq⟩ := update_eq_some_iff.mp hq
      · exact Function.update_self _ _ _
      · have hold := h.socktab q other hq henq
        have hne : other.id ≠ id := fun he => by simp [he, hid] at hold
        exact (Function.update_of_ne hne _ _).trans hold
    · obtain ⟨rfl, ⟨⟩⟩ | ⟨-, hq⟩ := update_eq_some_iff.mp hq
      · rfl
      · exact h.enqueued q other hq hco

theorem destroy_sound (h : Sound s) (type : Nat) : Sound (svzCoserverDestroy s type) where
  nodup := by
    rw [destroy_coservers]
    exact (List.filter_sublist.map _).nodup h.nodup
  socktab := h.socktab
  enqueued := h.enqueued

theorem respond_sound (h : Sound s) (p : Addr) (lines : Nat) : Sound (respond s p lines) := by
  rcases respond_cases s p lines with heq | ⟨f, hf, heq⟩
  · rw [heq]
    exact h
  · rw [heq]
    refine ⟨?_, h.socktab, h.enqueued⟩
    have haddr : (s.coservers.map f).map (·.addr) = s.coservers.map (·.addr) := by
      rw [List.map_map]
      exact List.map_congr_left fun d _ => (hf d).1
    rw [haddr]
    exact h.nodup

theorem step_sound (h : Sound s) (op : Op) : Sound (step s op) := by
  cases op with
  | allocate p id => exact allocate_sound h p id
  | enqueue p => exact enqueue_sound h p
  | free p => exact free_sound h p
  | shutdown p => exact shutdown_sound h p
  | start type addr sock => exact start_sound h type addr sock
  | destroy type => exact destroy_sound h type
  | respond p lines => exact respond_sound h p lines

/-! ## The map and the array -/

theorem coherent_iff (h : Sound s) : Coherent s ↔
    (∀ id addr, s.friendly id = some addr →
      ∃ c ∈ s.coservers, c.addr = addr ∧ ∃ sock, s.socks c.sock = some sock ∧ sock.id = id) ∧
    (∀ p sock, s.socks p = some sock → sock.enqueued = true → sock.coserver = true →
      ∃ c ∈ s.coservers, c.sock = p ∧ s.friendly sock.id = some c.addr) := by
  constructor
  · intro hc
    exact ⟨hc.value, fun p sock hp henq hco => (found_iff h.nodup).mp (hc.found p sock hp henq hco)⟩
  · rintro ⟨hvalue, hfound⟩
    exact ⟨hvalue, fun p sock hp henq hco => (found_iff h.nodup).mpr (hfound p sock hp henq hco)⟩

theorem coherent_initial : Coherent initial where
  value := fun _ _ h => absurd h (by simp [initial])
  found := fun _ _ h => absurd h (by simp [initial])

theorem allocate_coherent (h : Sound s) (hc : Coherent s) (p : Addr) (id : Option Nat) :
    Coherent (allocate s p id) := by
  refine (coherent_iff (allocate_sound h p id)).mpr ?_
  obtain ⟨hvalue, hfound⟩ := (coherent_iff h).mp hc
  unfold allocate
  split
  · exact ⟨hvalue, hfound⟩
  · rename_i hfree
    simp only [Bool.or_eq_true, not_or, Option.not_isSome_iff_eq_none] at hfree
    constructor
    · intro i addr hi
      obtain ⟨c, hmem, haddr, sock, hsock, hid⟩ := hvalue i addr hi
      have hne : c.sock ≠ p := fun he => by simp [he, hfree.1] at hsock
      exact ⟨c, hmem, haddr, sock, (Function.update_of_ne hne _ _).trans hsock, hid⟩
    · intro q sock hq henq
      obtain ⟨-, ⟨⟩⟩ | ⟨-, hq⟩ := update_eq_some_iff.mp hq
      · exact absurd henq (by simp)
      · exact hfound q sock hq henq

theorem enqueue_coherent (h : Sound s) (hc : Coherent s) (p : Addr) :
    Coherent (enqueue s p) := by
  refine (coherent_iff (enqueue_sound h p)).mpr ?_
  obtain ⟨hvalue, hfound⟩ := (coherent_iff h).mp hc
  unfold enqueue
  cases hp : s.socks p with
  | none => exact ⟨hvalue, hfound⟩
  | some sock =>
    dsimp only
    split
    · exact ⟨hvalue, hfound⟩
    · rename_i hfree
      simp only [Bool.or_eq_true, not_or, Bool.not_eq_true] at hfree
      constructor
      · intro i addr hi
        obtain ⟨c, hmem, haddr, other, hother, hid⟩ := hvalue i addr hi
        refine ⟨c, hmem, haddr, ?_⟩
        by_cases hcp : c.sock = p
        · rw [hcp, hp] at hother
          cases hother
          have hself : Function.update s.socks p (some { sock with enqueued := true }) c.sock =
              some { sock with enqueued := true } := by rw [hcp, Function.update_self]
          exact ⟨_, hself, hid⟩
        · exact ⟨other, (Function.update_of_ne hcp _ _).trans hother, hid⟩
      · intro q other hq henq hco
        obtain ⟨rfl, ⟨⟩⟩ | ⟨-, hq⟩ := update_eq_some_iff.mp hq
        · have := h.enqueued q sock hp hco
          simp [hfree.2] at this
        · exact hfound q other hq henq hco

theorem start_coherent (h : Sound s) (hc : Coherent s) (type : Nat) (addr : Addr)
    (sock : Option (Addr × Nat)) : Coherent (start s type addr sock) := by
  refine (coherent_iff (start_sound h type addr sock)).mpr ?_
  obtain ⟨hvalue, hfound⟩ := (coherent_iff h).mp hc
  rcases start_cases s type addr sock with heq | ⟨p, id, -, hp, hid, heq⟩
  · rw [heq]
    exact ⟨hvalue, hfound⟩
  · rw [heq]
    constructor
    · intro i a hi
      obtain ⟨rfl, ⟨⟩⟩ | ⟨-, hi⟩ := update_eq_some_iff.mp hi
      · exact ⟨_, List.mem_append_right _ (List.mem_singleton_self _), rfl, _,
          Function.update_self _ _ _, rfl⟩
      · obtain ⟨c, hmem, haddr, other, hother, hoid⟩ := hvalue i a hi
        have hne : c.sock ≠ p := fun he => by simp [he, hp] at hother
        exact ⟨c, List.mem_append_left _ hmem, haddr, other,
          (Function.update_of_ne hne _ _).trans hother, hoid⟩
    · intro q other hq henq hco
      obtain ⟨rfl, ⟨⟩⟩ | ⟨-, hq⟩ := update_eq_some_iff.mp hq
      · exact ⟨_, List.mem_append_right _ (List.mem_singleton_self _), rfl,
          Function.update_self _ _ _⟩
      · obtain ⟨c, hmem, hcq, hf⟩ := hfound q other hq henq hco
        have hne : other.id ≠ id := fun he => by
          have := h.socktab q other hq henq
          simp [he, hid] at this
        exact ⟨c, List.mem_append_left _ hmem, hcq, (Function.update_of_ne hne _ _).trans hf⟩

theorem respond_coherent (h : Sound s) (hc : Coherent s) (p : Addr) (lines : Nat) :
    Coherent (respond s p lines) := by
  refine (coherent_iff (respond_sound h p lines)).mpr ?_
  obtain ⟨hvalue, hfound⟩ := (coherent_iff h).mp hc
  rcases respond_cases s p lines with heq | ⟨f, hf, heq⟩
  · rw [heq]
    exact ⟨hvalue, hfound⟩
  · rw [heq]
    constructor
    · intro i addr hi
      obtain ⟨c, hmem, haddr, sock, hsock, hid⟩ := hvalue i addr hi
      exact ⟨f c, List.mem_map_of_mem hmem, (hf c).1.trans haddr, sock,
        by rw [(hf c).2]; exact hsock, hid⟩
    · intro q sock hq henq hco
      obtain ⟨c, hmem, hcq, hfr⟩ := hfound q sock hq henq hco
      exact ⟨f c, List.mem_map_of_mem hmem, (hf c).2.trans hcq, hfr.trans (by rw [(hf c).1])⟩

/-- A socket is released and takes the map entry with its id along, while the array keeps
the coservers of all other sockets. -/
theorem release_coherent_iff {s' : State} (h : Sound s) (h' : Sound s') (hc : Coherent s)
    {p : Addr} {sock : Sock} (hp : s.socks p = some sock)
    (hsocks : s'.socks = Function.update s.socks p none)
    (hfriendly : s'.friendly = Function.update s.friendly sock.id none)
    (hkept : ∀ c ∈ s.coservers, c.sock ≠ p → c ∈ s'.coservers) :
    Coherent s' ↔ ∀ q other, q ≠ p → s.socks q = some other → other.coserver = true →
      other.id ≠ sock.id := by
  obtain ⟨hvalue, hfound⟩ := (coherent_iff h).mp hc
  rw [coherent_iff h', hsocks, hfriendly]
  constructor
  · rintro ⟨-, hfound'⟩ q other hne hq hco hid
    obtain ⟨c, -, -, hf⟩ := hfound' q other ((Function.update_of_ne hne _ _).trans hq)
      (h.enqueued q other hq hco) hco
    rw [hid, Function.update_self] at hf
    cases hf
  · intro hother
    constructor
    · intro i addr hi
      obtain ⟨hne, hi⟩ := update_none_eq_some_iff.mp hi
      obtain ⟨c, hmem, haddr, k, hk, hid⟩ := hvalue i addr hi
      have hcp : c.sock ≠ p := by
        intro he
        rw [he, hp] at hk
        cases hk
        exact hne hid.symm
      exact ⟨c, hkept c hmem hcp, haddr, k, (Function.update_of_ne hcp _ _).trans hk, hid⟩
    · intro q other hq henq hco
      obtain ⟨hne, hq⟩ := update_none_eq_some_iff.mp hq
      obtain ⟨c, hmem, rfl, hf⟩ := hfound q other hq henq hco
      exact ⟨c, hkept c hmem hne, rfl,
        (Function.update_of_ne (hother _ other hne hq hco) _ _).trans hf⟩

theorem free_coherent_iff (h : Sound s) (hc : Coherent s) (p : Addr) :
    Coherent (free s p) ↔ Harmless s (.free p) := by
  have h' := free_sound h p
  cases hp : s.socks p with
  | none =>
    have hfree : free s p = s := by simp only [free, hp]
    simp [hfree, hc, Harmless, hp]
  | some sock =>
    cases henq : sock.enqueued with
    | true =>
      have hfree : free s p = s := by simp only [free, hp, henq, if_true]
      simp [hfree, hc, Harmless, hp, henq]
    | false =>
      have hfree : free s p = svzSockFree s p sock := by
        simp only [free, hp, henq, Bool.false_eq_true, if_false]
      rw [hfree] at h' ⊢
      rw [release_coherent_iff h h' hc hp rfl rfl (fun c hmem _ => hmem)]
      constructor
      · intro hother k hk _ q other hq hco
        cases hp.symm.trans hk
        refine hother q other ?_ hq hco
        rintro rfl
        cases hp.symm.trans hq
        have := h.enqueued q sock hp hco
        simp [henq] at this
      · intro hharm q other _ hq hco
        exact hharm sock hp henq q other hq hco

theorem shutdown_coherent_iff (h : Sound s) (hc : Coherent s) (p : Addr) :
    Coherent (svzSockShutdown s p) ↔ Harmless s (.shutdown p) := by
  have h' := shutdown_sound h p
  cases hp : s.socks p with
  | none =>
    have hsame : svzSockShutdown s p = s := by simp only [svzSockShutdown, hp]
    simp [hsame, hc, Harmless, hp]
  | some sock =>
    rw [shutdown_eq hp] at h' ⊢
    rw [release_coherent_iff h h' hc hp rfl rfl]
    · constructor
      · intro hother k hk
        cases hp.symm.trans hk
        exact hother
      · intro hharm
        exact hharm sock hp
    · intro c hmem hcp
      dsimp only
      split
      · exact (List.mem_eraseP_of_neg (by simpa using hcp)).mpr hmem
      · exact hmem

theorem destroy_coherent_iff (h : Sound s) (hc : Coherent s) (type : Nat) :
    Coherent (svzCoserverDestroy s type) ↔ Harmless s (.destroy type) := by
  obtain ⟨hvalue, hfound⟩ := (coherent_iff h).mp hc
  rw [coherent_iff (destroy_sound h type), destroy_coservers]
  constructor
  · rintro ⟨hvalue', -⟩ c hmem htype id hf
    obtain ⟨d, hd, haddr, -⟩ := hvalue' id c.addr hf
    obtain ⟨hdmem, hdtype⟩ := List.mem_filter.mp hd
    have hdc : d = c := List.inj_on_of_nodup_map h.nodup hdmem hmem haddr
    rw [hdc] at hdtype
    simp [htype] at hdtype
  · intro hharm
    have hkept : ∀ c ∈ s.coservers, ∀ id, s.friendly id = some c.addr →
        c ∈ s.coservers.filter (·.type ≠ type) := by
      intro c hmem id hf
      refine List.mem_filter.mpr ⟨hmem, ?_⟩
      simpa using fun htype => hharm c hmem htype id hf
    constructor
    · intro id addr hf
      obtain ⟨c, hmem, rfl, hsock⟩ := hvalue id addr hf
      exact ⟨c, hkept c hmem id hf, rfl, hsock⟩
    · intro p sock hp henq hco
      obtain ⟨c, hmem, hcp, hf⟩ := hfound p sock hp henq hco
      exact ⟨c, hkept c hmem sock.id hf, hcp, hf⟩

theorem step_coherent_iff (h : Sound s) (hc : Coherent s) (op : Op) :
    Coherent (step s op) ↔ Harmless s op := by
  cases op with
  | allocate p id => exact iff_of_true (allocate_coherent h hc p id) trivial
  | enqueue p => exact iff_of_true (enqueue_coherent h hc p) trivial
  | free p => exact free_coherent_iff h hc p
  | shutdown p => exact shutdown_coherent_iff h hc p
  | start type addr sock => exact iff_of_true (start_coherent h hc type addr sock) trivial
  | destroy type => exact destroy_coherent_iff h hc type
  | respond p lines => exact iff_of_true (respond_coherent h hc p lines) trivial

/-! ## Whole runs -/

/-- The map and the array stay together in every state of a run exactly if no
`svz_coserver_destroy` meets a coserver of its type that is still in the map, and no socket
is released that has the id of another socket, which a coserver answers on. -/
theorem run_coherent_iff (ops : List Op) :
    (∀ pre, pre <+: ops → Coherent (run initial pre)) ↔
      ∀ pre op, pre ++ [op] <+: ops → Harmless (run initial pre) op :=
  forall_prefix_iff_of_aux step Sound Coherent Harmless sound_initial coherent_initial
    (fun _ op _ h hc hnext => (step_coherent_iff h hc op).mp hnext)
    (fun _ op _ h hc hharm => ⟨step_sound h op, (step_coherent_iff h hc op).mpr hharm⟩)

/-- One coserver is started and its type is destroyed. -/
theorem not_coherent_destroyed :
    ¬ ∀ ops : List Op, ∀ pre, pre <+: ops → Coherent (run initial pre) := by
  intro hall
  let ops : List Op := [.start 0 8 (some (16, 1)), .destroy 0]
  have hvalue := (hall ops ops (List.prefix_refl ops)).value 1 8 rfl
  obtain ⟨c, hc, -⟩ := hvalue
  exact absurd hc (List.not_mem_nil)

end Serveez.Coserver
