import Serveez.Core.SockList
import Serveez.Lib.Runs

/-!
# The number of connections

`svz_sock_connections` is counted up where a connection is made and down in
`svz_sock_disconnect`, which goes by the flags of the socket. It limits what `tcp_accept`
takes in.

A socket is known by its number among all that were allocated. What is left out has no part in
the count: the descriptors, the list of the sockets, and the ways in which a socket is not
made at all. A socket that has just got its id and its descriptor is enqueued without fail.

* `step_counted_iff`: which steps keep the counter true.
* `run_counted_iff`: it is true all through a run exactly if all steps are such.
-/

namespace Serveez.Core.Connections

open Lib

structure Sock where
  flags : Flags
  /-- `SVZ_SOFLG_ENQUEUED` -/
  enqueued : Bool

structure State where
  /-- A socket that has been freed is none. -/
  socks : List (Option Sock)
  svzSockConnections : Int

/-- The flags after `svz_sock_alloc`. -/
def noFlags : Flags := ⟨false, false, false, false, false, false, false, false⟩

/-- The flags after `svz_sock_create`. -/
def sockFlags : Flags := { noFlags with connected := true, sock := true }

/-- The flags after `svz_pipe_create`. -/
def pipeFlags : Flags := { noFlags with connected := true, recvPipe := true, sendPipe := true }

/-! ## Making sockets -/

/-- A new socket gets its flags and is enqueued. -/
def enqueueNew (s : State) (flags : Flags) : State :=
  { s with socks := s.socks ++ [some ⟨flags, true⟩] }

def countUp (s : State) : State := { s with svzSockConnections := s.svzSockConnections + 1 }

/-- A client is rejected when there are too many. -/
def tcpAccept (s : State) (maxSockets : Int) : State :=
  if maxSockets ≤ s.svzSockConnections then s else countUp (enqueueNew s sockFlags)

def pipeAccept (s : State) : State := enqueueNew s pipeFlags

/-- The listener that `svz_server_create` makes. -/
def serverCreate (s : State) (pipe : Bool) : State :=
  let flags := if pipe then { noFlags with recvPipe := true } else sockFlags
  enqueueNew s { flags with listening := true, connected := false }

def svzTcpConnect (s : State) : State :=
  enqueueNew s { noFlags with sock := true, connecting := true }

def svzUdpConnect (s : State) : State := countUp (enqueueNew s sockFlags)

def svzIcmpConnect (s : State) : State := countUp (enqueueNew s sockFlags)

def svzPipeConnect (s : State) : State := countUp (enqueueNew s pipeFlags)

/-- What `getsockopt` says about a connection that was being made. -/
inductive Progress
  | failed
  | inProgress
  | connected

/-- The server loop calls `tcp_default_connect` while the socket is connecting. -/
def tcpDefaultConnect (s : State) (p : Nat) (progress : Progress) : State :=
  match s.socks[p]? with
  | some (some sock) =>
    if sock.flags.connecting && sock.flags.sock then
      match progress with
      | .failed | .inProgress => s
      | .connected =>
        let flags := { sock.flags with connected := true, connecting := false }
        countUp { s with socks := s.socks.set p (some { sock with flags := flags }) }
    else s
  | _ => s

inductive Process
  /-- `SVZ_PROCESS_FORK` -/
  | fork
  | shuffleSock
  | shufflePipe

/-- `svz_sock_process` -/
def svzSockProcess (s : State) : Process → State
  | .fork => s
  | .shuffleSock => enqueueNew s sockFlags
  | .shufflePipe => enqueueNew s pipeFlags

/-! ## Closing them -/

def svzSockDisconnect (s : State) (sock : Sock) : State :=
  if sock.flags.connected then { s with svzSockConnections := s.svzSockConnections - 1 } else s

def svzSockShutdown (s : State) (p : Nat) : State :=
  match s.socks[p]? with
  | some (some sock) =>
    let s := if sock.flags.sock then svzSockDisconnect s sock else s
    { s with socks := s.socks.set p none }
  | _ => s

/-! ## Runs -/

inductive Op
  | tcpAccept (maxSockets : Int)
  | pipeAccept
  | serverCreate (pipe : Bool)
  | tcpConnect
  | tcpDefaultConnect (p : Nat) (progress : Progress)
  | udpConnect
  | icmpConnect
  | pipeConnect
  | process (process : Process)
  | shutdown (p : Nat)

def step (s : State) : Op → State
  | .tcpAccept maxSockets => tcpAccept s maxSockets
  | .pipeAccept => pipeAccept s
  | .serverCreate pipe => serverCreate s pipe
  | .tcpConnect => svzTcpConnect s
  | .tcpDefaultConnect p progress => tcpDefaultConnect s p progress
  | .udpConnect => svzUdpConnect s
  | .icmpConnect => svzIcmpConnect s
  | .pipeConnect => svzPipeConnect s
  | .process process => svzSockProcess s process
  | .shutdown p => svzSockShutdown s p

def run (s : State) (ops : List Op) : State := ops.foldl step s

def initial : State := ⟨[], 0⟩

/-! ## The count -/

/-- An enqueued network socket that is connected. -/
def IsConnection : Option Sock → Prop
  | none => False
  | some sock => sock.enqueued = true ∧ sock.flags.sock = true ∧ sock.flags.connected = true

instance : DecidablePred IsConnection
  | none => inferInstanceAs (Decidable False)
  | some _ => inferInstanceAs (Decidable (_ ∧ _ ∧ _))

def connections (s : State) : Nat := s.socks.countP (IsConnection ·)

def Counted (s : State) : Prop := s.svzSockConnections = (connections s : Int)

/-- What all operations keep: every socket is enqueued, and none is connected while it is
connecting. -/
def Enqueued (s : State) : Prop :=
  ∀ sock, some sock ∈ s.socks → sock.enqueued = true ∧
    (sock.flags.connecting = true → sock.flags.connected = false)

/-- The condition on a step. -/
def Harmless : Op → Prop
  | .pipeConnect => False
  | .process .shuffleSock => False
  | _ => True

variable {s : State}

theorem Counted.nonneg (h : Counted s) : 0 ≤ s.svzSockConnections := by
  rw [h]
  exact Int.natCast_nonneg _

theorem connections_enqueueNew (s : State) (flags : Flags) :
    connections (enqueueNew s flags) =
      connections s + if flags.sock = true ∧ flags.connected = true then 1 else 0 := by
  simp [connections, enqueueNew, IsConnection, List.countP_append, List.countP_singleton]

@[simp] theorem svzSockConnections_enqueueNew (s : State) (flags : Flags) :
    (enqueueNew s flags).svzSockConnections = s.svzSockConnections := rfl

theorem counted_enqueueNew_iff (h : Counted s) (flags : Flags) :
    Counted (enqueueNew s flags) ↔ ¬ (flags.sock = true ∧ flags.connected = true) := by
  unfold Counted at *
  rw [connections_enqueueNew, svzSockConnections_enqueueNew, h]
  split <;> rename_i hflags
  · exact iff_of_false (by omega) (not_not_intro hflags)
  · exact iff_of_true rfl hflags

theorem counted_countUp_enqueueNew_iff (h : Counted s) (flags : Flags) :
    Counted (countUp (enqueueNew s flags)) ↔ flags.sock = true ∧ flags.connected = true := by
  have hcount : (countUp (enqueueNew s flags)).svzSockConnections = s.svzSockConnections + 1 := rfl
  have hsame : connections (countUp (enqueueNew s flags)) = connections (enqueueNew s flags) := rfl
  unfold Counted at *
  rw [hcount, hsame, connections_enqueueNew, h]
  split <;> rename_i hflags
  · exact iff_of_true rfl hflags
  · exact iff_of_false (by omega) hflags

theorem connections_set {p : Nat} {old : Option Sock} (hp : s.socks[p]? = some old)
    (new : Option Sock) (connected : Int) :
    connections ⟨s.socks.set p new, connected⟩ + (if IsConnection old then 1 else 0) =
      connections s + if IsConnection new then 1 else 0 := by
  obtain ⟨hlt, rfl⟩ := List.getElem?_eq_some_iff.mp hp
  have hsplit : s.socks.take p ++ s.socks[p] :: s.socks.drop (p + 1) = s.socks := by
    rw [← List.drop_eq_getElem_cons hlt, List.take_append_drop]
  have hold : connections s =
      (s.socks.take p ++ s.socks[p] :: s.socks.drop (p + 1)).countP (IsConnection ·) := by
    rw [hsplit]
    rfl
  rw [hold, connections, List.set_eq_take_append_cons_drop, if_pos hlt]
  simp only [List.countP_append, List.countP_cons, decide_eq_true_eq]
  omega

theorem svzSockShutdown_eq {p : Nat} {sock : Sock} (hp : s.socks[p]? = some (some sock)) :
    svzSockShutdown s p = ⟨s.socks.set p none, s.svzSockConnections -
      if sock.flags.sock = true ∧ sock.flags.connected = true then 1 else 0⟩ := by
  unfold svzSockShutdown svzSockDisconnect
  rw [hp]
  cases hsock : sock.flags.sock <;> cases hconn : sock.flags.connected <;> simp [hsock, hconn]

/-! ## Steps -/

theorem enqueued_enqueueNew (h : Enqueued s) {flags : Flags}
    (hflags : flags.connecting = true → flags.connected = false) :
    Enqueued (enqueueNew s flags) := by
  intro sock hsock
  rcases List.mem_append.mp hsock with hold | hnew
  · exact h sock hold
  · cases List.mem_singleton.mp hnew
    exact ⟨rfl, hflags⟩

theorem step_enqueued (h : Enqueued s) (op : Op) : Enqueued (step s op) := by
  cases op with
  | tcpAccept maxSockets =>
    simp only [step, tcpAccept]
    split
    · exact h
    · exact enqueued_enqueueNew h (by decide)
  | pipeAccept => exact enqueued_enqueueNew h (by decide)
  | serverCreate pipe => exact enqueued_enqueueNew h (fun _ => rfl)
  | tcpConnect => exact enqueued_enqueueNew h (by decide)
  | udpConnect => exact enqueued_enqueueNew h (by decide)
  | icmpConnect => exact enqueued_enqueueNew h (by decide)
  | pipeConnect => exact enqueued_enqueueNew h (by decide)
  | process process =>
    cases process with
    | fork => exact h
    | shuffleSock => exact enqueued_enqueueNew h (by decide)
    | shufflePipe => exact enqueued_enqueueNew h (by decide)
  | tcpDefaultConnect p progress =>
    simp only [step, tcpDefaultConnect]
    split
    · rename_i sock hp
      split
      · cases progress with
        | failed => exact h
        | inProgress => exact h
        | connected =>
          intro other hother
          rcases List.mem_or_eq_of_mem_set hother with hold | hnew
          · exact h other hold
          · cases hnew
            exact ⟨(h sock (List.mem_of_getElem? hp)).1, by simp⟩
      · exact h
    · exact h
  | shutdown p =>
    rw [step]
    rcases hp : s.socks[p]? with _ | _ | sock
    · rw [svzSockShutdown, hp]
      exact h
    · rw [svzSockShutdown, hp]
      exact h
    · rw [svzSockShutdown_eq hp]
      intro other hother
      rcases List.mem_or_eq_of_mem_set hother with hold | hnew
      · exact h other hold
      · cases hnew

theorem shutdown_counted (hq : Enqueued s) (h : Counted s) (p : Nat) :
    Counted (svzSockShutdown s p) := by
  rcases hp : s.socks[p]? with _ | _ | sock
  · rw [svzSockShutdown, hp]
    exact h
  · rw [svzSockShutdown, hp]
    exact h
  · rw [svzSockShutdown_eq hp]
    have hset := connections_set hp none (s.svzSockConnections -
      if sock.flags.sock = true ∧ sock.flags.connected = true then 1 else 0)
    have henq := (hq sock (List.mem_of_getElem? hp)).1
    have hiff : IsConnection (some sock) ↔
        sock.flags.sock = true ∧ sock.flags.connected = true := by
      simp [IsConnection, henq]
    have hnone : ¬ IsConnection none := id
    simp only [hiff, hnone, if_false, Nat.add_zero] at hset
    unfold Counted at *
    rw [h] at hset ⊢
    dsimp only
    split at hset <;> rename_i hflags
    · rw [if_pos hflags]
      omega
    · rw [if_neg hflags]
      omega

theorem tcpDefaultConnect_counted (hq : Enqueued s) (h : Counted s) (p : Nat)
    (progress : Progress) : Counted (tcpDefaultConnect s p progress) := by
  unfold tcpDefaultConnect
  split
  · rename_i sock hp
    split
    · rename_i hflags
      rw [Bool.and_eq_true] at hflags
      cases progress with
      | failed => exact h
      | inProgress => exact h
      | connected =>
        obtain ⟨henq, hnot⟩ := hq sock (List.mem_of_getElem? hp)
        have hold : ¬ IsConnection (some sock) := by
          simp [IsConnection, hnot hflags.1]
        let new : Sock := { sock with
          flags := { sock.flags with connected := true, connecting := false } }
        have hnew : IsConnection (some new) := ⟨henq, hflags.2, rfl⟩
        have hset := connections_set hp (some new) (s.svzSockConnections + 1)
        rw [if_neg hold, if_pos hnew, Nat.add_zero] at hset
        unfold Counted at *
        dsimp only [countUp]
        rw [hset, h]
        rfl
    · exact h
  · exact h

theorem step_counted_iff (hq : Enqueued s) (h : Counted s) (op : Op) :
    Counted (step s op) ↔ Harmless op := by
  cases op with
  | tcpAccept maxSockets =>
    simp only [step, tcpAccept]
    split
    · exact iff_of_true h trivial
    · exact iff_of_true ((counted_countUp_enqueueNew_iff h _).mpr ⟨rfl, rfl⟩) trivial
  | pipeAccept => exact iff_of_true ((counted_enqueueNew_iff h _).mpr (by decide)) trivial
  | serverCreate pipe =>
    exact iff_of_true ((counted_enqueueNew_iff h _).mpr fun hflags => by cases hflags.2) trivial
  | tcpConnect => exact iff_of_true ((counted_enqueueNew_iff h _).mpr (by decide)) trivial
  | tcpDefaultConnect p progress =>
    exact iff_of_true (tcpDefaultConnect_counted hq h p progress) trivial
  | udpConnect =>
    exact iff_of_true ((counted_countUp_enqueueNew_iff h _).mpr ⟨rfl, rfl⟩) trivial
  | icmpConnect =>
    exact iff_of_true ((counted_countUp_enqueueNew_iff h _).mpr ⟨rfl, rfl⟩) trivial
  | pipeConnect =>
    exact iff_of_false (fun hnext => absurd ((counted_countUp_enqueueNew_iff h _).mp hnext)
      (by decide)) id
  | process process =>
    cases process with
    | fork => exact iff_of_true h trivial
    | shuffleSock =>
      exact iff_of_false (fun hnext => (counted_enqueueNew_iff h _).mp hnext ⟨rfl, rfl⟩) id
    | shufflePipe => exact iff_of_true ((counted_enqueueNew_iff h _).mpr (by decide)) trivial
  | shutdown p => exact iff_of_true (shutdown_counted hq h p) trivial

/-! ## Whole runs -/

/-- The counter is true, and so is not negative, in every state of a run exactly if no pipe
is connected to and no process is started with a pair of sockets. -/
theorem run_counted_iff (ops : List Op) :
    (∀ pre, pre <+: ops → Counted (run initial pre) ∧ 0 ≤ (run initial pre).svzSockConnections) ↔
      ∀ pre op, pre ++ [op] <+: ops → Harmless op := by
  have henq : Enqueued initial := by
    intro sock hsock
    cases hsock
  have hiff : (∀ pre, pre <+: ops → Counted (run initial pre)) ↔
      ∀ pre op, pre ++ [op] <+: ops → Harmless op :=
    forall_prefix_iff_of_aux step Enqueued Counted (fun _ op => Harmless op) henq rfl
      (fun _ op _ hq h hnext => (step_counted_iff hq h op).mp hnext)
      (fun _ op _ hq h hharm => ⟨step_enqueued hq op, (step_counted_iff hq h op).mpr hharm⟩)
  rw [← hiff]
  exact ⟨fun h pre hpre => (h pre hpre).1, fun h pre hpre => ⟨h pre hpre, (h pre hpre).nonneg⟩⟩

/-- A client is accepted, its connection is passed to a process, and all is shut down. -/
def passedOn : List Op :=
  [.serverCreate false, .tcpAccept 100, .process .shuffleSock, .shutdown 2, .shutdown 1]

theorem not_counted_passedOn :
    ¬ Counted (run initial passedOn) ∧ (run initial passedOn).svzSockConnections = -1 := by
  unfold Counted
  decide

end Serveez.Core.Connections
