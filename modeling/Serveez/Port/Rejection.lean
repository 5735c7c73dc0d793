import Serveez.Port.Accept
import Serveez.Lib.Runs

/-!
# Rejected connections

A connection that fails the access check or the frequency check is scheduled for shutdown, and
the loop passes over it from then on. But `tcp_accept` itself goes on to call `check_request`,
and so the protocol detection of the bound servers runs on it once.

* `checkRequest_calls_eq_nil_iff`: when the call of a new connection reaches no server.
* `neverServed_run_iff`: the runs in which no server meets a rejected connection.
-/

namespace Serveez.Port

open Lib

/-! ## The calls of a step -/

theorem detectLoop_calls_eq_nil_iff (answers : Answers) (bindings : List Binding) :
    (detectLoop answers bindings).1 = [] ↔
      ∀ binding ∈ bindings, binding.server.detectProto = false := by
  induction bindings with
  | nil => simp [detectLoop]
  | cons binding rest ih =>
    rw [detectLoop, List.forall_mem_cons]
    cases hd : binding.server.detectProto with
    | false => simpa using ih
    | true =>
      simp only [Bool.not_true, Bool.false_eq_true, if_false]
      split <;> simp

theorem detectLoop_calls_ne_nil {answers : Answers} {bindings : List Binding}
    {calls : List Callback} {server : Server}
    (h : detectLoop answers bindings = (calls, some server)) : calls ≠ [] := by
  induction bindings generalizing calls with
  | nil => cases h
  | cons binding rest ih =>
    rw [detectLoop] at h
    cases hd : binding.server.detectProto with
    | false =>
      simp only [hd, Bool.not_false, if_true] at h
      exact ih h
    | true =>
      simp only [hd, Bool.not_true, Bool.false_eq_true, if_false] at h
      split at h
      · cases h
        exact List.cons_ne_nil _ _
      · have hcalls := congrArg Prod.fst h
        rintro rfl
        cases hcalls

/-- No server gets to see a new connection of this listener. -/
def Unseen (listener : Listener) (localInfo : Option (UInt32 × UInt16)) : Prop :=
  listener.checkRequest = .null ∨
    listener.checkRequest = .svzSockDetectProto ∧
      ∀ binding ∈ svzBindingFilter listener.bindings localInfo,
        binding.server.detectProto = false

theorem svzBindingFilter_none (localInfo : Option (UInt32 × UInt16)) :
    svzBindingFilter none localInfo = [] := by
  cases localInfo <;> rfl

theorem svzSockDetectProto_calls_eq_nil_iff (answers : Answers) (listener : Listener)
    (conn : Conn) (hbound : conn.bound = listener.bindings.isSome) :
    (svzSockDetectProto answers listener conn).2.2 = [] ↔
      ∀ binding ∈ svzBindingFilter listener.bindings conn.localInfo,
        binding.server.detectProto = false := by
  unfold svzSockDetectProto
  cases hb : listener.bindings with
  | none =>
    rw [hb] at hbound
    simp [hbound, svzBindingFilter_none]
  | some bindings =>
    rw [hb] at hbound
    simp only [hbound, Option.isSome_some, Bool.not_true, Bool.false_eq_true, if_false]
    rw [← detectLoop_calls_eq_nil_iff answers]
    cases hloop : detectLoop answers (svzBindingFilter (some bindings) conn.localInfo) with
    | mk calls found =>
      cases found with
      | none => exact Iff.rfl
      | some server =>
        have hne := detectLoop_calls_ne_nil hloop
        simp [hne]

theorem checkRequest_calls_eq_nil_iff (answers : Answers) (listener : Listener) (conn : Conn)
    (hcheck : conn.checkRequest = listener.checkRequest)
    (hbound : conn.bound = listener.bindings.isSome) :
    (checkRequest answers listener conn).2.2 = [] ↔ Unseen listener conn.localInfo := by
  unfold checkRequest Unseen
  rw [hcheck]
  cases listener.checkRequest with
  | null => simp
  | svzSockDetectProto =>
    simpa using svzSockDetectProto_calls_eq_nil_iff answers listener conn hbound
  | handler n => simp

theorem connectServer_conn (answers : Answers) (conn : Conn) (server : Server) :
    (connectServer answers conn server).1.id = conn.id ∧
      (connectServer answers conn server).1.killed = conn.killed := by
  unfold connectServer
  cases server.connectSocket with
  | false => exact ⟨rfl, rfl⟩
  | true =>
    obtain ⟨ret, check⟩ := answers.connectSocket server.id
    by_cases hret : ret ≠ 0
    · simp [hret]
    · cases check <;> simp [hret]

/-- The calls leave the number of the connection and its flag alone. -/
theorem checkRequest_conn (answers : Answers) (listener : Listener) (conn : Conn) :
    (checkRequest answers listener conn).1.id = conn.id ∧
      (checkRequest answers listener conn).1.killed = conn.killed := by
  unfold checkRequest
  cases conn.checkRequest with
  | null => exact ⟨rfl, rfl⟩
  | handler n => exact ⟨rfl, rfl⟩
  | svzSockDetectProto =>
    show (svzSockDetectProto answers listener conn).1.id = conn.id ∧
      (svzSockDetectProto answers listener conn).1.killed = conn.killed
    unfold svzSockDetectProto
    cases conn.bound with
    | false => exact ⟨rfl, rfl⟩
    | true =>
      obtain ⟨calls, found⟩ :=
        detectLoop answers (svzBindingFilter listener.bindings conn.localInfo)
      cases found with
      | none => exact ⟨rfl, rfl⟩
      | some server => exact connectServer_conn answers conn server

/-! ## Runs -/

/-- No callback was called for a connection that failed a check. -/
def NeverServed (c : State) : Prop :=
  ∀ id ∈ c.rejected, ∀ callback, (id, callback) ∉ c.calls

/-- The numbers are those given out, and the rejected connections are killed. -/
structure Numbered (c : State) : Prop where
  conns : ∀ conn ∈ c.conns, conn.id < c.nextConn
  calls : ∀ call ∈ c.calls, call.1 < c.nextConn
  rejected : ∀ id ∈ c.rejected, id < c.nextConn
  killed : ∀ conn ∈ c.conns, conn.id ∈ c.rejected → conn.killed = true

/-- A step that gives out no number and rejects no connection. -/
theorem Numbered.of_conns {c c' : State} (h : Numbered c) (hnext : c'.nextConn = c.nextConn)
    (hrej : c'.rejected = c.rejected) (hcalls : ∀ call ∈ c'.calls, call.1 < c.nextConn)
    (hconns : ∀ conn' ∈ c'.conns, ∃ conn ∈ c.conns, conn'.id = conn.id ∧
      (conn.killed = true → conn'.killed = true)) : Numbered c' where
  conns := by
    intro conn' hmem
    obtain ⟨conn, hconn, hid, -⟩ := hconns conn' hmem
    rw [hid, hnext]
    exact h.conns conn hconn
  calls := by
    rw [hnext]
    exact hcalls
  rejected := by
    rw [hnext, hrej]
    exact h.rejected
  killed := by
    intro conn' hmem hid'
    obtain ⟨conn, hconn, hid, hkill⟩ := hconns conn' hmem
    rw [hid, hrej] at hid'
    exact hkill (h.killed conn hconn hid')

theorem Numbered.killListener {c : State} (h : Numbered c) (l : Nat) :
    Numbered (killListener c l) := by
  refine h.of_conns rfl rfl h.calls ?_
  intro conn' hmem
  obtain ⟨conn, hconn, rfl⟩ := List.mem_map.mp hmem
  refine ⟨conn, hconn, ?_⟩
  split
  · exact ⟨rfl, fun _ => rfl⟩
  · exact ⟨rfl, id⟩

theorem checkClient_listener (listener : Listener) (remote : String) (current : Int) :
    (checkClient listener remote current).1.bindings = listener.bindings ∧
      (checkClient listener remote current).1.checkRequest = listener.checkRequest := by
  unfold checkClient
  split
  · exact ⟨rfl, rfl⟩
  · exact ⟨rfl, rfl⟩

section Enter

variable (c : State) (l : Nat) (client : Client) (desc : Int)

/-- Whether the client fails a check. -/
def fails : Bool := (checkClient (c.listeners l) client.remote client.current).2

/-- The calls for the new connection. -/
def newCalls : List Callback :=
  (checkRequest client.answers (checkClient (c.listeners l) client.remote client.current).1
    (newConn c l client desc (fails c l client))).2.2

theorem newCalls_eq_nil_iff :
    newCalls c l client desc = [] ↔ Unseen (c.listeners l) client.localInfo := by
  obtain ⟨hbindings, hcheck⟩ := checkClient_listener (c.listeners l) client.remote client.current
  unfold newCalls
  rw [checkRequest_calls_eq_nil_iff]
  · unfold Unseen
    rw [hbindings, hcheck]
    rfl
  · exact hcheck.symm
  · rw [hbindings]
    rfl

/-- What a new connection adds to the state. -/
theorem enterClient_eq :
    ∃ conn : Conn, conn.id = c.nextConn ∧ (fails c l client = true → conn.killed = true) ∧
      (enterClient c l client desc).conns = c.conns ++ [conn] ∧
      (enterClient c l client desc).nextConn = c.nextConn + 1 ∧
      (enterClient c l client desc).rejected =
        (if fails c l client then c.rejected ++ [c.nextConn] else c.rejected) ∧
      (enterClient c l client desc).calls =
        c.calls ++ (newCalls c l client desc).map fun callback => (c.nextConn, callback) := by
  generalize hserved : checkRequest client.answers
    (checkClient (c.listeners l) client.remote client.current).1
    (newConn c l client desc (fails c l client)) = served
  obtain ⟨hid, hkilled⟩ := checkRequest_conn client.answers
    (checkClient (c.listeners l) client.remote client.current).1
    (newConn c l client desc (fails c l client))
  rw [hserved] at hid hkilled
  have henter : enterClient c l client desc = { c with
      listeners := Function.update c.listeners l
        (checkClient (c.listeners l) client.remote client.current).1
      conns := c.conns ++ [{ served.1 with killed := served.1.killed || served.2.1 != 0 }]
      svzSockConnections := c.svzSockConnections + 1
      nextConn := c.nextConn + 1
      rejected := if fails c l client then c.rejected ++ [c.nextConn] else c.rejected
      calls := c.calls ++ served.2.2.map fun callback => (c.nextConn, callback) } := by
    rw [← hserved]
    rfl
  refine ⟨{ served.1 with killed := served.1.killed || served.2.1 != 0 }, hid, fun hfails => ?_,
    by rw [henter], rfl, rfl, ?_⟩
  · exact Bool.or_eq_true_iff.mpr (Or.inl (hkilled.trans hfails))
  · rw [henter, newCalls, hserved]

end Enter

theorem Numbered.enterClient {c : State} (h : Numbered c) (l : Nat) (client : Client)
    (desc : Int) : Numbered (enterClient c l client desc) := by
  obtain ⟨conn, hid, hkilled, hconns, hnext, hrej, hcalls⟩ := enterClient_eq c l client desc
  have hnew : ∀ id ∈ (Port.enterClient c l client desc).rejected,
      id ∈ c.rejected ∨ id = c.nextConn ∧ fails c l client = true := by
    intro id hmem
    rw [hrej] at hmem
    split at hmem
    · rcases List.mem_append.mp hmem with hmem | hmem
      · exact Or.inl hmem
      · exact Or.inr ⟨List.mem_singleton.mp hmem, by assumption⟩
    · exact Or.inl hmem
  refine ⟨?_, ?_, ?_, ?_⟩
  · intro z hz
    rw [hconns] at hz
    rw [hnext]
    rcases List.mem_append.mp hz with hz | hz
    · exact Nat.lt_succ_of_lt (h.conns z hz)
    · rw [List.mem_singleton.mp hz, hid]
      exact Nat.lt_succ_self _
  · intro call hcall
    rw [hcalls] at hcall
    rw [hnext]
    rcases List.mem_append.mp hcall with hcall | hcall
    · exact Nat.lt_succ_of_lt (h.calls call hcall)
    · obtain ⟨callback, -, rfl⟩ := List.mem_map.mp hcall
      exact Nat.lt_succ_self _
  · intro id hmem
    rw [hnext]
    rcases hnew id hmem with hold | ⟨rfl, -⟩
    · exact Nat.lt_succ_of_lt (h.rejected id hold)
    · exact Nat.lt_succ_self _
  · intro z hz hmem
    rw [hconns] at hz
    rcases List.mem_append.mp hz with hz | hz
    · rcases hnew z.id hmem with hold | ⟨heq, -⟩
      · exact h.killed z hz hold
      · exact absurd heq (Nat.ne_of_lt (h.conns z hz))
    · obtain rfl := List.mem_singleton.mp hz
      rcases hnew z.id hmem with hold | ⟨-, hfails⟩
      · exact absurd hid (Nat.ne_of_lt (h.rejected z.id hold))
      · exact hkilled hfails

/-- The callbacks of no server are called for a client that fails a check. -/
def Op.Spares (c : State) : Op → Prop
  | .accept l client =>
    (c.listeners l).killed = false → ∀ desc, acceptClient c client = .ok desc →
      fails c l client = true → Unseen (c.listeners l) client.localInfo
  | _ => True

theorem neverServed_enterClient_iff {c : State} (h : Numbered c) (hnever : NeverServed c)
    (l : Nat) (client : Client) (desc : Int) :
    NeverServed (enterClient c l client desc) ↔
      (fails c l client = true → Unseen (c.listeners l) client.localInfo) := by
  obtain ⟨conn, -, -, -, -, hrej, hcalls⟩ := enterClient_eq c l client desc
  rw [← newCalls_eq_nil_iff c l client desc]
  unfold NeverServed
  rw [hrej, hcalls]
  -- an old number is not the new one
  have hold : ∀ id ∈ c.rejected, ∀ callback, (id, callback) ∉
      c.calls ++ (newCalls c l client desc).map fun callback => (c.nextConn, callback) := by
    intro id hid callback hmem
    rcases List.mem_append.mp hmem with hmem | hmem
    · exact hnever id hid callback hmem
    · obtain ⟨z, -, heq⟩ := List.mem_map.mp hmem
      exact absurd (congrArg Prod.fst heq).symm (Nat.ne_of_lt (h.rejected id hid))
  cases hf : fails c l client with
  | false =>
    rw [if_neg Bool.false_ne_true]
    exact iff_of_true hold (fun hno => absurd hno Bool.false_ne_true)
  | true =>
    rw [if_pos rfl]
    constructor
    · intro hall _
      refine List.eq_nil_iff_forall_not_mem.mpr fun callback hcall => ?_
      exact hall c.nextConn (List.mem_append_right _ (List.mem_singleton_self _)) callback
        (List.mem_append_right _ (List.mem_map.mpr ⟨callback, hcall, rfl⟩))
    · intro hnil id hid callback
      rw [hnil rfl, List.map_nil, List.append_nil]
      rcases List.mem_append.mp hid with hid | hid
      · exact hnever id hid callback
      · obtain rfl := List.mem_singleton.mp hid
        exact fun hmem => absurd (h.calls _ hmem) (Nat.lt_irrefl _)

theorem step_accept_error {c : State} {l : Nat} {client : Client} {ret : Int}
    (halive : (c.listeners l).killed = false) (hno : acceptClient c client = .error ret) :
    step c (.accept l client) = if ret ≠ 0 then killListener c l else c := by
  unfold step tcpAccept
  simp only [halive, hno]
  rfl

theorem step_accept_ok {c : State} {l : Nat} {client : Client} {desc : Int}
    (halive : (c.listeners l).killed = false) (hok : acceptClient c client = .ok desc) :
    step c (.accept l client) = enterClient c l client desc := by
  unfold step tcpAccept
  simp only [halive, hok]
  rfl

theorem step_accept_killed {c : State} {l : Nat} {client : Client}
    (hk : (c.listeners l).killed = true) : step c (.accept l client) = c := by
  unfold step
  simp only [hk, if_true]

theorem readConn_conn (c : State) (answers : Answers) (bytes : Nat) (conn : Conn) :
    (readConn c answers bytes conn).1.id = conn.id ∧
      (conn.killed = true → (readConn c answers bytes conn).1.killed = true) := by
  obtain ⟨hid, hkilled⟩ := checkRequest_conn answers (c.listeners conn.parent)
    { conn with recvBufferFill := conn.recvBufferFill + bytes }
  refine ⟨hid, fun hk => ?_⟩
  exact Bool.or_eq_true_iff.mpr (Or.inl (hkilled.trans hk))

theorem readSocket_none {c : State} {id : Nat} (hfind : c.conns.find? (awaits id) = none)
    (bytes : Nat) (answers : Answers) : readSocket c id bytes answers = c := by
  unfold readSocket
  rw [hfind]

theorem readSocket_some {c : State} {id : Nat} {conn : Conn}
    (hfind : c.conns.find? (awaits id) = some conn) (bytes : Nat) (answers : Answers) :
    readSocket c id bytes answers =
      { c with
        conns := c.conns.map fun other =>
          if awaits id other then (readConn c answers bytes conn).1 else other
        calls := c.calls ++
          (readConn c answers bytes conn).2.map fun callback => (id, callback) } := by
  unfold readSocket
  rw [hfind]

/-- Only a connection that is not rejected is read from. -/
theorem Numbered.readSocket {c : State} (h : Numbered c) (id bytes : Nat) (answers : Answers) :
    Numbered (readSocket c id bytes answers) ∧
      (NeverServed c → NeverServed (readSocket c id bytes answers)) := by
  cases hfind : c.conns.find? (awaits id) with
  | none =>
    rw [readSocket_none hfind]
    exact ⟨h, fun hnever => hnever⟩
  | some conn =>
    have hmem := List.mem_of_find?_eq_some hfind
    have hawaits := List.find?_some hfind
    simp only [awaits, Bool.and_eq_true, beq_iff_eq, Bool.not_eq_true'] at hawaits
    obtain ⟨hid, hlive⟩ := hawaits
    obtain ⟨hsame, -⟩ := readConn_conn c answers bytes conn
    rw [readSocket_some hfind]
    constructor
    · refine h.of_conns rfl rfl ?_ ?_
      · intro call hcall
        rcases List.mem_append.mp hcall with hcall | hcall
        · exact h.calls call hcall
        · obtain ⟨callback, -, rfl⟩ := List.mem_map.mp hcall
          exact hid ▸ h.conns conn hmem
      · intro z hz
        obtain ⟨old, hold, rfl⟩ := List.mem_map.mp hz
        refine ⟨old, hold, ?_⟩
        cases hold' : awaits id old with
        | true =>
          simp only [awaits, Bool.and_eq_true, beq_iff_eq, Bool.not_eq_true'] at hold'
          refine ⟨hsame.trans (hid.trans hold'.1.symm), fun hk => ?_⟩
          rw [hold'.2] at hk
          cases hk
        | false => exact ⟨rfl, fun hk => hk⟩
    · intro hnever z hz callback hcall
      rcases List.mem_append.mp hcall with hcall | hcall
      · exact hnever z hz callback hcall
      · obtain ⟨other, -, heq⟩ := List.mem_map.mp hcall
        have hz' : conn.id ∈ c.rejected := by
          have hidz : id = z := congrArg Prod.fst heq
          rw [hid, hidz]
          exact hz
        rw [h.killed conn hmem hz'] at hlive
        cases hlive

theorem numbered_step {c : State} (h : Numbered c) (hnever : NeverServed c) (op : Op) :
    Numbered (step c op) ∧ (NeverServed (step c op) ↔ op.Spares c) := by
  cases op with
  | accept l client =>
    cases hk : (c.listeners l).killed with
    | true =>
      rw [step_accept_killed hk]
      refine ⟨h, iff_of_true hnever fun halive => ?_⟩
      rw [hk] at halive
      cases halive
    | false =>
      cases hacc : acceptClient c client with
      | error ret =>
        rw [step_accept_error hk hacc]
        have hspares : (Op.accept l client).Spares c := by
          intro _ desc hok
          rw [hacc] at hok
          cases hok
        split
        · exact ⟨h.killListener l, iff_of_true hnever hspares⟩
        · exact ⟨h, iff_of_true hnever hspares⟩
      | ok desc =>
        rw [step_accept_ok hk hacc, neverServed_enterClient_iff h hnever]
        refine ⟨h.enterClient l client desc, ?_, fun hop => hop hk desc hacc⟩
        intro hunseen _ desc' _
        exact hunseen
  | read id bytes answers =>
    obtain ⟨hnum, hkeep⟩ := h.readSocket id bytes answers
    exact ⟨hnum, iff_of_true (hkeep hnever) trivial⟩
  | schedule id =>
    refine ⟨h.of_conns rfl rfl h.calls ?_, iff_of_true hnever trivial⟩
    intro z hz
    obtain ⟨conn, hconn, rfl⟩ := List.mem_map.mp hz
    refine ⟨conn, hconn, ?_⟩
    unfold killConn
    split
    · exact ⟨rfl, fun _ => rfl⟩
    · exact ⟨rfl, fun hk => hk⟩
  | shutdownKilled =>
    refine ⟨h.of_conns rfl rfl h.calls ?_, iff_of_true hnever trivial⟩
    intro z hz
    exact ⟨z, (List.mem_filter.mp hz).1, rfl, fun hk => hk⟩
  | addServer l binding =>
    exact ⟨h.of_conns rfl rfl h.calls (fun z hz => ⟨z, hz, rfl, fun hk => hk⟩),
      iff_of_true hnever trivial⟩

/-- **Rejected connections.** In a run of the server loop, for all listeners, clients and
answers of the callbacks, no callback of a server is ever called for a connection that has
failed the access check or the frequency check, exactly if each client that fails a check
reaches a listener at which no server with a `detect_proto` is bound to its address, or which
has no `check_request`. -/
theorem neverServed_run_iff (listeners : Nat → Listener) (maxSockets : Int) (ops : List Op) :
    (∀ pre, pre <+: ops → NeverServed (run (boot listeners maxSockets) pre)) ↔
      ∀ pre op, pre ++ [op] <+: ops → op.Spares (run (boot listeners maxSockets) pre) := by
  unfold run
  refine forall_prefix_iff_of_aux step Numbered NeverServed (fun c op => op.Spares c) ?_ ?_ ?_ ?_
  · constructor <;> simp [boot]
  · simp [NeverServed, boot]
  · intro pre op _ hnum hnever
    exact (numbered_step hnum hnever op).2.mp
  · intro pre op _ hnum hnever hop
    exact ⟨(numbered_step hnum hnever op).1, (numbered_step hnum hnever op).2.mpr hop⟩

/-! ## A denied client -/

/-- A listener that denies one address, with a server on port 80. -/
def denying : Listener where
  port := ⟨some ["10.0.0.1"], none, 100, 16, 0, 80, true, false⟩
  accepted := fun _ => none
  bindings := some [⟨⟨7, true, true, true⟩, ⟨none, none, 100, 16, 0, 80, true, false⟩⟩]
  checkRequest := .svzSockDetectProto
  killed := false

/-- The client from that address, and a server that takes every connection. -/
def denied : Client where
  clientSocket := some 5
  remote := "10.0.0.1"
  localInfo := some (0, 80)
  created := true
  current := 0
  answers := ⟨fun _ => true, fun _ => (0, .handler 7), fun _ => 0⟩

/-- All three callbacks of the server are called for the denied client. -/
theorem not_neverServed_denied :
    ¬ ∀ pre, pre <+: [Op.accept 0 denied] →
      NeverServed (run (boot (fun _ => denying) 10) pre) := by
  intro hall
  have hnever := hall _ (List.prefix_refl _)
  exact hnever 0 (by decide) (.connectSocket 7) (by decide)

end Serveez.Port
