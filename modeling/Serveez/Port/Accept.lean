import Serveez.Port.Config

/-!
# Accepting connections

`tcp_accept` with the access and frequency checks, `svz_sock_detect_proto`, and the steps of
the server loop that follow: reads from connections that are not killed, and the shutdown of
the killed ones. What the callbacks of the servers answer is an input of each step, and which
of them were called for which connection is kept in `calls`.

Connections are numbered in the order in which they are accepted.
-/

namespace Serveez.Port

/-- The values of the `check_request` callback. -/
inductive CheckRequest
  | null
  | svzSockDetectProto
  /-- The request handler of a server. -/
  | handler (server : Nat)

/-- A call of a callback of a server. -/
inductive Callback
  | detectProto (server : Nat)
  | connectSocket (server : Nat)
  | request (server : Nat)
deriving DecidableEq

/-- What the callbacks answer in a step. `connect_socket` may set another `check_request`. -/
structure Answers where
  detectProto : Nat → Bool
  connectSocket : Nat → Int × CheckRequest
  request : Nat → Int

structure Listener where
  port : PortCfg
  /-- The times of the connections from an address, `port->accepted`. -/
  accepted : String → Option (List Int)
  bindings : Option (List Binding)
  checkRequest : CheckRequest
  killed : Bool

structure Conn where
  id : Nat
  sockDesc : Int
  parent : Nat
  /-- The answer of `getsockname`. -/
  localInfo : Option (UInt32 × UInt16)
  killed : Bool
  checkRequest : CheckRequest
  /-- Whether the connection shares the bindings of its listener. -/
  bound : Bool
  recvBufferFill : Int

/-! ## Protocol detection -/

/-- The loop over the bindings: the calls, and the server that has taken the connection. -/
def detectLoop (answers : Answers) : List Binding → List Callback × Option Server
  | [] => ([], none)
  | binding :: rest =>
    let server := binding.server
    if !server.detectProto then detectLoop answers rest
    else if answers.detectProto server.id then ([.detectProto server.id], some server)
    else
      let (calls, found) := detectLoop answers rest
      (.detectProto server.id :: calls, found)

/-- What remains to be done when `server` has taken the connection. -/
def connectServer (answers : Answers) (conn : Conn) (server : Server) :
    Conn × Int × List Callback :=
  let conn := { conn with bound := false }
  if !server.connectSocket then (conn, -1, [])
  else
    let (ret, checkRequest) := answers.connectSocket server.id
    if ret ≠ 0 then ({ conn with checkRequest }, -1, [.connectSocket server.id])
    else
      match checkRequest with
      | .handler n =>
        ({ conn with checkRequest }, answers.request n, [.connectSocket server.id, .request n])
      -- an unchanged callback is taken away
      | .svzSockDetectProto | .null =>
        ({ conn with checkRequest := .null }, 0, [.connectSocket server.id])

def svzSockDetectProto (answers : Answers) (listener : Listener) (conn : Conn) :
    Conn × Int × List Callback :=
  if !conn.bound then (conn, -1, [])
  else
    match detectLoop answers (svzBindingFilter listener.bindings conn.localInfo) with
    | (calls, some server) =>
      let (conn, ret, more) := connectServer answers conn server
      (conn, ret, calls ++ more)
    | (calls, none) =>
      (conn, if conn.recvBufferFill > listener.port.detectionFill then -1 else 0, calls)

/-- A call of the `check_request` callback, if it is set. -/
def checkRequest (answers : Answers) (listener : Listener) (conn : Conn) :
    Conn × Int × List Callback :=
  match conn.checkRequest with
  | .null => (conn, 0, [])
  | .svzSockDetectProto => svzSockDetectProto answers listener conn
  | .handler n => (conn, answers.request n, [.request n])

/-! ## The checks of a new connection -/

/-- The result and the times that are kept; the present one is added in any case. -/
def checkFrequency (listener : Listener) (remote : String) (current : Int) : Listener × Int :=
  let old := listener.accepted remote
  let valid := (old.getD []).filter fun t => !decide (t < current - 4)
  let nr := (valid.length : Int) / 4
  let ret := if old.isSome && decide (nr > listener.port.connectFreq) then -1 else 0
  let accepted := Function.update listener.accepted remote (some (valid ++ [current]))
  ({ listener with accepted }, ret)

/-- The listener after the checks, and whether one of them has failed. -/
def checkClient (listener : Listener) (remote : String) (current : Int) : Listener × Bool :=
  if svzSockCheckAccess (some listener.port) remote < 0 then (listener, true)
  else
    let (listener, ret) := checkFrequency listener remote current
    (listener, decide (ret < 0))

/-! ## The server loop -/

structure State where
  listeners : Nat → Listener
  /-- The enqueued connections. -/
  conns : List Conn
  svzSockConnections : Int
  maxSockets : Int
  nextConn : Nat
  /-- The connections that failed a check. -/
  rejected : List Nat
  calls : List (Nat × Callback)

/-- A client that `accept` returns. -/
structure Client where
  clientSocket : Option Int
  remote : String
  localInfo : Option (UInt32 × UInt16)
  /-- Whether `svz_sock_create` finds memory. -/
  created : Bool
  current : Int
  answers : Answers

/-- The new connection after the checks; it is scheduled for shutdown if one has failed. -/
def newConn (c : State) (l : Nat) (client : Client) (desc : Int) (fails : Bool) : Conn where
  id := c.nextConn
  sockDesc := desc
  parent := l
  localInfo := client.localInfo
  killed := fails
  checkRequest := (c.listeners l).checkRequest
  bound := (c.listeners l).bindings.isSome
  recvBufferFill := 0

/-- The part of `tcp_accept` for the new connection. The checks do not keep it from the call
of `check_request`. -/
def enterClient (c : State) (l : Nat) (client : Client) (desc : Int) : State :=
  let checked := checkClient (c.listeners l) client.remote client.current
  let served := checkRequest client.answers checked.1 (newConn c l client desc checked.2)
  { c with
    listeners := Function.update c.listeners l checked.1
    conns := c.conns ++ [{ served.1 with killed := served.1.killed || served.2.1 != 0 }]
    svzSockConnections := c.svzSockConnections + 1
    nextConn := c.nextConn + 1
    rejected := if checked.2 then c.rejected ++ [c.nextConn] else c.rejected
    calls := c.calls ++ served.2.2.map fun callback => (c.nextConn, callback) }

/-- What `tcp_accept` does with a client: a new connection with its descriptor, or nothing and
a result. -/
def acceptClient (c : State) (client : Client) : Except Int Int :=
  match client.clientSocket with
  | none => .error 0
  | some desc =>
    if c.svzSockConnections ≥ c.maxSockets then .error 0
    else if c.conns.any (fun conn => conn.sockDesc == desc) then .error (-1)
    else if !client.created then .error 0
    else .ok desc

def tcpAccept (c : State) (l : Nat) (client : Client) : State × Int :=
  match acceptClient c client with
  | .ok desc => (enterClient c l client desc, 0)
  | .error ret => (c, ret)

def killConn (id : Nat) (conn : Conn) : Conn :=
  if conn.id = id then { conn with killed := true } else conn

/-- `svz_sock_schedule_for_shutdown` of a listener and its children. -/
def killListener (c : State) (l : Nat) : State :=
  { c with
    listeners := Function.update c.listeners l { c.listeners l with killed := true }
    conns := c.conns.map fun conn =>
      if conn.parent = l then { conn with killed := true } else conn }

/-- A read from one connection, with its `check_request`. -/
def readConn (c : State) (answers : Answers) (bytes : Nat) (conn : Conn) :
    Conn × List Callback :=
  let served := checkRequest answers (c.listeners conn.parent)
    { conn with recvBufferFill := conn.recvBufferFill + bytes }
  ({ served.1 with killed := served.1.killed || served.2.1 != 0 }, served.2.2)

def awaits (id : Nat) (conn : Conn) : Bool := conn.id == id && !conn.killed

/-- The loop reads from connections that are not killed. -/
def readSocket (c : State) (id : Nat) (bytes : Nat) (answers : Answers) : State :=
  match c.conns.find? (awaits id) with
  | none => c
  | some conn =>
    let served := readConn c answers bytes conn
    { c with
      conns := c.conns.map fun other => if awaits id other then served.1 else other
      calls := c.calls ++ served.2.map fun callback => (id, callback) }

inductive Op
  | accept (l : Nat) (client : Client)
  | read (id : Nat) (bytes : Nat) (answers : Answers)
  /-- `svz_sock_schedule_for_shutdown` from anywhere else. -/
  | schedule (id : Nat)
  /-- The end of `svz_loop_one`. -/
  | shutdownKilled
  /-- Another server is bound to a listener. -/
  | addServer (l : Nat) (binding : Binding)

/-- The loop passes over killed listeners, too. -/
def step (c : State) : Op → State
  | .accept l client =>
    if (c.listeners l).killed then c
    else
      let (c, ret) := tcpAccept c l client
      if ret ≠ 0 then killListener c l else c
  | .read id bytes answers => readSocket c id bytes answers
  | .schedule id => { c with conns := c.conns.map (killConn id) }
  | .shutdownKilled =>
    { c with
      conns := c.conns.filter fun conn => !conn.killed
      svzSockConnections := c.svzSockConnections - c.conns.countP fun conn => conn.killed }
  | .addServer l binding =>
    let listener := c.listeners l
    let bindings := some (listener.bindings.getD [] ++ [binding])
    { c with listeners := Function.update c.listeners l { listener with bindings } }

def run (c : State) (ops : List Op) : State := ops.foldl step c

/-- The start of the server loop, with no connections. -/
def boot (listeners : Nat → Listener) (maxSockets : Int) : State where
  listeners := listeners
  conns := []
  svzSockConnections := 0
  maxSockets := maxSockets
  nextConn := 0
  rejected := []
  calls := []

end Serveez.Port
