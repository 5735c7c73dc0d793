import Serveez.Binding.PortCfg

/-!
# Listeners and their bindings

`svz_server_bind` makes listening sockets, or adds to those that there are. The bindings of a
listener are in an array, which the connections it accepts share until their protocol is
detected; the map `all_ears` leads from the sockets to the arrays. A binding and the listener
made for it share one port configuration.

Blocks and sockets are numbered as they are allocated. A reference to a port configuration
comes with what the configuration holds, which never changes once it is shared; the list
`freed` says which of them have been freed. Reading a freed configuration or array ends a run.
The answers of the system, and the interfaces it has, are inputs.
-/

namespace Serveez.Binding

structure PortRef where
  addr : Nat
  cfg : PortCfg
deriving DecidableEq

/-- `svz_binding_t` -/
structure Bound where
  server : Nat
  port : PortRef
deriving DecidableEq

structure Sock where
  id : Nat
  /-- `SVZ_SOFLG_LISTENING` -/
  listening : Bool
  port : Option PortRef
  proto : Proto
deriving DecidableEq

structure State where
  /-- The enqueued sockets. -/
  socks : List Sock
  allEars : Nat → Option Nat
  arrays : Nat → Option (List Bound)
  /-- The port configurations freed. -/
  freed : List Nat
  next : Nat

def initial : State := ⟨[], fun _ => none, fun _ => none, [], 0⟩

inductive Fault
  | freedPort
  | freedArray
  | freedBinding

/-- The sockets that `svz_sock_foreach_listener` visits. -/
def listeners (s : State) : List Sock :=
  s.socks.filter fun sock => sock.listening && sock.port.isSome

/-- What a loop over `svz_sock_bindings` sees; there is nothing in no array. -/
def bindingsOf (s : State) (sock : Sock) : List Bound :=
  ((s.allEars sock.id).bind s.arrays).getD []

/-! ## Arrays of bindings -/

def findBinding (bindings : List Bound) (server : Nat) (port : PortCfg) : Bool :=
  bindings.any fun binding => binding.server == server && exactlyEqual binding.port.cfg port

def bindingsContain (bindings : List Bound) (binding : Bound) : Bool :=
  findBinding bindings binding.server binding.port.cfg

def freePorts (s : State) (bindings : List Bound) : State :=
  { s with freed := bindings.map (·.port.addr) ++ s.freed }

/-- `svz_array_destroy` with `svz_binding_destroy` for the elements. -/
def destroyArray (s : State) (a : Nat) : State :=
  let s := freePorts s ((s.arrays a).getD [])
  { s with arrays := Function.update s.arrays a none }

/-- A socket gets an array of its own. -/
def newArray (s : State) (sock : Sock) (bindings : List Bound) : State :=
  { s with
    arrays := Function.update s.arrays s.next (some bindings)
    allEars := Function.update s.allEars sock.id (some s.next)
    next := s.next + 1 }

/-- The new binding is destroyed again if there is one like it. -/
def addServer (s : State) (sock : Sock) (server : Nat) (port : PortRef) : State :=
  match s.allEars sock.id with
  | none => newArray s sock [⟨server, port⟩]
  | some a =>
    if findBinding (bindingsOf s sock) server port.cfg then freePorts s [⟨server, port⟩]
    else { s with
      arrays := Function.update s.arrays a (some (bindingsOf s sock ++ [⟨server, port⟩])) }

/-- The loop of `adjoin`: the bindings that are not there yet are added with a duplicate of
their port configuration, the first of them in the block `next`. -/
def join (next : Nat) (bindings : List Bound) : List Bound → Nat × List Bound
  | [] => (next, bindings)
  | binding :: old =>
    if bindingsContain bindings binding then join next bindings old
    else join (next + 1) (bindings ++ [⟨binding.server, ⟨next, binding.port.cfg⟩⟩]) old

def adjoin (s : State) (bindings : List Bound) (sock : Sock) : State × List Bound :=
  let joined := join s.next bindings (bindingsOf s sock)
  let s := match s.allEars sock.id with
    | none => s
    | some a => destroyArray s a
  ({ s with next := joined.1, allEars := Function.update s.allEars sock.id none }, joined.2)

/-! ## Sockets -/

/-- The function `zonk_sock_ears` that runs before a socket is freed. -/
def zonkSockEars (s : State) (sock : Sock) : State :=
  if sock.listening then
    match s.allEars sock.id with
    | none => s
    | some a =>
      let s := destroyArray s a
      { s with allEars := Function.update s.allEars sock.id none }
  else s

def svzSockShutdown (s : State) (sock : Sock) : State :=
  zonkSockEars { s with socks := s.socks.filter (·.id ≠ sock.id) } sock

/-- The listener that `make_listener_socket` enqueues when the system has given it a port. -/
def newListener (s : State) (port : PortRef) (chosen : UInt16) : Sock :=
  ⟨s.next, true, some ⟨port.addr, serverCreated port.cfg chosen⟩, port.cfg.proto⟩

def enqueueListener (s : State) (sock : Sock) : State :=
  { s with socks := s.socks ++ [sock], next := s.next + 1 }

/-- The first listener with a port configuration that matches. -/
def socketWithPortcfg (s : State) (port : PortCfg) : List Sock → Except Fault (Option Sock)
  | [] => .ok none
  | sock :: socks =>
    match sock.listening, sock.port with
    | true, some own =>
      if own.addr ∈ s.freed then .error .freedPort
      else if matchingOrEqual own.cfg port then .ok (some sock)
      else socketWithPortcfg s port socks
    | _, _ => socketWithPortcfg s port socks

/-- All listeners with a port configuration that matches. -/
def socketsWithPortcfg (s : State) (port : PortCfg) : List Sock → Except Fault (List Sock)
  | [] => .ok []
  | sock :: socks =>
    match sock.listening, sock.port with
    | true, some own =>
      if own.addr ∈ s.freed then .error .freedPort
      else (socketsWithPortcfg s port socks).map fun found =>
        if matchingOrEqual own.cfg port then sock :: found else found
    | _, _ => socketsWithPortcfg s port socks

/-! ## Binding a server -/

/-- The previous listeners are destroyed and their bindings joined. -/
def mergeLoop (s : State) (bindings : List Bound) : List Sock → State × List Bound
  | [] => (s, bindings)
  | sock :: socks =>
    let joined := adjoin s bindings sock
    mergeLoop (svzSockShutdown joined.1 sock) joined.2 socks

def hasAny (sock : Sock) : Bool := sock.port.any (·.cfg.any)

/-- A fresh listener in place of previous ones. `outcome` is the port that it gets, or none if
`svz_server_create` fails. -/
def replace (s : State) (bindings : List Bound) (server : Nat) (copy : PortRef)
    (outcome : Option UInt16) : State :=
  match outcome with
  | none => freePorts s (⟨server, copy⟩ :: bindings)
  | some chosen =>
    let sock := newListener s copy chosen
    let s := newArray (enqueueListener s sock) sock bindings
    addServer s sock server ⟨copy.addr, serverCreated copy.cfg chosen⟩

/-- A listener where there was none. -/
def create (s : State) (server : Nat) (copy : PortRef) (outcome : Option UInt16) : State :=
  match outcome with
  | none => freePorts s [⟨server, copy⟩]
  | some chosen =>
    let sock := newListener s copy chosen
    addServer (enqueueListener s sock) sock server ⟨copy.addr, serverCreated copy.cfg chosen⟩

/-- The block `next` is allocated. -/
def takeBlock (s : State) : State := { s with next := s.next + 1 }

/-- One round of the loop of `svz_server_bind`. -/
def bindCopy (s : State) (server : Nat) (port copy : PortCfg) (outcome : Option UInt16) :
    Except Fault State :=
  let ref : PortRef := ⟨s.next, copy⟩
  match socketWithPortcfg s copy s.socks with
  | .error fault => .error fault
  | .ok none => .ok (create (takeBlock s) server ref outcome)
  | .ok (some sock) =>
    if copy.any && !hasAny sock then
      (socketsWithPortcfg s port s.socks).map fun socks =>
        let merged := mergeLoop (takeBlock s) [] socks
        replace merged.1 merged.2 server ref outcome
    else .ok (addServer (takeBlock s) sock server ref)

def bindLoop (server : Nat) (port : PortCfg) (outcomes : Nat → Option UInt16) :
    Nat → List PortCfg → State → Except Fault State
  | _, [], s => .ok s
  | n, copy :: copies, s =>
    (bindCopy s server port copy (outcomes n)).bind (bindLoop server port outcomes (n + 1) copies)

def svzServerBind (s : State) (interfaces : List UInt32) (server : Nat) (port : PortCfg)
    (outcomes : Nat → Option UInt16) : Except Fault State :=
  bindLoop server port outcomes 0 (svzPortcfgExpand interfaces port) s

/-! ## Connections -/

/-- A connection shares the array of its listener. -/
def accept (s : State) (sock : Sock) : State :=
  { s with
    socks := s.socks ++ [⟨s.next, false, none, sock.proto⟩]
    allEars := Function.update s.allEars s.next (s.allEars sock.id)
    next := s.next + 1 }

/-- The loop of a filter over the bindings of a socket, which looks at each of them. -/
def readBindings (s : State) (sock : Sock) : Except Fault (List Bound) :=
  match s.allEars sock.id with
  | none => .ok []
  | some a =>
    match s.arrays a with
    | none => .error .freedArray
    | some bindings =>
      if bindings.any (·.port.addr ∈ s.freed) then .error .freedBinding else .ok bindings

/-- The condition of `filter_net` on a binding. -/
def filterNet (addr : UInt32) (port : UInt16) (binding : Bound) : Bool :=
  let cfg := binding.port.cfg
  (cfg.addr == addr || cfg.any || cfg.device) &&
    (cfg.proto == .raw || cfg.proto == .icmp || cfg.port == port)

/-- The bindings that a connection may be for; `localInfo` is what `local_info` finds. -/
def svzBindingFilter (s : State) (sock : Sock) (localInfo : Option (UInt32 × UInt16)) :
    Except Fault (List Bound) :=
  if sock.proto = .pipe then readBindings s sock
  else
    match localInfo with
    | none => .ok []
    | some (addr, port) => (readBindings s sock).map (·.filter (filterNet addr port))

/-- `svz_sock_detect_proto`: the binding at a position of those left by the filter has found its
protocol, or none has. -/
def detectProto (s : State) (sock : Sock) (localInfo : Option (UInt32 × UInt16))
    (found : Option Nat) : Except Fault State :=
  match s.allEars sock.id with
  | none => .ok s
  | some _ =>
    (svzBindingFilter s sock localInfo).map fun bindings =>
      match found.bind (bindings[·]?) with
      | none => s
      | some binding =>
        { s with
          allEars := Function.update s.allEars sock.id none
          socks := s.socks.map fun other =>
            if other.id = sock.id then { other with port := some binding.port } else other }

/-- `svz_sock_bindings_zonk_server` -/
def zonkServer (server : Nat) (s : State) (sock : Sock) : State :=
  match s.allEars sock.id with
  | none => s
  | some a =>
    let bindings := bindingsOf s sock
    let s := freePorts s (bindings.filter (·.server = server))
    { s with arrays := Function.update s.arrays a (some (bindings.filter (·.server ≠ server))) }

/-- `server_unbind`. The sockets that it schedules for shutdown are still enqueued. -/
def serverUnbind (s : State) (server : Nat) : State :=
  (listeners s).foldl (zonkServer server) s

end Serveez.Binding
