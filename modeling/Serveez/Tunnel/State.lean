import Serveez.Lib.Decimal
import Serveez.Lib.Keyed
import Serveez.Udp.Send

/-!
# Connections of the tunnel server

A tunnel forwards what comes from its source to a target, and back. Each side has a socket, and the
two share a `tnl_connect_t` that points to both; with a packet oriented source, where one socket
listens for all clients, the structures are also in the hash `cfg->client`, under the address and
port of the client.

`socks` and `conns` are the sockets and structures that have not been freed, known by their
addresses. A callback that dereferences `NULL` or memory that is free has no result, and the state
is `faulted`. What the network does is an input: whether a target can be connected to and whether a
send queue takes what is written. The flags `TNL_FLAG_SRC` and `TNL_FLAG_TGT` of a socket are the
protocols of its tunnel.

`sent` is all that has been put into the send queue of a socket. Two fields are a history: the
`client` that a socket was created for, and `since`, what has come from a client since the last
target was created for it.
-/

namespace Serveez.Tunnel

open Lib Udp

inductive Proto
  | tcp
  | udp
  | icmp
  | pipe
  deriving DecidableEq

/-- TCP and pipes. -/
def Proto.stream : Proto → Bool
  | .tcp => true
  | .pipe => true
  | _ => false

/-- `denies` is what the access lists of the source say, and `debug` is `ENABLE_DEBUG`. -/
structure TunnelConfig where
  source : Proto
  target : Proto
  debug : Bool
  targetAddr : Dest
  recvBufferSize : Nat
  denies : UInt32 → Bool

inductive Kind
  | listener
  | source
  | target
  deriving DecidableEq

/-- What is put into a send queue. A packet with `close` is an `SVZ_ICMP_SERVEEZ_CLOSE`; `owner` is
a history, the client whose packet it is. -/
structure Packet where
  dest : Dest
  payload : List UInt8
  close : Bool
  owner : Dest

structure TnlSocket where
  id : Nat
  kind : Kind
  data : Option Nat
  killed : Bool
  remote : Dest
  recvBuffer : List UInt8
  sent : List Packet
  client : Dest

/-- `tnl_connect_t` -/
structure TnlConnect where
  id : Nat
  addr : Dest
  sourceSock : Option Nat
  targetSock : Option Nat

/-- `nuke` is `svz_shutting_down_p`. -/
structure TunnelState where
  socks : List TnlSocket
  conns : List TnlConnect
  client : List (List Char × Nat)
  nuke : Bool
  faulted : Bool
  since : Dest → List (List UInt8)

/-- A socket is scheduled for shutdown with `kill`, for whatever reason, and shut down after that. A
packet that an ICMP source rejects is `stray`. -/
inductive TunnelEvent
  | accept (sock target conn : Nat) (remote : Dest) (connected : Bool)
  | datagram (sock target conn : Nat) (sender : Dest) (packet : List UInt8) (connected ok : Bool)
  | stray (sock : Nat) (addr : UInt32)
  | data (sock : Nat) (packet : List UInt8) (ok : Bool)
  | reply (sock : Nat) (packet : List UInt8) (ok : Bool)
  | kill (sock : Nat)
  | shutdown (sock : Nat) (ok : Bool)
  | nuke

namespace TunnelState

def sockAt (s : TunnelState) (id : Nat) : Option TnlSocket := findKey TnlSocket.id id s.socks

def connAt (s : TunnelState) (id : Nat) : Option TnlConnect := findKey TnlConnect.id id s.conns

def setSock (s : TunnelState) (id : Nat) (f : TnlSocket → TnlSocket) : TunnelState :=
  { s with socks := modifyKey TnlSocket.id id f s.socks }

def setRemote (s : TunnelState) (id : Nat) (remote : Dest) : TunnelState :=
  s.setSock id fun sock => { sock with remote := remote }

def setKilled (s : TunnelState) (id : Nat) : TunnelState :=
  s.setSock id fun sock => { sock with killed := true }

def clearData (s : TunnelState) (id : Nat) : TunnelState :=
  s.setSock id fun sock => { sock with data := none }

def push (s : TunnelState) (id : Nat) (packets : List Packet) : TunnelState :=
  s.setSock id fun sock => { sock with sent := sock.sent ++ packets }

def setBuffer (s : TunnelState) (id : Nat) (buffer : List UInt8) : TunnelState :=
  s.setSock id fun sock => { sock with recvBuffer := buffer }

/-- `svz_sock_free` -/
def freeSock (s : TunnelState) (id : Nat) : TunnelState :=
  { s with socks := removeKey TnlSocket.id id s.socks }

/-- `tnl_free_connect` -/
def freeConnect (s : TunnelState) (conn : Nat) : TunnelState :=
  { s with conns := removeKey TnlConnect.id conn s.conns }

def hear (s : TunnelState) (sender : Dest) (heard : List (List UInt8)) : TunnelState :=
  { s with since := Function.update s.since sender heard }

end TunnelState

/-! ## Addresses -/

def printDecimal (n : Nat) : List Char := printLoop 10 n []

/-- `inet_ntop`; the address is in network order in memory. -/
def ppAddress (addr : UInt32) : List Char :=
  let octet (n : Nat) : List Char := printDecimal (addr.toNat / 256 ^ n % 256)
  octet 0 ++ '.' :: octet 1 ++ '.' :: octet 2 ++ '.' :: octet 3

/-- `ntohs` -/
def ntohs (port : UInt16) : Nat := port.toNat % 256 * 256 + port.toNat / 256

/-- `tnl_addr` -/
def tnlAddr (remote : Dest) : List Char :=
  ppAddress remote.addr ++ ':' :: printDecimal (ntohs remote.port)

/-! ## Writing -/

/-- `svz_sock_schedule_for_shutdown` -/
def svzSockScheduleForShutdown (s : TunnelState) (id : Nat) : Option TunnelState :=
  (s.sockAt id).map fun _ => s.setKilled id

/-- The pieces in which a buffer is written. -/
def pieces (proto : Proto) (buf : List UInt8) : List (List UInt8) :=
  if proto.stream then [buf] else chunks buf.length buf

/-- `svz_sock_write`, `svz_udp_write` or `svz_icmp_write`, with whether it is successful. `ok` is
whether the send queue takes the buffer. -/
def write (proto : Proto) (s : TunnelState) (id : Nat) (buf : List UInt8) (owner : Dest)
    (ok : Bool) : Option (TunnelState × Bool) :=
  (s.sockAt id).map fun sock =>
    if sock.killed = true ∨ buf = [] then (s, true)
    else if ok then
      (s.push id ((pieces proto buf).map fun piece => ⟨sock.remote, piece, false, owner⟩), true)
    else if proto.stream then (s, false)
    else (s.setKilled id, false)

/-- `tnl_send_request_source` -/
def tnlSendRequestSource (cfg : TunnelConfig) := write cfg.target

/-- `tnl_send_request_target` -/
def tnlSendRequestTarget (cfg : TunnelConfig) := write cfg.source

/-- `svz_icmp_send_control` -/
def svzIcmpSendControl (s : TunnelState) (id : Nat) (owner : Dest) (ok : Bool) :
    Option TunnelState :=
  (s.sockAt id).map fun sock =>
    if sock.killed then s
    else if ok then s.push id [⟨sock.remote, [], true, owner⟩]
    else s.setKilled id

/-! ## Connecting -/

/-- `tnl_create_socket` and `tnl_create_connect`, and what links them. An ICMP socket has its own
id for a port. -/
def tnlCreate (cfg : TunnelConfig) (s : TunnelState) (source target conn : Nat) (remote : Dest) :
    TunnelState :=
  let port := if cfg.target = .icmp then UInt16.ofNat target else cfg.targetAddr.port
  { s with
    socks := ⟨target, .target, some conn, false, ⟨cfg.targetAddr.addr, port⟩, [], [], remote⟩ ::
      s.socks
    conns := ⟨conn, remote, some source, some target⟩ :: s.conns }

/-- `tnl_connect_socket`; a source that it fails for is scheduled for shutdown. -/
def tnlConnectSocket (cfg : TunnelConfig) (s : TunnelState) (sock target conn : Nat)
    (remote : Dest) (connected : Bool) : TunnelState :=
  let source (data : Option Nat) : TnlSocket :=
    ⟨sock, .source, data, !connected, remote, [], [], remote⟩
  if connected then
    tnlCreate cfg { s with socks := source (some conn) :: s.socks } sock target conn remote
  else { s with socks := source none :: s.socks }

/-- The packet is forwarded to a target. -/
def forward (cfg : TunnelConfig) (s : TunnelState) (target : Nat) (packet : List UInt8)
    (owner : Dest) (ok : Bool) : Option TunnelState :=
  (tnlSendRequestSource cfg s target packet owner ok).bind fun sent =>
  if sent.2 then some sent.1 else svzSockScheduleForShutdown sent.1 target

/-- `tnl_handle_request_udp_source` and `tnl_handle_request_icmp_source`, which differ in the flag
for the target. -/
def tnlHandleRequestSource (cfg : TunnelConfig) (s : TunnelState) (listener : TnlSocket)
    (packet : List UInt8) (target conn : Nat) (connected ok : Bool) : Option TunnelState :=
  match findKey Prod.fst (tnlAddr listener.remote) s.client with
  | some entry =>
    (s.connAt entry.2).bind fun source =>
    source.targetSock.bind fun target => forward cfg s target packet listener.remote ok
  | none =>
    if connected then
      let s := tnlCreate cfg s listener.id target conn listener.remote
      forward cfg { s with client := (tnlAddr listener.remote, conn) :: s.client } target packet
        listener.remote ok
    else some s

/-- `udp_read_socket` and the `read_socket` of ICMP, for a socket that listens. The bytes of a
packet that is denied stay in the receive buffer. -/
def readSocket (cfg : TunnelConfig) (s : TunnelState) (listener : TnlSocket) (target conn : Nat)
    (sender : Dest) (packet : List UInt8) (connected ok : Bool) : Option TunnelState :=
  let room := cfg.recvBufferSize - listener.recvBuffer.length
  if cfg.source = .udp ∧ room = 0 then some (s.setKilled listener.id)
  else
    let s := s.setRemote listener.id sender
    if cfg.source ≠ .udp ∧ room < packet.length then some (s.setKilled listener.id)
    else
      let buffer := listener.recvBuffer ++ packet.take room
      if cfg.denies sender.addr then some (s.setBuffer listener.id buffer)
      else
        (tnlHandleRequestSource cfg s { listener with remote := sender } buffer target conn
          connected ok).map (·.setBuffer listener.id [])

/-! ## Data -/

/-- `tnl_check_request_tcp_source`, with whether it is successful. -/
def tnlCheckRequestTcpSource (cfg : TunnelConfig) (s : TunnelState) (sock : TnlSocket)
    (packet : List UInt8) (ok : Bool) : Option (TunnelState × Bool) :=
  match sock.data with
  | none => if cfg.debug then some (s, false) else none
  | some conn =>
    (s.connAt conn).bind fun target =>
    match target.targetSock with
    | none => if cfg.debug then some (s, false) else none
    | some xsock => tnlSendRequestSource cfg s xsock packet target.addr ok

/-- What the callbacks of targets do; `closes` is whether they shut down a source that cannot be
written to. -/
def answer (closes : Bool) (cfg : TunnelConfig) (s : TunnelState) (sock : TnlSocket)
    (packet : List UInt8) (ok : Bool) : Option (TunnelState × Bool) :=
  match sock.data with
  | none => if cfg.debug then some (s, false) else none
  | some conn =>
    (s.connAt conn).bind fun source =>
    match source.sourceSock with
    | none => if cfg.debug then some (s, false) else none
    | some xsock =>
      (tnlSendRequestTarget cfg (s.setRemote xsock source.addr) xsock packet sock.client ok).bind
        fun sent =>
      if sent.2 = false ∧ closes = true then
        (svzSockScheduleForShutdown sent.1 xsock).map fun s => (s, false)
      else some sent

def tnlCheckRequestTcpTarget (cfg : TunnelConfig) := answer true cfg

def tnlHandleRequestUdpTarget (cfg : TunnelConfig) := answer cfg.source.stream cfg

def tnlHandleRequestIcmpTarget (cfg : TunnelConfig) := answer cfg.source.stream cfg

/-! ## Disconnecting -/

/-- The structure is taken out of the hash, if it is there, and freed. -/
def deleteClient (s : TunnelState) (conn : Nat) : TunnelState :=
  match s.client.find? (·.2 = conn) with
  | some entry => { s with client := removeKey Prod.fst entry.1 s.client }.freeConnect conn
  | none => s

/-- `tnl_disconnect_target` -/
def tnlDisconnectTarget (cfg : TunnelConfig) (s : TunnelState) (sock : TnlSocket) (ok : Bool) :
    Option TunnelState :=
  match sock.data with
  | none => if s.nuke = true ∨ cfg.debug = true then some s else none
  | some conn =>
    if s.nuke then
      if cfg.source.stream then
        (s.connAt conn).bind fun source =>
        match source.sourceSock with
        | none => some (s.freeConnect conn)
        | some xsock => (s.sockAt xsock).map fun _ => (s.clearData xsock).freeConnect conn
      else some s
    else
      (s.connAt conn).bind fun source =>
      if cfg.debug = true ∧ source.sourceSock = none then some s
      else
        (if cfg.source = .icmp then
          source.sourceSock.bind fun xsock => svzIcmpSendControl s xsock sock.client ok
        else some s).bind fun s =>
        if cfg.source.stream then
          source.sourceSock.bind fun xsock =>
          (svzSockScheduleForShutdown s xsock).map fun s => (s.clearData xsock).freeConnect conn
        else some (deleteClient s conn)

/-- `tnl_disconnect_source` -/
def tnlDisconnectSource (cfg : TunnelConfig) (s : TunnelState) (sock : TnlSocket) :
    Option TunnelState :=
  if cfg.target.stream then
    match sock.data with
    | none => if cfg.debug then some s else none
    | some conn =>
      (s.connAt conn).bind fun target =>
      match target.targetSock with
      | none => if cfg.debug then some s else none
      | some xsock =>
        (svzSockScheduleForShutdown s xsock).map fun s => (s.clearData xsock).freeConnect conn
  else some s

/-- `svz_sock_shutdown` -/
def svzSockShutdown (cfg : TunnelConfig) (s : TunnelState) (sock : TnlSocket) (ok : Bool) :
    Option TunnelState :=
  (match sock.kind with
    | .listener => some s
    | .source => tnlDisconnectSource cfg s sock
    | .target => tnlDisconnectTarget cfg s sock ok).map fun s => TunnelState.freeSock s sock.id

/-! ## Steps -/

/-- A socket is scheduled for shutdown if its callback fails; the reader of ICMP ignores it. -/
def afterCallback (ignored : Bool) (id : Nat) (result : TunnelState × Bool) : TunnelState :=
  if result.2 = true ∨ ignored = true then result.1 else result.1.setKilled id

/-- A callback without a result is a fault. -/
def settle (s : TunnelState) (result : Option TunnelState) : TunnelState :=
  result.getD { s with faulted := true }

/-- Whether a socket is there, and is read from. -/
def TunnelState.reads (s : TunnelState) (id : Nat) (kind : Kind) : Option TnlSocket :=
  (s.sockAt id).filter fun sock => !s.nuke && !sock.killed && sock.kind == kind

/-- Whether the blocks for a new target are free. -/
def TunnelState.free (s : TunnelState) (target conn : Nat) : Bool :=
  (s.sockAt target).isNone && (s.connAt conn).isNone

/-- What can happen while the server is up. An empty datagram is an error for UDP. -/
def tunnelStep (cfg : TunnelConfig) (s : TunnelState) : TunnelEvent → Option TunnelState
  | .accept sock target conn remote connected =>
    if s.faulted = true ∨ s.nuke = true ∨ cfg.source.stream = false ∨
        (s.sockAt sock).isSome = true ∨ sock = target ∨ s.free target conn = false then none
    else some (tnlConnectSocket cfg s sock target conn remote connected)
  | .datagram sock target conn sender packet connected ok =>
    if s.faulted = true ∨ cfg.source.stream = true ∨ s.free target conn = false ∨
        cfg.source = .udp ∧ packet = [] then none
    else
      (s.reads sock .listener).map fun listener =>
        let heard := if cfg.denies sender.addr then s.since sender
          else if (findKey Prod.fst (tnlAddr sender) s.client).isNone then [packet]
          else s.since sender ++ [packet]
        (settle s (readSocket cfg s listener target conn sender packet connected ok)).hear
          sender heard
  | .stray sock addr =>
    if s.faulted = true ∨ cfg.source ≠ .icmp then none
    else (s.reads sock .listener).map fun listener =>
      s.setRemote sock ⟨addr, listener.remote.port⟩
  | .data sock packet ok =>
    if s.faulted then none
    else (s.reads sock .source).map fun source =>
      settle s ((tnlCheckRequestTcpSource cfg s source packet ok).map (afterCallback false sock))
  | .reply sock packet ok =>
    if s.faulted then none
    else (s.reads sock .target).map fun target =>
      settle s <| match cfg.target with
        | .tcp | .pipe =>
          (tnlCheckRequestTcpTarget cfg s target packet ok).map (afterCallback false sock)
        | .udp => (tnlHandleRequestUdpTarget cfg s target packet ok).map (afterCallback false sock)
        | .icmp => (tnlHandleRequestIcmpTarget cfg s target packet ok).map (afterCallback true sock)
  | .kill sock =>
    if s.faulted = true ∨ s.nuke = true then none else svzSockScheduleForShutdown s sock
  | .shutdown sock ok =>
    if s.faulted then none
    else ((s.sockAt sock).filter fun sock => s.nuke || sock.killed).map fun sock =>
      settle s (svzSockShutdown cfg s sock ok)
  | .nuke => if s.faulted then none else some { s with nuke := true }

/-- A packet oriented source has a socket that listens. -/
def startTunnel (cfg : TunnelConfig) (listener : Nat) : TunnelState :=
  ⟨if cfg.source.stream then [] else [⟨listener, .listener, none, false, ⟨0, 0⟩, [], [], ⟨0, 0⟩⟩],
    [], [], false, false, fun _ => []⟩

/-- The state after the events, if they can happen. -/
def tunnelRun (cfg : TunnelConfig) (listener : Nat) (events : List TunnelEvent) :
    Option TunnelState :=
  events.foldl (fun s event => s.bind (fun s => tunnelStep cfg s event))
    (some (startTunnel cfg listener))

end Serveez.Tunnel
