import Serveez.Port.Config
import Mathlib.Algebra.Group.Nat.Defs
import Mathlib.Algebra.Group.Int.Defs

/-!
# Receiving datagrams

The readers of UDP and ICMP listeners: a datagram goes behind what is in the receive buffer,
then the access lists are checked, and then the whole buffer is offered to the bound servers.
What the kernel delivers and what the callbacks answer are inputs. Each call of a
`handle_request` callback is a `Delivery`; besides the bytes that it is called with, it keeps
the datagram that was read and the bytes that the buffer held before.

Sockets that were connected to one peer are left out. Numbers of two bytes are read as on a
machine that stores the low byte first.
-/

namespace Serveez.Port

inductive Fault
  /-- `memcpy` with a negative length. -/
  | negativeCopy
deriving DecidableEq

structure DgramSock where
  /-- The filled part of the receive buffer. -/
  recvBuffer : List UInt8
  recvBufferSize : Nat
  port : Option PortCfg
  remoteAddr : String
  remotePort : Nat
  /-- Whether the socket has a `handle_request` callback of its own. -/
  handleRequest : Bool
  bindings : Option (List Binding)
  localInfo : Option (UInt32 × UInt16)
  listening : Bool
  itype : Nat
  /-- `getpid () + sock->id`. -/
  ident : Int
  killed : Bool
deriving DecidableEq

structure Delivery where
  /-- The server, or the socket itself. -/
  server : Option Nat
  bytes : List UInt8
  sender : String
  payload : List UInt8
  leftover : List UInt8
deriving DecidableEq

/-- What `handle_request` of a server, or of the socket itself, returns. -/
abbrev Handles := Option Nat → Int

/-! ## The bound servers -/

/-- The loop over the bindings, which stops at the first server that takes the datagram. -/
def offer (handles : Handles) : List Binding → List (Option Nat)
  | [] => []
  | binding :: rest =>
    let server := binding.server
    if !server.handleRequest then offer handles rest
    else if handles (some server.id) = 0 then [some server.id]
    else some server.id :: offer handles rest

/-- The common part of `svz_udp_check_request` and `svz_icmp_check_request`, with the callbacks
that are called. The datagram that no server takes is thrown away, too. -/
def checkDatagram (handles : Handles) (sock : DgramSock) : DgramSock × Int × List (Option Nat) :=
  if sock.bindings.isNone && !sock.handleRequest then (sock, -1, [])
  else if sock.handleRequest then
    if handles none ≠ 0 then (sock, -1, [none]) else ({ sock with recvBuffer := [] }, 0, [none])
  else
    ({ sock with recvBuffer := [] }, 0,
      offer handles (svzBindingFilter sock.bindings sock.localInfo))

def svzUdpCheckRequest (handles : Handles) (sock : DgramSock) :
    DgramSock × Int × List (Option Nat) := checkDatagram handles sock

def svzIcmpCheckRequest (handles : Handles) (sock : DgramSock) :
    DgramSock × Int × List (Option Nat) := checkDatagram handles sock

/-- The deliveries of the datagram `payload` to the callbacks that are called. -/
def deliveries (before sock : DgramSock) (payload : List UInt8) (called : List (Option Nat)) :
    List Delivery :=
  called.map fun server =>
    { server, bytes := sock.recvBuffer, sender := sock.remoteAddr, payload,
      leftover := before.recvBuffer }

/-! ## UDP -/

structure Datagram where
  sender : String
  senderPort : Nat
  payload : List UInt8
  /-- The error, if there is one, is that nothing is available. -/
  unavailable : Bool

/-- `recvfrom` returns zero for an empty datagram, which is taken for an error. -/
def udpReadSocket (handles : Handles) (sock : DgramSock) (datagram : Datagram) :
    DgramSock × Int × List Delivery :=
  if sock.recvBufferSize ≤ sock.recvBuffer.length then (sock, -1, [])
  else
    let doRead := sock.recvBufferSize - sock.recvBuffer.length
    let bytes := datagram.payload.take doRead
    if bytes = [] then (sock, if datagram.unavailable then 0 else -1, [])
    else
      let read := { sock with
        recvBuffer := sock.recvBuffer ++ bytes
        remotePort := datagram.senderPort
        remoteAddr := datagram.sender }
      if svzSockCheckAccess read.port read.remoteAddr < 0 then (read, 0, [])
      else
        let served := svzUdpCheckRequest handles read
        (served.1, if served.2.1 ≠ 0 then -1 else 0,
          deliveries sock read datagram.payload served.2.2)

/-! ## ICMP -/

/-- A packet as the kernel hands it out, with its IP header. -/
structure IpPacket where
  bytes : List UInt8
  sender : String
  header : 5 ≤ (bytes.getD 0 0).toNat % 16
  length_lt : bytes.length < 2 ^ 16

def byteAt (data : List UInt8) (i : Nat) : Nat := (data.getD i 0).toNat

/-- A number in network byte order, after `ntohs`. -/
def wordAt (data : List UInt8) (i : Nat) : Nat := byteAt data i * 256 + byteAt data (i + 1)

/-- `IP_HDR_LENGTH`. -/
def ipHdrLength (data : List UInt8) : Nat := byteAt data 0 % 16 * 4

/-- `ICMP_HEADER_SIZE`. -/
def icmpHeaderSize : Nat := 10

/-- The wrong header checksum is only reported. -/
def svzRawCheckIpHeader (data : List UInt8) (len : Nat) : Int :=
  if byteAt data 0 / 16 ≠ 4 then -1
  else if ipHdrLength data > len then -1
  else if wordAt data 2 < len then -1
  else if byteAt data 9 ≠ 1 then -1
  else ipHdrLength data

/-- The bytes `IP_CHECKSUM_OFS` and the next one are set to zero. -/
def rejectChecksum (data : List UInt8) : List UInt8 := (data.set 10 0).set 11 0

def sumWords : List UInt8 → Nat
  | [] => 0
  | [a] => a.toNat
  | a :: b :: rest => a.toNat + b.toNat * 256 + sumWords rest

/-- The fold to 16 bits, for at most `fuel` rounds; a number of 32 bits needs three. -/
def foldChecksum : Nat → Nat → Nat
  | 0, sum => sum
  | fuel + 1, sum =>
    if sum / 2 ^ 16 = 0 then sum else foldChecksum fuel (sum % 2 ^ 16 + sum / 2 ^ 16)

def svzRawIpChecksum (data : List UInt8) : Nat :=
  let sum := foldChecksum 3 (sumWords data % 2 ^ 32)
  let checksum := 2 ^ 16 - 1 - sum % 2 ^ 16
  checksum % 256 * 256 + checksum / 256

/-- `SVZ_ICMP_SERVEEZ_CLOSE`. -/
def svzIcmpServeezClose : Nat := 3

/-- `ICMP_ERROR`. -/
def icmpError : Int := -1

/-- `ICMP_DISCONNECT`. -/
def icmpDisconnect : Int := -2

/-- The header may reach behind the packet, into what the static buffer held before. -/
def checkPacket (sock : DgramSock) (buffer : List UInt8) (len : Nat) : DgramSock × Int :=
  let length := svzRawCheckIpHeader buffer len
  if length = -1 then (sock, icmpError)
  else
    let data := rejectChecksum buffer
    let p := ipHdrLength buffer
    let load := (data.drop (p + icmpHeaderSize)).take (len - (p + icmpHeaderSize))
    let port := byteAt data (p + 8) + byteAt data (p + 9) * 256
    if byteAt data p ≠ sock.itype then (sock, icmpError)
    else if wordAt data (p + 2) ≠ svzRawIpChecksum load then (sock, icmpError)
    else if wordAt data (p + 4) = sock.ident then (sock, icmpError)
    else if port ≠ sock.remotePort && !sock.listening then (sock, icmpError)
    else
      let sock := { sock with remotePort := port }
      if byteAt data (p + 1) = svzIcmpServeezClose then (sock, icmpDisconnect)
      else (sock, length + icmpHeaderSize)

/-- `recvfrom` writes the packet over the start of the static buffer. -/
def icmpBuffer (packet : IpPacket) (stale : List UInt8) : List UInt8 :=
  packet.bytes ++ stale.drop packet.bytes.length

/-- What a packet brings. -/
def IpPacket.payload (packet : IpPacket) : List UInt8 :=
  packet.bytes.drop (ipHdrLength packet.bytes + icmpHeaderSize)

/-- A packet has arrived. The result of the `check_request` callback is ignored. -/
def icmpReadPacket (handles : Handles) (sock : DgramSock) (packet : IpPacket)
    (stale : List UInt8) : Except Fault (DgramSock × Int × List Delivery) :=
  let buffer := icmpBuffer packet stale
  let checked := checkPacket { sock with remoteAddr := packet.sender } buffer packet.bytes.length
  let trunc := checked.2
  if trunc = icmpDisconnect then .ok (checked.1, -1, [])
  else if trunc < 0 then .ok (checked.1, 0, [])
  else
    let numRead : Int := packet.bytes.length - trunc
    if numRead > (sock.recvBufferSize : Int) - sock.recvBuffer.length then
      .ok (checked.1, -1, [])
    else if numRead < 0 then .error .negativeCopy
    else
      let bytes := ((rejectChecksum buffer).drop trunc.toNat).take numRead.toNat
      let read := { checked.1 with recvBuffer := sock.recvBuffer ++ bytes }
      if svzSockCheckAccess read.port read.remoteAddr < 0 then .ok (read, 0, [])
      else
        let served := svzIcmpCheckRequest handles read
        .ok (served.1, 0, deliveries sock read packet.payload served.2.2)

/-- What `recvfrom` has for the ICMP reader, with the old contents of the static buffer. -/
inductive Received
  | packet (packet : IpPacket) (stale : List UInt8)
  | failed (unavailable : Bool)

/-- `read_socket` of `icmp-socket.c`. -/
def icmpReadSocket (handles : Handles) (sock : DgramSock) :
    Received → Except Fault (DgramSock × Int × List Delivery)
  | .packet packet stale => icmpReadPacket handles sock packet stale
  | .failed unavailable => .ok (sock, if unavailable then 0 else -1, [])

/-! ## Runs -/

structure Station where
  sock : DgramSock
  delivered : List Delivery
deriving DecidableEq

inductive DgramOp
  | udp (datagram : Datagram) (handles : Handles)
  | icmp (received : Received) (handles : Handles)
  /-- Another server is bound to the listener. -/
  | addServer (binding : Binding)

/-- A reader that fails has its socket shut down. -/
def afterRead (s : Station) (read : DgramSock × Int × List Delivery) : Station where
  sock := { read.1 with killed := read.1.killed || read.2.1 != 0 }
  delivered := s.delivered ++ read.2.2

def DgramOp.apply (s : Station) : DgramOp → Except Fault Station
  | .udp datagram handles =>
    if s.sock.killed then .ok s else .ok (afterRead s (udpReadSocket handles s.sock datagram))
  | .icmp received handles =>
    if s.sock.killed then .ok s
    else (icmpReadSocket handles s.sock received).map (afterRead s)
  | .addServer binding =>
    let bindings := some (s.sock.bindings.getD [] ++ [binding])
    .ok { s with sock := { s.sock with bindings } }

def dgramStep (state : Except Fault Station) (op : DgramOp) : Except Fault Station :=
  state.bind fun s => op.apply s

def dgramRun (state : Except Fault Station) (ops : List DgramOp) : Except Fault Station :=
  ops.foldl dgramStep state

end Serveez.Port
