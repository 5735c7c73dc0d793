import Mathlib.Data.List.Basic

/-!
# Packets in the receive buffer

`svz_sock_check_request` chooses the routine that cuts the receive buffer into packets: at a
boundary of several bytes, at a boundary of one byte, or after a fixed number of bytes. The
packets that `handle_request` was called with are kept in `handled`. The callback sees a packet
and returns a number; it leaves the receive buffer and the boundary alone.
-/

namespace Serveez.Recv

/-- The values of the `check_request` callback. -/
inductive CheckRequest
  | svzSockCheckRequest
  | splitPacketFixedAndDispatch
  | splitPacketAndDispatch
  | splitPacketUnibyteAndDispatch
deriving DecidableEq

structure Sock where
  /-- The filled part of the receive buffer. -/
  recvBuffer : List UInt8
  boundary : Option (List UInt8)
  boundarySize : Int
  checkRequest : CheckRequest
  handled : List (List UInt8)
deriving DecidableEq

abbrev Handler := Option (List UInt8 → Int)

def handleRequest (handler : Handler) (sock : Sock) (packet : List UInt8) : Sock × Int :=
  match handler with
  | some h => ({ sock with handled := sock.handled ++ [packet] }, h packet)
  | none => (sock, 0)

def svzSockReduceRecv (sock : Sock) (len : Nat) : Sock :=
  { sock with recvBuffer := sock.recvBuffer.drop len }

/-! ## Boundaries -/

/-- The inner loop, which looks for a boundary below `limit`. Positions are offsets in the
receive buffer. -/
def scan (isBoundary : Nat → Bool) (limit : Int) : Nat → Nat → Nat
  | 0, p => p
  | n + 1, p => if (p : Int) < limit && !isBoundary p then scan isBoundary limit n (p + 1) else p

/-- The outer loop, for at most `fuel` rounds. -/
def dispatch (handler : Handler) (isBoundary : Nat → Bool) (size : Nat) (limit : Int) :
    Nat → Sock → Nat → Nat → Nat → Option (Sock × Int)
  | 0, _, _, _, _ => none
  | fuel + 1, sock, p, packet, len =>
    let p := scan isBoundary limit (limit - p).toNat p
    if (p : Int) < limit && isBoundary p then
      let p := p + size
      let len := len + (p - packet)
      let bytes := (sock.recvBuffer.drop packet).take (p - packet)
      let (sock, ret) := handleRequest handler sock bytes
      if ret ≠ 0 then some (sock, -1)
      else if (p : Int) < limit then dispatch handler isBoundary size limit fuel sock p p len
      else some (svzSockReduceRecv sock len, 0)
    else if (p : Int) < limit then dispatch handler isBoundary size limit fuel sock p packet len
    else some (svzSockReduceRecv sock len, 0)

/-- `memcmp` at position `p`. -/
def isBoundaryAt (sock : Sock) (boundary : List UInt8) (p : Nat) : Bool :=
  (sock.recvBuffer.drop p).take sock.boundarySize.toNat == boundary.take sock.boundarySize.toNat

/-- The first byte of the boundary stands at position `p`. -/
def isByteAt (sock : Sock) (boundary : List UInt8) (p : Nat) : Bool :=
  sock.recvBuffer[p]? == boundary.head?

def splitPacketAndDispatch (handler : Handler) (sock : Sock) (boundary : List UInt8) :
    Option (Sock × Int) :=
  dispatch handler (isBoundaryAt sock boundary) sock.boundarySize.toNat
    (sock.recvBuffer.length - sock.boundarySize + 1) (sock.recvBuffer.length + 1) sock 0 0 0

def splitPacketUnibyteAndDispatch (handler : Handler) (sock : Sock) (boundary : List UInt8) :
    Option (Sock × Int) :=
  dispatch handler (isByteAt sock boundary) 1 sock.recvBuffer.length
    (sock.recvBuffer.length + 1) sock 0 0 0

/-! ## Packets of a fixed size -/

/-- A packet needs a byte behind it. -/
def dispatchFixed (handler : Handler) (size limit : Nat) :
    Nat → Sock → Nat → Nat → Nat → Option (Sock × Int)
  | 0, _, _, _, _ => none
  | fuel + 1, sock, p, packet, len =>
    if p + size < limit then
      let len := len + size
      let p := p + size
      let (sock, ret) := handleRequest handler sock ((sock.recvBuffer.drop packet).take size)
      if ret ≠ 0 then some (sock, -1) else dispatchFixed handler size limit fuel sock p p len
    else some (svzSockReduceRecv sock len, 0)

def splitPacketFixedAndDispatch (handler : Handler) (sock : Sock) : Option (Sock × Int) :=
  dispatchFixed handler sock.boundarySize.toNat sock.recvBuffer.length
    (sock.recvBuffer.length + 1) sock 0 0 0

/-! ## The choice of the routine -/

def chooseRoutine (sock : Sock) : CheckRequest :=
  match sock.boundary with
  | none => .splitPacketFixedAndDispatch
  | some _ =>
    if sock.boundarySize > 1 then .splitPacketAndDispatch else .splitPacketUnibyteAndDispatch

/-- A call of a routine that was chosen; without a boundary there is nothing to compare with. -/
def callRoutine (handler : Handler) (sock : Sock) : CheckRequest → Option (Sock × Int)
  | .svzSockCheckRequest => none
  | .splitPacketFixedAndDispatch => splitPacketFixedAndDispatch handler sock
  | .splitPacketAndDispatch =>
    sock.boundary.bind (splitPacketAndDispatch handler sock)
  | .splitPacketUnibyteAndDispatch =>
    sock.boundary.bind (splitPacketUnibyteAndDispatch handler sock)

def svzSockCheckRequest (handler : Handler) (sock : Sock) : Option (Sock × Int) :=
  if sock.boundarySize ≤ 0 then some (sock, -1)
  else
    let routine := chooseRoutine sock
    callRoutine handler { sock with checkRequest := routine } routine

/-- A call of the `check_request` callback. -/
def checkRequest (handler : Handler) (sock : Sock) : Option (Sock × Int) :=
  match sock.checkRequest with
  | .svzSockCheckRequest => svzSockCheckRequest handler sock
  | routine => callRoutine handler sock routine

/-! ## Runs -/

/-- Bytes that arrive go behind those in the buffer. -/
def receive (handler : Handler) (sock : Sock) (bytes : List UInt8) : Option (Sock × Int) :=
  checkRequest handler { sock with recvBuffer := sock.recvBuffer ++ bytes }

/-- The first failure ends the connection. -/
def receiveAll (handler : Handler) : Sock → List (List UInt8) → Option (Sock × Int)
  | sock, [] => some (sock, 0)
  | sock, bytes :: chunks =>
    match receive handler sock bytes with
    | some (sock, ret) => if ret ≠ 0 then some (sock, ret) else receiveAll handler sock chunks
    | none => none

def newSock (boundary : List UInt8) : Sock where
  recvBuffer := []
  boundary := some boundary
  boundarySize := boundary.length
  checkRequest := .svzSockCheckRequest
  handled := []

end Serveez.Recv
