import Serveez.Lib.LittleEndian
import Serveez.Lib.Runs

/-!
# Writing to a UDP socket

`svz_udp_write` cuts its buffer into packets, puts the length, the remote address and the
port in front of each, and hands the frame to `svz_sock_write`, which copies it to the send
buffer and on a connected socket flushes in between. `svz_udp_write_socket` reads the
header back and sends one packet. The bytes of a number are in memory lowest first.

What the network does is an input, one `SendResult` for each call of `send` or `sendto`. The
model stops with a fault where the code would read or take more than the filled part of the
buffer. The log, the time stamps and the `kicked_socket` callback are left out; `unavailable`
is never set on a UDP socket.
-/

namespace Serveez.Udp

open Lib

/-- `SVZ_UDP_MSG_SIZE`. -/
def svzUdpMsgSize : Nat := 64 * 1024

/-- The size of the length, the address and the port in front of a packet. -/
def headerSize : Nat := 4 + 4 + 2

/-- An address with a port. -/
structure Dest where
  addr : UInt32
  port : UInt16
deriving DecidableEq

structure Datagram where
  dest : Dest
  payload : List UInt8
deriving DecidableEq

structure UdpSock where
  killed : Bool
  /-- `SVZ_SOFLG_CONNECTED`. -/
  connected : Bool
  /-- What a connected socket is connected to. -/
  peer : Dest
  /-- `remote_addr` and `remote_port`. -/
  remote : Dest
  /-- The filled part of the send buffer. -/
  sendBuffer : List UInt8
  sendBufferSize : Nat
  /-- The datagrams that the network has taken so far. -/
  sent : List Datagram
deriving DecidableEq

/-- `send_buffer_fill`. -/
def UdpSock.fill (sock : UdpSock) : Nat := sock.sendBuffer.length

inductive SendResult
  | success
  | wouldBlock
  | fail

inductive Fault
  /-- The header or the length in it goes beyond the filled part of the send buffer. -/
  | frameOverrun
  | bufferOverrun
  | endlessLoop
deriving DecidableEq

/-! ## Sending a packet -/

/-- The packet at the front of the send buffer with its length and address. -/
def frontFrame (buffer : List UInt8) : Nat × Dest :=
  (ofBytes (buffer.take 4),
    ⟨UInt32.ofNat (ofBytes ((buffer.drop 4).take 4)),
      UInt16.ofNat (ofBytes ((buffer.drop 8).take 2))⟩)

def svzUdpWriteSocket (sock : UdpSock) (result : SendResult) : Except Fault (UdpSock × Int) :=
  if sock.fill = 0 then .ok (sock, 0)
  else
    let (doWrite, receiver) := frontFrame sock.sendBuffer
    if sock.fill < headerSize ∨ doWrite < headerSize ∨ sock.fill < doWrite then
      .error .frameOverrun
    else match result with
      | .success =>
        let payload := (sock.sendBuffer.take doWrite).drop headerSize
        -- `send` does not look at the receiver
        let dest := if sock.connected then sock.peer else receiver
        .ok ({ sock with
          sent := sock.sent ++ [⟨dest, payload⟩]
          sendBuffer := sock.sendBuffer.drop doWrite }, 0)
      | .wouldBlock => .ok (sock, 0)
      | .fail => .ok (sock, -1)

/-! ## Writing a frame -/

/-- The flush in the loop of `svz_sock_write`, which takes the next result of `send`. -/
def flush (sock : UdpSock) (results : List SendResult) :
    Except Fault ((UdpSock × Int) × List SendResult) :=
  if sock.connected && sock.fill != 0 then
    (svzUdpWriteSocket sock (results.headD .wouldBlock)).map fun r => (r, results.tail)
  else .ok ((sock, 0), results)

/-- `memcpy` to the end of the filled part of the send buffer. -/
def copyBehind (sock : UdpSock) (bytes : List UInt8) : Except Fault UdpSock :=
  if sock.fill + bytes.length ≤ sock.sendBufferSize then
    .ok { sock with sendBuffer := sock.sendBuffer ++ bytes }
  else .error .bufferOverrun

/-- The socket, the return value and the results of `send` that are left. -/
structure Outcome where
  sock : UdpSock
  ret : Int
  results : List SendResult

/-- The loop of `svz_sock_write` for at most `fuel` rounds. The sum in the comparison is an
`int`. -/
def writeLoop : Nat → UdpSock → List UInt8 → List SendResult → Except Fault Outcome
  | _, sock, [], results => .ok ⟨sock, 0, results⟩
  | 0, _, _ :: _, _ => .error .endlessLoop
  | fuel + 1, sock, byte :: bytes, results =>
    let buf := byte :: bytes
    (flush sock results).bind fun flushed =>
      let sock := flushed.1.1
      if flushed.1.2 ≠ 0 then .ok ⟨sock, flushed.1.2, flushed.2⟩
      else if sock.sendBufferSize ≤ sock.fill then .ok ⟨sock, -1, flushed.2⟩
      else if wrapInt (sock.fill + buf.length) < sock.sendBufferSize then
        (copyBehind sock buf).bind fun sock => writeLoop fuel sock [] flushed.2
      else
        let space := sock.sendBufferSize - sock.fill
        (copyBehind sock (buf.take space)).bind fun sock =>
          writeLoop fuel sock (buf.drop space) flushed.2

def svzSockWrite (sock : UdpSock) (buf : List UInt8) (results : List SendResult) :
    Except Fault Outcome :=
  if sock.killed then .ok ⟨sock, 0, results⟩ else writeLoop buf.length sock buf results

/-! ## Writing a buffer -/

/-- A packet with its header. The length counts the header. -/
def frame (packet : Datagram) : List UInt8 :=
  toBytes 4 (headerSize + packet.payload.length) ++ toBytes 4 packet.dest.addr.toNat ++
    toBytes 2 packet.dest.port.toNat ++ packet.payload

/-- The loop of `svz_udp_write` for at most `fuel` rounds. -/
def udpWriteLoop : Nat → UdpSock → List UInt8 → List SendResult → Except Fault Outcome
  | _, sock, [], results => .ok ⟨sock, 0, results⟩
  | 0, _, _ :: _, _ => .error .endlessLoop
  | fuel + 1, sock, byte :: bytes, results =>
    let buf := byte :: bytes
    (svzSockWrite sock (frame ⟨sock.remote, buf.take svzUdpMsgSize⟩) results).bind fun o =>
      if o.ret = -1 then .ok { o with sock := { o.sock with killed := true } }
      else udpWriteLoop fuel o.sock (buf.drop svzUdpMsgSize) o.results

def svzUdpWrite (sock : UdpSock) (buf : List UInt8) (results : List SendResult) :
    Except Fault Outcome :=
  if sock.killed then .ok ⟨sock, 0, results⟩ else udpWriteLoop buf.length sock buf results

/-! ## Runs -/

/-- The chunks of at most `svzUdpMsgSize` bytes of a buffer, for at most `fuel` of them. -/
def chunks : Nat → List UInt8 → List (List UInt8)
  | 0, _ => []
  | _, [] => []
  | fuel + 1, byte :: bytes =>
    (byte :: bytes).take svzUdpMsgSize :: chunks fuel ((byte :: bytes).drop svzUdpMsgSize)

/-- A socket with the chunks written so far, each with the remote address and port that the
socket had. -/
structure Traffic where
  sock : UdpSock
  written : List Datagram
deriving DecidableEq

inductive Op
  | setRemote (remote : Dest)
  | write (buf : List UInt8) (results : List SendResult)
  /-- `svz_udp_write_socket`, called by the main loop. -/
  | writeSocket (result : SendResult)

/-- A socket whose `write_socket` does not return zero is scheduled for shutdown. -/
def scheduled (r : UdpSock × Int) : UdpSock :=
  if r.2 = 0 then r.1 else { r.1 with killed := true }

def Op.apply (t : Traffic) : Op → Except Fault Traffic
  | .setRemote remote => .ok { t with sock := { t.sock with remote := remote } }
  | .write buf results => (svzUdpWrite t.sock buf results).map fun o =>
    { sock := o.sock
      written := t.written ++ (chunks buf.length buf).map (Datagram.mk t.sock.remote) }
  | .writeSocket result => (svzUdpWriteSocket t.sock result).map fun r =>
    { t with sock := scheduled r }

/-- A socket that is scheduled for shutdown is left alone. -/
def step (state : Except Fault Traffic) (op : Op) : Except Fault Traffic :=
  state.bind fun t => if t.sock.killed then .ok t else op.apply t

def run (state : Except Fault Traffic) (ops : List Op) : Except Fault Traffic :=
  ops.foldl step state

/-- A socket with a send buffer of `size` bytes, connected to a peer or not. -/
def newSock (size : Nat) (peer : Option Dest) (remote : Dest) : UdpSock where
  killed := false
  connected := peer.isSome
  peer := peer.getD remote
  remote := remote
  sendBuffer := []
  sendBufferSize := size
  sent := []

def newTraffic (size : Nat) (peer : Option Dest) (remote : Dest) : Except Fault Traffic :=
  .ok { sock := newSock size peer remote, written := [] }

end Serveez.Udp
