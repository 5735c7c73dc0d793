import Serveez.Lib.ByteBuffer
import Serveez.Lib.Runs
import Serveez.Socket.Send

/-!
# The shuffle variants of the passthrough code

A client socket and the shuffle socket that `shuffle` creates for its child process. The
shuffle socket has no buffers of its own: its callbacks copy the pointer, the fill and the
size of a client buffer, transfer bytes, and copy the three back, so that both sockets refer
to the same blocks of memory. What the network and the child do is an input of each
operation, and so is the decision of `svz_sock_flood_protect`, which depends on the time.

The state also keeps the bytes that went through each of the four ends. The code of the
Windows build, the idle function and the time stamps are left out.
-/

namespace Serveez.Passthrough

open Lib Socket

/-- `SVZ_PROCESS_SHUFFLE_SOCK` or `SVZ_PROCESS_SHUFFLE_PIPE`. -/
inductive Variant
  | shuffleSock
  | shufflePipe

/-- The descriptor and the two buffers of a socket structure. -/
structure Sock where
  sockDesc : Int
  recvBuffer : Buffer
  sendBuffer : Buffer

structure State where
  mem : Memory
  client : Sock
  clientFinalWrite : Bool
  /-- The socket structure of the child process. -/
  shuffle : Sock
  /-- Whether both sockets are still there, so that each finds its referrer. -/
  linked : Bool
  /-- The bytes that `recv` has given for the client. -/
  received : List UInt8
  /-- The bytes that the child has taken. -/
  toChild : List UInt8
  /-- The bytes that the child has given. -/
  fromChild : List UInt8
  /-- The bytes that `send` has taken for the client. -/
  toClient : List UInt8
  log : List String

/-- What `recv` and `read` do: they give bytes, none at the end of the stream, they would
block, or they fail in another way. -/
inductive RecvResult
  | data (bytes : List UInt8)
  | wouldBlock
  | fail

/-! ## The shuffle socket -/

def sendSwitchBuffers (s : State) (set : Bool) : State × Int :=
  if !s.linked then (s, -1)
  else if set then
    ({ s with shuffle := { s.shuffle with sendBuffer := s.client.recvBuffer } }, 0)
  else
    ({ s with client := { s.client with recvBuffer := s.shuffle.sendBuffer } }, 0)

def recvSwitchBuffers (s : State) (set : Bool) : State × Int :=
  if !s.linked then (s, -1)
  else if set then
    ({ s with shuffle := { s.shuffle with recvBuffer := s.client.sendBuffer } }, 0)
  else
    ({ s with client := { s.client with sendBuffer := s.shuffle.recvBuffer } }, 0)

/-- `svz_sock_reduce_send` on the shuffle socket, after the child took `n` bytes. -/
def childTakes (s : State) (n : Nat) : State :=
  let buffer := s.shuffle.sendBuffer
  { s with
    toChild := s.toChild ++ (s.mem buffer.addr).take n
    mem := buffer.moveFront s.mem n
    shuffle := { s.shuffle with sendBuffer := buffer.shrink n } }

/-- `bytes` from the child behind the receive buffer of the shuffle socket. -/
def childGives (s : State) (bytes : List UInt8) : State :=
  let buffer := s.shuffle.recvBuffer
  { s with
    fromChild := s.fromChild ++ bytes
    mem := buffer.append s.mem bytes
    shuffle := { s.shuffle with recvBuffer := buffer.grow bytes.length } }

def logged (s : State) (entry : String) : State := { s with log := s.log ++ [entry] }

/-- The common body of `send_socket` and `send_pipe`. -/
def sendChild (call : String) (s : State) (result : SendResult) : State × Int :=
  let (s, failed) := sendSwitchBuffers s true
  if failed ≠ 0 then (s, -1)
  else
    let doWrite := s.shuffle.sendBuffer.fill
    if doWrite = 0 then (s, 0)
    else match result with
      | .accept n =>
        let numWritten := min n doWrite
        if numWritten = 0 then (s, 0)
        else ((sendSwitchBuffers (childTakes s numWritten) false).1, 0)
      | .wouldBlock => (logged s call, 0)
      | .fail => (logged s call, -1)

def sendSocket : State → SendResult → State × Int := sendChild "passthrough: send"

def sendPipe : State → SendResult → State × Int := sendChild "passthrough: write"

/-- The common body of `recv_socket` and `recv_pipe`. Only the former has an entry for the
log when there are no data. -/
def recvChild (call : String) (noData : Option String) (s : State) (result : RecvResult) :
    State × Int :=
  let (s, failed) := recvSwitchBuffers s true
  if failed ≠ 0 then (s, -1)
  else
    let doRead := s.shuffle.recvBuffer.size - s.shuffle.recvBuffer.fill
    if doRead = 0 then (s, 0)
    else match result with
      | .data bytes =>
        let bytes := bytes.take doRead
        if bytes = [] then (noData.elim s (logged s), -1)
        else ((recvSwitchBuffers (childGives s bytes) false).1, 0)
      | .wouldBlock => (logged s call, 0)
      | .fail => (logged s call, -1)

def recvSocket (s : State) (result : RecvResult) : State × Int :=
  recvChild "passthrough: recv"
    (some s!"passthrough: recv: no data on socket {s.shuffle.sockDesc}") s result

def recvPipe (s : State) (result : RecvResult) : State × Int :=
  recvChild "passthrough: read" none s result

/-! ## The client socket -/

/-- The `check_request` callback of the client: it sets the fill of the shuffle socket, so
that this is scheduled for sending. -/
def checkRequest (s : State) : State × Int :=
  if !s.linked then (s, -1)
  else
    let buffer := { s.shuffle.sendBuffer with fill := s.client.recvBuffer.fill }
    ({ s with shuffle := { s.shuffle with sendBuffer := buffer } }, 0)

/-- `bytes` from the network behind the receive buffer of the client. -/
def clientGives (s : State) (bytes : List UInt8) : State :=
  let buffer := s.client.recvBuffer
  { s with
    mem := buffer.append s.mem bytes
    client := { s.client with recvBuffer := buffer.grow bytes.length } }

/-- `svz_tcp_read_socket` on the client. -/
def svzTcpReadSocket (s : State) (result : RecvResult) (flooded : Bool) : State × Int :=
  let doRead := s.client.recvBuffer.size - s.client.recvBuffer.fill
  if doRead = 0 then (logged s s!"receive buffer overflow on socket {s.client.sockDesc}", -1)
  else match result with
    | .data bytes =>
      let bytes := bytes.take doRead
      let s := { s with received := s.received ++ bytes }
      if bytes = [] then (logged s s!"tcp: recv: no data on socket {s.client.sockDesc}", -1)
      else if flooded then (logged s s!"kicked socket {s.client.sockDesc} (flood)", -1)
      else checkRequest (clientGives s bytes)
    | .wouldBlock => (logged s "tcp: recv", 0)
    | .fail => (logged s "tcp: recv", -1)

/-- `svz_sock_reduce_send` on the client, after the network took `n` bytes. -/
def clientTakes (s : State) (n : Nat) : State :=
  let buffer := s.client.sendBuffer
  { s with
    toClient := s.toClient ++ (s.mem buffer.addr).take n
    mem := buffer.moveFront s.mem n
    client := { s.client with sendBuffer := buffer.shrink n } }

/-- The call of `send` in `svz_tcp_write_socket`, with what follows for the buffer. -/
def clientSends (s : State) (doWrite : Nat) : SendResult → State × Int
  | .accept n => (clientTakes s (min n doWrite), min n doWrite)
  | .wouldBlock => (logged s "tcp: send", 0)
  | .fail => (logged s "tcp: send", -1)

/-- `svz_tcp_write_socket` on the client. -/
def svzTcpWriteSocket (s : State) (result : SendResult) : State × Int :=
  let doWrite := min s.client.sendBuffer.fill svzSockMaxWrite
  let (s, numWritten) := clientSends s doWrite result
  let numWritten :=
    if s.clientFinalWrite && s.client.sendBuffer.fill == 0 then -1 else numWritten
  (s, if numWritten < 0 then -1 else 0)

/-! ## Runs -/

inductive Op
  | clientRead (result : RecvResult) (flooded : Bool)
  | clientWrite (result : SendResult)
  | clientCheckRequest
  /-- The `write_socket` callback of the shuffle socket. -/
  | shuffleWrite (result : SendResult)
  /-- The `read_socket` callback of the shuffle socket. -/
  | shuffleRead (result : RecvResult)

def Op.apply (variant : Variant) (s : State) : Op → State × Int
  | .clientRead result flooded => svzTcpReadSocket s result flooded
  | .clientWrite result => svzTcpWriteSocket s result
  | .clientCheckRequest => checkRequest s
  | .shuffleWrite result =>
    match variant with
    | .shuffleSock => sendSocket s result
    | .shufflePipe => sendPipe s result
  | .shuffleRead result =>
    match variant with
    | .shuffleSock => recvSocket s result
    | .shufflePipe => recvPipe s result

/-- A callback that does not return zero gets its socket shut down, and with it the other
one. -/
def settle (r : State × Int) : State :=
  if r.2 = 0 then r.1 else { r.1 with linked := false }

def step (variant : Variant) (s : State) (op : Op) : State := settle (op.apply variant s)

def run (variant : Variant) (s : State) (ops : List Op) : State := ops.foldl (step variant) s

/-- A client socket before the process is started. What its buffers hold then counts as
received from the client and as given by the child. -/
structure Client where
  mem : Memory
  sock : Sock
  finalWrite : Bool
  recv_fits : sock.recvBuffer.Fits mem
  send_fits : sock.sendBuffer.Fits mem
  addr_ne : sock.recvBuffer.addr ≠ sock.sendBuffer.addr

/-- `NULL` with a fill and a size of zero. -/
def noBuffer : Buffer := ⟨0, 0, 0⟩

/-- The state in which `shuffle` leaves the two sockets. -/
def shuffle (client : Client) (desc : Int) : State where
  mem := client.mem
  client := client.sock
  clientFinalWrite := client.finalWrite
  shuffle := ⟨desc, noBuffer, noBuffer⟩
  linked := true
  received := client.sock.recvBuffer.contents client.mem
  toChild := []
  fromChild := client.sock.sendBuffer.contents client.mem
  toClient := []
  log := []

end Serveez.Passthrough
