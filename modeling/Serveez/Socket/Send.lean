import Serveez.Lib.CInt

/-!
# Writing to a TCP socket

The send queue of a socket whose `write_socket` is `svz_tcp_write_socket`: the loop of
`svz_sock_write` flushes and copies in turns, and the main loop flushes in between. What the
network takes is an input, one `SendResult` for each call of `send`; the bytes it took are
kept in `sent`. The log and the `kicked_socket` callback are left out.
-/

namespace Serveez.Socket

open Lib

/-- `SVZ_SOCK_MAX_WRITE`. -/
def svzSockMaxWrite : Nat := 1024

structure TcpSock where
  killed : Bool
  connected : Bool
  finalWrite : Bool
  /-- Whether `unavailable` holds a time to wait for. -/
  unavailable : Bool
  /-- The filled part of the send buffer. -/
  sendBuffer : List UInt8
  sendBufferSize : Nat
  /-- The bytes that `send` has accepted so far. -/
  sent : List UInt8
  size_lt : sendBufferSize < 2 ^ 31
deriving DecidableEq

/-- `send_buffer_fill`. -/
def TcpSock.fill (sock : TcpSock) : Nat := sock.sendBuffer.length

/-- The `len` bytes at `buf`, with `len` an `int`. -/
structure Buf where
  bytes : List UInt8
  length_lt : bytes.length < 2 ^ 31

/-- What `send` does: it accepts bytes, as many as offered or less, it would block, or it
fails in another way. -/
inductive SendResult
  | accept (n : Nat)
  | wouldBlock
  | fail
deriving DecidableEq

inductive Fault
  | bufferOverrun
  | endlessLoop
deriving DecidableEq

def svzSockReduceSend (sock : TcpSock) (len : Nat) : TcpSock :=
  { sock with sendBuffer := sock.sendBuffer.drop len }

/-- The call of `send` in `svz_tcp_write_socket`, with the bytes it takes off the queue, and
`num_written`. -/
def sendBytes (sock : TcpSock) (doWrite : Nat) : SendResult → TcpSock × Int
  | .accept n =>
    let numWritten := min n doWrite
    let accepted := { sock with sent := sock.sent ++ sock.sendBuffer.take numWritten }
    (svzSockReduceSend accepted numWritten, numWritten)
  | .wouldBlock => ({ sock with unavailable := true }, 0)
  | .fail => (sock, -1)

def svzTcpWriteSocket (sock : TcpSock) (result : SendResult) : TcpSock × Int :=
  let doWrite := min sock.fill svzSockMaxWrite
  let (sock, numWritten) := sendBytes sock doWrite result
  -- the final write flag schedules the shutdown
  let numWritten := if sock.finalWrite && sock.fill == 0 then -1 else numWritten
  (sock, if numWritten < 0 then -1 else 0)

/-- The condition for a flush in the loop of `svz_sock_write`. -/
def TcpSock.flushable (sock : TcpSock) : Bool :=
  !sock.unavailable && sock.connected && sock.fill != 0

/-- The flush, which takes the next result of `send`. -/
def flush (sock : TcpSock) (origLen len : Nat) (results : List SendResult) :
    (TcpSock × Int) × List SendResult :=
  if sock.flushable then
    let inhibitp := sock.finalWrite && origLen == len
    let inhibited := { sock with finalWrite := sock.finalWrite && !inhibitp }
    let (sock, ret) := svzTcpWriteSocket inhibited (results.headD .wouldBlock)
    -- a failed write returns before the flag is set again
    let restored := { sock with finalWrite := sock.finalWrite || (inhibitp && ret == 0) }
    ((restored, ret), results.tail)
  else ((sock, 0), results)

/-- `memcpy` to the end of the filled part of the send buffer. -/
def copyBehind (sock : TcpSock) (bytes : List UInt8) : Except Fault TcpSock :=
  if sock.fill + bytes.length ≤ sock.sendBufferSize then
    .ok { sock with sendBuffer := sock.sendBuffer ++ bytes }
  else .error .bufferOverrun

/-- Where `svz_sock_write` returns. -/
inductive WriteEnd
  | done
  | flushFailed
  | queueFull
deriving DecidableEq

def WriteEnd.ret : WriteEnd → Int
  | .done => 0
  | .flushFailed | .queueFull => -1

/-- The socket when `svz_sock_write` returns and the bytes that it has not copied. -/
structure Outcome where
  sock : TcpSock
  ending : WriteEnd
  rest : List UInt8
deriving DecidableEq

/-- The loop of `svz_sock_write` for at most `fuel` rounds. The sum in the comparison is an
`int`. -/
def writeLoop (origLen : Nat) :
    Nat → TcpSock → List UInt8 → List SendResult → Except Fault Outcome
  | _, sock, [], _ => .ok ⟨sock, .done, []⟩
  | 0, _, _ :: _, _ => .error .endlessLoop
  | fuel + 1, sock, byte :: bytes, results =>
    let buf := byte :: bytes
    let flushed := flush sock origLen buf.length results
    let sock := flushed.1.1
    if flushed.1.2 ≠ 0 then .ok ⟨sock, .flushFailed, buf⟩
    else if sock.sendBufferSize ≤ sock.fill then .ok ⟨sock, .queueFull, buf⟩
    else if wrapInt (sock.fill + buf.length) < sock.sendBufferSize then
      (copyBehind sock buf).bind fun sock => writeLoop origLen fuel sock [] flushed.2
    else
      let space := sock.sendBufferSize - sock.fill
      (copyBehind sock (buf.take space)).bind fun sock =>
        writeLoop origLen fuel sock (buf.drop space) flushed.2

def svzSockWrite (sock : TcpSock) (buf : Buf) (results : List SendResult) :
    Except Fault Outcome :=
  if sock.killed then .ok ⟨sock, .done, buf.bytes⟩
  else writeLoop buf.bytes.length buf.bytes.length sock buf.bytes results

/-! ## Runs -/

/-- A call of `svz_sock_write` that has returned. -/
structure Call where
  buf : List UInt8
  killed : Bool
  ret : Int
  copied : List UInt8

structure Traffic where
  sock : TcpSock
  calls : List Call

inductive Op
  | write (buf : Buf) (results : List SendResult)
  | writeSocket (result : SendResult)
  /-- Any code that changes the state of the socket but not its send buffer. -/
  | setFlags (killed connected finalWrite unavailable : Bool)

def record (t : Traffic) (buf : Buf) (o : Outcome) : Traffic where
  sock := o.sock
  calls := t.calls ++ [{
    buf := buf.bytes
    killed := t.sock.killed
    ret := o.ending.ret
    copied := buf.bytes.take (buf.bytes.length - o.rest.length) }]

def Op.apply (t : Traffic) : Op → Except Fault Traffic
  | .write buf results => (svzSockWrite t.sock buf results).map (record t buf)
  | .writeSocket result => .ok { t with sock := (svzTcpWriteSocket t.sock result).1 }
  | .setFlags killed connected finalWrite unavailable =>
    .ok { t with sock := { t.sock with killed, connected, finalWrite, unavailable } }

def step (state : Except Fault Traffic) (op : Op) : Except Fault Traffic :=
  state.bind fun t => op.apply t

def run (state : Except Fault Traffic) (ops : List Op) : Except Fault Traffic :=
  ops.foldl step state

/-- A socket with a send buffer of `size` bytes. -/
def newSock (size : Nat) (hsize : size < 2 ^ 31) : TcpSock where
  killed := false
  connected := false
  finalWrite := false
  unavailable := false
  sendBuffer := []
  sendBufferSize := size
  sent := []
  size_lt := hsize

def newTraffic (size : Nat) (hsize : size < 2 ^ 31) : Except Fault Traffic :=
  .ok { sock := newSock size hsize, calls := [] }

end Serveez.Socket
