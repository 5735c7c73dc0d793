import Serveez.Lib.ByteBuffer
import Serveez.Lib.Runs

/-!
# Setting up and releasing the codecs of a socket

The two setup functions save the buffer and some callbacks of the socket in a new
`svz_codec_data`, which starts out with all fields zero, and put their own callbacks in
place. Two revert functions undo this, for a failed initialization and in
`svz_codec_sock_disconnect`.

A codec is a number, whether its `init` succeeds is an input of the setup, and the calls of
`finalize` and of the saved `disconnected_socket` are recorded in the order in which they
are made. The log, the ratio and the fields `config` and `data`, which belong to the codec,
are left out.
-/

namespace Serveez.Codec

open Lib

/-- The functions that a callback of a socket can point to. -/
inductive Callback
  | svzCodecSockReceive
  | svzCodecSockSend
  | svzCodecSockDisconnect
  /-- Any other function. -/
  | other (n : Nat)
deriving DecidableEq

/-- `SVZ_CODEC_INIT`, `SVZ_CODEC_CODE` or `SVZ_CODEC_FINISH`. -/
inductive Mode
  | init
  | code
  | finish
deriving DecidableEq

/-- `svz_codec_data_t`. A callback that is `NULL` is `none`. -/
structure CodecData where
  codec : Nat
  flag : Mode
  /-- `SVZ_CODEC_FLUSH` in the flag. -/
  flagFlush : Bool
  /-- `SVZ_CODEC_READY` in the state. -/
  ready : Bool
  inBuffer : Buffer
  outBuffer : Buffer
  checkRequest : Option Callback
  writeSocket : Option Callback
  disconnectedSocket : Option Callback
deriving DecidableEq

@[ext] structure Sock where
  checkRequest : Option Callback
  writeSocket : Option Callback
  disconnectedSocket : Option Callback
  recvBuffer : Buffer
  sendBuffer : Buffer
  recvCodec : Option CodecData
  sendCodec : Option CodecData
deriving DecidableEq

inductive Event
  | finalized (codec : Nat)
  | called (callback : Callback)

structure World where
  mem : Memory
  /-- The address that `svz_malloc` gives next. -/
  next : Nat
  sock : Sock
  events : List Event

/-- `svz_calloc` of the codec data, with the fields that both setups fill in. -/
def newCodecData (codec : Nat) : CodecData where
  codec := codec
  flag := .init
  flagFlush := false
  ready := false
  inBuffer := ⟨0, 0, 0⟩
  outBuffer := ⟨0, 0, 0⟩
  checkRequest := none
  writeSocket := none
  disconnectedSocket := none

/-- `svz_codec_sock_disconnect` becomes the callback of the socket, unless it is that
already. The old one is saved. -/
def saveDisconnected (sock : Sock) (data : CodecData) : Sock × CodecData :=
  if sock.disconnectedSocket ≠ some .svzCodecSockDisconnect then
    ({ sock with disconnectedSocket := some .svzCodecSockDisconnect },
      { data with disconnectedSocket := sock.disconnectedSocket })
  else (sock, data)

/-! ## Receiving -/

def recvRevert (w : World) : World :=
  match w.sock.recvCodec with
  | none => w
  | some data =>
    { w with
      mem := Buffer.release w.mem data.outBuffer.addr
      sock := { w.sock with
        recvBuffer := data.inBuffer
        checkRequest := data.checkRequest
        disconnectedSocket := data.disconnectedSocket
        recvCodec := none } }

/-- `svz_codec_sock_receive_setup`, where `initOk` is whether the codec initializes. -/
def svzCodecSockReceiveSetup (w : World) (codec : Nat) (initOk : Bool) : World × Int :=
  if w.sock.recvCodec.isSome then (w, 0)
  else
    let data := { newCodecData codec with
      inBuffer := w.sock.recvBuffer
      checkRequest := w.sock.checkRequest }
    let sock := { w.sock with checkRequest := some .svzCodecSockReceive }
    let (sock, data) := saveDisconnected sock data
    let data := { data with outBuffer := ⟨w.next, 0, sock.recvBuffer.size⟩ }
    let mem := Buffer.alloc w.mem w.next sock.recvBuffer.size
    let sock := { sock with recvCodec := some { data with ready := initOk } }
    let w := { w with mem := mem, next := w.next + 1, sock := sock }
    if initOk then (w, 0) else (recvRevert w, -1)

/-! ## Sending -/

/-- This restores `check_request` and not `write_socket`. -/
def sendRevert (w : World) : World :=
  match w.sock.sendCodec with
  | none => w
  | some data =>
    { w with
      mem := Buffer.release w.mem data.outBuffer.addr
      sock := { w.sock with
        sendBuffer := data.inBuffer
        checkRequest := data.checkRequest
        disconnectedSocket := data.disconnectedSocket
        sendCodec := none } }

/-- `svz_codec_sock_send_setup`, where `initOk` is whether the codec initializes. -/
def svzCodecSockSendSetup (w : World) (codec : Nat) (initOk : Bool) : World × Int :=
  if w.sock.sendCodec.isSome then (w, 0)
  else
    let data := { newCodecData codec with
      inBuffer := w.sock.sendBuffer
      writeSocket := w.sock.writeSocket }
    let sock := { w.sock with writeSocket := some .svzCodecSockSend }
    let (sock, data) := saveDisconnected sock data
    let data := { data with outBuffer := ⟨w.next, 0, sock.sendBuffer.size⟩ }
    let mem := Buffer.alloc w.mem w.next sock.sendBuffer.size
    let sock := { sock with sendCodec := some { data with ready := initOk } }
    let w := { w with mem := mem, next := w.next + 1, sock := sock }
    if initOk then (w, 0) else (sendRevert w, -1)

/-! ## Disconnecting -/

/-- The call of `finalize` for a codec that is still ready. -/
def finalizing (w : World) (data : CodecData) : World :=
  if data.ready then { w with events := w.events ++ [.finalized data.codec] } else w

/-- The receiving codec released, and the callback its data saved. -/
def releaseRecv (w : World) (disconnected : Option Callback) : World × Option Callback :=
  match w.sock.recvCodec with
  | none => (w, disconnected)
  | some data => (recvRevert (finalizing w data), data.disconnectedSocket)

/-- The sending codec released, and the callback its data saved. -/
def releaseSend (w : World) (disconnected : Option Callback) : World × Option Callback :=
  match w.sock.sendCodec with
  | none => (w, disconnected)
  | some data => (sendRevert (finalizing w data), data.disconnectedSocket)

/-- The state in which `svz_codec_sock_disconnect` calls the saved callback, with that
call. -/
def svzCodecSockDisconnect (w : World) : World :=
  let (w, disconnected) := releaseRecv w none
  let (w, disconnected) := releaseSend w disconnected
  match disconnected with
  | none => w
  | some callback => { w with events := w.events ++ [.called callback] }

/-! ## Runs -/

inductive Direction
  | recv
  | send

inductive Op
  | setup (direction : Direction) (codec : Nat) (initOk : Bool)
  /-- A codec is done with its stream and finalized by `svz_codec_sock_receive` or
  `svz_codec_sock_send`. -/
  | finish (direction : Direction)

def finishCodec (w : World) : Direction → World
  | .recv => { w with sock := { w.sock with
      recvCodec := w.sock.recvCodec.map fun data => { data with ready := false } } }
  | .send => { w with sock := { w.sock with
      sendCodec := w.sock.sendCodec.map fun data => { data with ready := false } } }

def Op.apply (w : World) : Op → World × Int
  | .setup .recv codec initOk => svzCodecSockReceiveSetup w codec initOk
  | .setup .send codec initOk => svzCodecSockSendSetup w codec initOk
  | .finish direction => (finishCodec w direction, 0)

def step (w : World) (op : Op) : World := (op.apply w).1

def run (w : World) (ops : List Op) : World := ops.foldl step w

/-- A socket without codecs, with any callbacks and buffers. -/
structure Original where
  mem : Memory
  next : Nat
  checkRequest : Option Callback
  writeSocket : Option Callback
  disconnectedSocket : Option Callback
  recvBuffer : Buffer
  sendBuffer : Buffer

def Original.sock (orig : Original) : Sock where
  checkRequest := orig.checkRequest
  writeSocket := orig.writeSocket
  disconnectedSocket := orig.disconnectedSocket
  recvBuffer := orig.recvBuffer
  sendBuffer := orig.sendBuffer
  recvCodec := none
  sendCodec := none

def Original.world (orig : Original) : World where
  mem := orig.mem
  next := orig.next
  sock := orig.sock
  events := []

/-! ## Setups that succeed -/

variable {w : World}

theorem receiveSetup_sock (codec : Nat) (hnone : w.sock.recvCodec = none) :
    ∃ data, data.inBuffer = w.sock.recvBuffer ∧ data.checkRequest = w.sock.checkRequest ∧
      data.outBuffer = ⟨w.next, 0, w.sock.recvBuffer.size⟩ ∧ data.ready = true ∧
      (svzCodecSockReceiveSetup w codec true).1.sock = { w.sock with
        checkRequest := some .svzCodecSockReceive
        disconnectedSocket := some .svzCodecSockDisconnect
        recvCodec := some data } ∧
      (svzCodecSockReceiveSetup w codec true).1.mem =
        Buffer.alloc w.mem w.next w.sock.recvBuffer.size ∧
      (svzCodecSockReceiveSetup w codec true).1.next = w.next + 1 := by
  by_cases hdisc : w.sock.disconnectedSocket = some .svzCodecSockDisconnect
  · simp [svzCodecSockReceiveSetup, hnone, saveDisconnected, hdisc]
  · simp [svzCodecSockReceiveSetup, hnone, saveDisconnected, hdisc]

theorem sendSetup_sock (codec : Nat) (hnone : w.sock.sendCodec = none) :
    ∃ data, data.inBuffer = w.sock.sendBuffer ∧ data.checkRequest = none ∧
      data.outBuffer = ⟨w.next, 0, w.sock.sendBuffer.size⟩ ∧ data.ready = true ∧
      (svzCodecSockSendSetup w codec true).1.sock = { w.sock with
        writeSocket := some .svzCodecSockSend
        disconnectedSocket := some .svzCodecSockDisconnect
        sendCodec := some data } ∧
      (svzCodecSockSendSetup w codec true).1.mem =
        Buffer.alloc w.mem w.next w.sock.sendBuffer.size ∧
      (svzCodecSockSendSetup w codec true).1.next = w.next + 1 := by
  by_cases hdisc : w.sock.disconnectedSocket = some .svzCodecSockDisconnect
  · simp [svzCodecSockSendSetup, hnone, saveDisconnected, hdisc, newCodecData]
  · simp [svzCodecSockSendSetup, hnone, saveDisconnected, hdisc, newCodecData]

end Serveez.Codec
