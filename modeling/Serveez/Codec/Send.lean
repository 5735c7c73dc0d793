import Serveez.Codec.Transfer

/-!
# The send stream of a codec

* `step_sendStream_iff`: which calls of `svz_codec_sock_send` keep the stream.
* `run_sendStream_iff`: a run keeps it exactly if all its calls are such: the saved
  `write_socket` does not fail, and in the call in which the codec finishes it takes all the
  output it is offered.
-/

namespace Serveez.Codec

open Lib

/-- The sending direction after `svz_codec_sock_send_setup`. -/
def sendStart (b : Buffered) (codec : Nat) : Line :=
  let w := (svzCodecSockSendSetup b.world codec true).1
  newLine w w.sock.sendBuffer w.sock.sendCodec

inductive SendOp
  /-- Bytes are copied into the send buffer. -/
  | write (bytes : List UInt8)
  | setFlush (flush : Bool)
  /-- `svz_codec_sock_send` with a codec that does not answer `SVZ_CODEC_ERROR`. -/
  | send (coding : Coding) (answers : coding.ret ≠ .error) (written : Written)

def sendStep (l : Line) : SendOp → Line
  | .write bytes => put l bytes
  | .setFlush flush => { l with flush := flush }
  | .send coding _ written => (svzCodecSockSend l coding written).1

def sendRun (l : Line) (ops : List SendOp) : Line := ops.foldl sendStep l

/-- The condition on a step. -/
def SendCond (l : Line) : SendOp → Prop
  | .send coding _ written => l.data.ready = true →
    written.ret = 0 ∧ (coding.ret = .finished true →
      ∀ bytes, offered l coding = some bytes → bytes.length ≤ written.taken)
  | _ => True

variable {l : Line} {addr size : Nat}

theorem step_steady (h : Steady addr size l) (hstream : SendStream addr size l) (op : SendOp)
    (hcond : SendCond l op) :
    Steady addr size (sendStep l op) ∧ SendStream addr size (sendStep l op) := by
  cases op with
  | write bytes => exact ⟨put_steady h bytes, put_stream h hstream bytes⟩
  | setFlush flush => exact ⟨flush_steady h flush, flush_stream h hstream flush⟩
  | send coding answers written =>
    by_cases hready : l.data.ready = true
    · obtain ⟨hwritten, hall⟩ := hcond hready
      exact ⟨(transfer_ok h hready answers (show (Served.mk _ 0 _).ret = 0 from hwritten)).1,
        (transfer_stream_iff h hready answers).mpr ⟨hwritten, hall⟩⟩
    · rw [sendStep, svzCodecSockSend, transfer_unready hready]
      exact ⟨h, hstream⟩

theorem sendCond_of_stream (h : Steady addr size l) (op : SendOp)
    (hnext : SendStream addr size (sendStep l op)) : SendCond l op := by
  cases op with
  | write bytes => trivial
  | setFlush flush => trivial
  | send coding answers written =>
    exact fun hready => (transfer_stream_iff h hready answers).mp hnext

theorem step_sendStream_iff (h : Steady addr size l) (hstream : SendStream addr size l)
    (op : SendOp) : SendStream addr size (sendStep l op) ↔ SendCond l op :=
  ⟨sendCond_of_stream h op, fun hcond => (step_steady h hstream op hcond).2⟩

/-! ## Runs -/

theorem sendStart_steady (b : Buffered) (codec : Nat) :
    Steady b.sendBuffer.addr b.sendBuffer.size (sendStart b codec) ∧
    pending (sendStart b codec) = [] := by
  obtain ⟨data, -, -, hout, -, hsock, hmem, hnext⟩ := sendSetup_sock (w := b.world) codec rfl
  unfold sendStart
  dsimp only
  rw [hsock]
  exact newLine_steady b.send_fits b.send_lt hmem hnext hout

theorem run_sendStream_iff (b : Buffered) (codec : Nat) (ops : List SendOp) :
    (∀ pre, pre <+: ops →
      SendStream b.sendBuffer.addr b.sendBuffer.size (sendRun (sendStart b codec) pre)) ↔
    ∀ pre op, pre ++ [op] <+: ops → SendCond (sendRun (sendStart b codec) pre) op := by
  obtain ⟨hsteady, hpend⟩ := sendStart_steady b codec
  unfold sendRun
  exact forall_prefix_iff_of_aux sendStep (Steady b.sendBuffer.addr b.sendBuffer.size) _ SendCond
    hsteady (sendStream_of_steady hsteady (fun hne => absurd hpend hne))
    (fun _ op _ h hstream => (step_sendStream_iff h hstream op).mp)
    (fun _ op _ h hstream => step_steady h hstream op)

/-- The codec finishes with three bytes of output and the network takes one. -/
def finishedEarly : List SendOp :=
  [.write [1, 2], .send ⟨[], ⟨0, 2, [5, 6, 7]⟩, .finished true⟩ (by decide) ⟨1, 0⟩]

/-- The two bytes that are left are not offered again. -/
theorem not_sendStream_finishedEarly :
    ¬ ∀ (b : Buffered) (codec : Nat) (ops : List SendOp),
      SendStream b.sendBuffer.addr b.sendBuffer.size (sendRun (sendStart b codec) ops) := by
  intro h
  have hready := ready_of_sendStream (h smallBuffers 0 finishedEarly) (by decide +kernel)
  exact absurd hready (by decide +kernel)

end Serveez.Codec
