import Serveez.Codec.Transfer

/-!
# The receive stream of a codec

* `step_recvSteady`: a call of `svz_codec_sock_receive` that returns zero leaves the socket its own
  receive buffer, and `check_request` has been shown what the codec produced, in order.
* `run_recvStream_iff`: what `check_request` leaves is shown again exactly if it leaves nothing in
  the call in which the codec finishes.
-/

namespace Serveez.Codec

open Lib

/-- The receiving direction of a socket. -/
structure Receiver where
  line : Line
  /-- Whether a call has not returned zero, so that the socket is shut down. -/
  down : Bool

/-- The receiving direction after `svz_codec_sock_receive_setup`. -/
def recvStart (b : Buffered) (codec : Nat) : Receiver :=
  let w := (svzCodecSockReceiveSetup b.world codec true).1
  ⟨newLine w w.sock.recvBuffer w.sock.recvCodec, false⟩

inductive RecvOp
  /-- Bytes from the network are put into the receive buffer. -/
  | arrive (bytes : List UInt8)
  | setFlush (flush : Bool)
  | receive (coding : Coding) (checked : Served)

def recvStep (r : Receiver) (op : RecvOp) : Receiver :=
  if r.down then r
  else match op with
    | .arrive bytes => { r with line := put r.line bytes }
    | .setFlush flush => { r with line := { r.line with flush := flush } }
    | .receive coding checked =>
      let (line, ret) := svzCodecSockReceive r.line coding checked
      ⟨line, ret ≠ 0⟩

def recvRun (r : Receiver) (ops : List RecvOp) : Receiver := ops.foldl recvStep r

/-- `check_request` has been shown what the codec has produced, the own buffer has as many bytes as
its fill says, and what the streams keep is kept. -/
structure RecvStream (addr size : Nat) (l : Line) : Prop extends SendStream addr size l where
  seen : l.seen = l.produced
  fill : l.buffer.fill = (l.buffer.contents l.mem).length

/-- The condition on a step: in a call in which the codec finishes, `check_request` takes all that
it is shown. -/
def RecvCond (r : Receiver) : RecvOp → Prop
  | .receive coding checked => r.down = false → r.line.data.ready = true →
    coding.ret = .finished true → checked.ret = 0 →
      ∀ bytes, offered r.line coding = some bytes → bytes.length ≤ checked.taken
  | _ => True

/-- What is kept whether or not the codec has finished. -/
structure RecvSteady (addr size : Nat) (l : Line) : Prop extends Steady addr size l where
  seen : l.seen = l.produced

variable {r : Receiver} {addr size : Nat}

theorem recvStream_of_steady {l : Line} (h : RecvSteady addr size l)
    (hstream : SendStream addr size l) : RecvStream addr size l :=
  ⟨hstream, h.seen, h.input.toFits.length_contents.symm⟩

/-- A call that returns zero has answered, and `check_request` has not failed. -/
theorem receive_ok {l : Line} (hready : l.data.ready = true) {coding : Coding} {checked : Served}
    (hret : (svzCodecSockReceive l coding checked).2 = 0) :
    coding.ret ≠ .error ∧ checked.ret = 0 := by
  by_cases herror : coding.ret = .error
  · simp [svzCodecSockReceive, transfer, hready, herror] at hret
  · refine ⟨herror, by_contra fun hchecked => ?_⟩
    simp [svzCodecSockReceive, transfer, hready, herror, hchecked] at hret

theorem step_recvSteady (h : r.down = false → RecvSteady addr size r.line) (op : RecvOp)
    (hdown : (recvStep r op).down = false) : RecvSteady addr size (recvStep r op).line := by
  unfold recvStep at hdown ⊢
  by_cases hold : r.down = true
  · rw [if_pos hold] at hdown
    exact absurd hold (by simp [hdown])
  · rw [if_neg hold] at hdown ⊢
    have hr := h (Bool.eq_false_iff.mpr hold)
    cases op with
    | arrive bytes => exact ⟨put_steady hr.toSteady bytes, hr.seen⟩
    | setFlush flush => exact ⟨flush_steady hr.toSteady flush, hr.seen⟩
    | receive coding checked =>
      have hret : (svzCodecSockReceive r.line coding checked).2 = 0 := by simpa using hdown
      dsimp only
      by_cases hready : r.line.data.ready = true
      · obtain ⟨herror, hchecked⟩ := receive_ok hready hret
        obtain ⟨hsteady, -, -, -, hseen⟩ := transfer_ok hr.toSteady hready herror hchecked
        exact ⟨hsteady, hseen⟩
      · rw [svzCodecSockReceive, transfer_unready hready]
        exact hr

/-- A step keeps the stream exactly if it meets the condition. -/
theorem step_recvStream_iff (h : r.down = false → RecvSteady addr size r.line)
    (hstream : r.down = false → RecvStream addr size r.line) (op : RecvOp) :
    ((recvStep r op).down = false → RecvStream addr size (recvStep r op).line) ↔
      RecvCond r op := by
  have hafter := step_recvSteady h op
  by_cases hold : r.down = true
  · have hsame : recvStep r op = r := if_pos hold
    rw [hsame]
    refine iff_of_true (fun hdown => absurd hold (by simp [hdown])) ?_
    cases op <;> simp [RecvCond, hold]
  have hup : r.down = false := Bool.eq_false_iff.mpr hold
  have hr := (h hup).toSteady
  have hs := (hstream hup).toSendStream
  cases op with
  | arrive bytes =>
    refine iff_of_true (fun hdown => recvStream_of_steady (hafter hdown) ?_) trivial
    simpa [recvStep, hup] using put_stream hr hs bytes
  | setFlush flush =>
    refine iff_of_true (fun hdown => recvStream_of_steady (hafter hdown) ?_) trivial
    simpa [recvStep, hup] using flush_stream hr hs flush
  | receive coding checked =>
    have hstep : recvStep r (.receive coding checked) =
        ⟨(svzCodecSockReceive r.line coding checked).1,
          (svzCodecSockReceive r.line coding checked).2 ≠ 0⟩ := if_neg hold
    rw [hstep] at hafter ⊢
    by_cases hready : r.line.data.ready = true
    · by_cases hzero : (svzCodecSockReceive r.line coding checked).2 = 0
      · obtain ⟨herror, hchecked⟩ := receive_ok hready hzero
        have hiff : _ ↔ checked.ret = 0 ∧ _ := transfer_stream_iff hr hready herror
        rw [and_iff_right hchecked] at hiff
        simp only [hzero, ne_eq, not_true_eq_false, decide_false, forall_const, RecvCond, hup,
          hready, hchecked] at hafter ⊢
        exact ⟨fun hnext => hiff.mp hnext.toSendStream,
          fun hcond => recvStream_of_steady hafter (hiff.mpr hcond)⟩
      · refine iff_of_true (fun hdown => absurd hdown (by simp [hzero])) fun _ _ hfin hchecked => ?_
        simp [svzCodecSockReceive, transfer, hready, hfin, hchecked] at hzero
    · refine iff_of_true (fun _ => ?_) fun _ hyes => absurd hyes hready
      rw [svzCodecSockReceive, transfer_unready hready]
      exact hstream hup

/-! ## Runs -/

theorem recvStart_recvSteady (b : Buffered) (codec : Nat) :
    RecvSteady b.recvBuffer.addr b.recvBuffer.size (recvStart b codec).line ∧
    pending (recvStart b codec).line = [] := by
  obtain ⟨data, -, -, hout, -, hsock, hmem, hnext⟩ := receiveSetup_sock (w := b.world) codec rfl
  unfold recvStart
  dsimp only
  rw [hsock]
  obtain ⟨hsteady, hpend⟩ := newLine_steady b.recv_fits b.recv_lt hmem hnext hout
  exact ⟨⟨hsteady, rfl⟩, hpend⟩

/-- As long as all calls have returned zero, a run keeps the stream exactly if no call in which the
codec finishes leaves output. -/
theorem run_recvStream_iff (b : Buffered) (codec : Nat) (ops : List RecvOp) :
    (∀ pre, pre <+: ops → (recvRun (recvStart b codec) pre).down = false →
      RecvStream b.recvBuffer.addr b.recvBuffer.size (recvRun (recvStart b codec) pre).line) ↔
    ∀ pre op, pre ++ [op] <+: ops → RecvCond (recvRun (recvStart b codec) pre) op := by
  obtain ⟨hsteady, hpend⟩ := recvStart_recvSteady b codec
  have hstart := recvStream_of_steady hsteady
    (sendStream_of_steady hsteady.toSteady fun hne => absurd hpend hne)
  unfold recvRun
  exact forall_prefix_iff_of_aux recvStep
    (fun r => r.down = false → RecvSteady b.recvBuffer.addr b.recvBuffer.size r.line)
    (fun r => r.down = false → RecvStream b.recvBuffer.addr b.recvBuffer.size r.line) RecvCond
    (fun _ => hsteady) (fun _ => hstart)
    (fun _ op _ h hstream => (step_recvStream_iff h hstream op).mp)
    (fun _ op _ h hstream hcond =>
      ⟨step_recvSteady h op, (step_recvStream_iff h hstream op).mpr hcond⟩)

/-- The codec finishes with three bytes of output, of which `check_request` takes one. -/
def leftAtTheEnd : List RecvOp :=
  [.arrive [1, 2], .receive ⟨[], ⟨0, 2, [5, 6, 7]⟩, .finished true⟩ ⟨1, 0, 0⟩]

/-- The two bytes that are left are not shown again. -/
theorem not_recvStream_leftAtTheEnd :
    ¬ ∀ (b : Buffered) (codec : Nat) (ops : List RecvOp),
      (recvRun (recvStart b codec) ops).down = false →
        RecvStream b.recvBuffer.addr b.recvBuffer.size (recvRun (recvStart b codec) ops).line := by
  intro h
  have hstream := h smallBuffers 0 leftAtTheEnd (by decide +kernel)
  have hready := ready_of_sendStream hstream.toSendStream (by decide +kernel)
  exact absurd hready (by decide +kernel)

end Serveez.Codec
