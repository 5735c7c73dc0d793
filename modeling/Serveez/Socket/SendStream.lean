import Serveez.Socket.Send
import Serveez.Lib.Runs

/-!
# The stream of sent bytes

The bytes that `send` accepted, followed by the send buffer, are the bytes that the calls of
`svz_sock_write` copied. Only the comparison of `send_buffer_fill + len` with the size of the
buffer breaks this: the sum is an `int`.

* `writeLoop_rounds`: the loop ends, in one of the ways that `Rounds` lists.
* `Rounds.copied`: what it copies.
* `writeLoop_overrun`: what it does when the sum overflows.
* `sendStream_run_iff`: the stream is kept exactly in the runs without such a sum.
-/

namespace Serveez.Socket

open Lib

/-! ## What a flush moves -/

/-- The first `n` bytes of the queue of `sock` went to the network. -/
structure Moved (sock sock' : TcpSock) (n : Nat) : Prop where
  buffer : sock'.sendBuffer = sock.sendBuffer.drop n
  sent : sock'.sent = sock.sent ++ sock.sendBuffer.take n
  size : sock'.sendBufferSize = sock.sendBufferSize

theorem Moved.stream {sock sock' : TcpSock} {n : Nat} (h : Moved sock sock' n) :
    sock'.sent ++ sock'.sendBuffer = sock.sent ++ sock.sendBuffer := by
  rw [h.sent, h.buffer, List.append_assoc, List.take_append_drop]

theorem Moved.fill {sock sock' : TcpSock} {n : Nat} (h : Moved sock sock' n) :
    sock'.fill = sock.fill - n := by
  unfold TcpSock.fill
  rw [h.buffer, List.length_drop]

theorem Moved.refl (sock : TcpSock) : Moved sock sock 0 where
  buffer := rfl
  sent := by rw [List.take_zero, List.append_nil]
  size := rfl

/-- The number of bytes that `send` takes. -/
def accepted (sock : TcpSock) : SendResult → Nat
  | .accept n => min n (min sock.fill svzSockMaxWrite)
  | .wouldBlock | .fail => 0

theorem svzTcpWriteSocket_moved (sock : TcpSock) (result : SendResult) :
    Moved sock (svzTcpWriteSocket sock result).1 (accepted sock result) := by
  cases result with
  | accept n => exact { buffer := rfl, sent := rfl, size := rfl }
  | wouldBlock => exact { Moved.refl sock with }
  | fail => exact Moved.refl sock

theorem sendBytes_finalWrite (sock : TcpSock) (doWrite : Nat) (result : SendResult) :
    (sendBytes sock doWrite result).1.finalWrite = sock.finalWrite := by
  cases result <;> rfl

theorem sendBytes_neg_iff {sock : TcpSock} {doWrite : Nat} {result : SendResult} :
    (sendBytes sock doWrite result).2 < 0 ↔ result = .fail := by
  cases result with
  | accept n =>
    have hnum : 0 ≤ (sendBytes sock doWrite (.accept n)).2 := Int.natCast_nonneg _
    simpa using hnum
  | wouldBlock => simp [sendBytes]
  | fail => simp [sendBytes]

/-- A write fails if `send` does, or if it empties the queue of a final write. -/
theorem svzTcpWriteSocket_ret_ne_zero_iff {sock : TcpSock} {result : SendResult} :
    (svzTcpWriteSocket sock result).2 ≠ 0 ↔
      result = .fail ∨ sock.finalWrite = true ∧ sock.fill ≤ accepted sock result := by
  have hfill := (svzTcpWriteSocket_moved sock result).fill
  have hemp : sock.fill - accepted sock result = 0 ↔ sock.fill ≤ accepted sock result :=
    Nat.sub_eq_zero_iff_le
  unfold svzTcpWriteSocket at hfill ⊢
  simp only [sendBytes_finalWrite, hfill, Bool.and_eq_true, beq_iff_eq, hemp]
  by_cases hfinal : sock.finalWrite = true ∧ sock.fill ≤ accepted sock result
  · simp [hfinal]
  · simp [hfinal, sendBytes_neg_iff]

theorem svzTcpWriteSocket_flags (sock : TcpSock) (result : SendResult) :
    (svzTcpWriteSocket sock result).1.finalWrite = sock.finalWrite ∧
      (svzTcpWriteSocket sock result).1.connected = sock.connected ∧
      ((svzTcpWriteSocket sock result).1.unavailable = true ↔
        sock.unavailable = true ∨ result = .wouldBlock) := by
  cases result with
  | accept n => exact ⟨rfl, rfl, by simp [svzTcpWriteSocket, sendBytes, svzSockReduceSend]⟩
  | wouldBlock => exact ⟨rfl, rfl, by simp [svzTcpWriteSocket, sendBytes]⟩
  | fail => exact ⟨rfl, rfl, by simp [svzTcpWriteSocket, sendBytes]⟩

/-- The result of the `send` of the next flush. -/
def nextSend (results : List SendResult) : SendResult := results.headD .wouldBlock

/-- The number of bytes that the next flush sends. -/
def flushed (sock : TcpSock) (results : List SendResult) : Nat :=
  if sock.flushable then accepted sock (nextSend results) else 0

theorem flush_of_not_flushable {sock : TcpSock} (hno : sock.flushable = false)
    (origLen len : Nat) (results : List SendResult) :
    flush sock origLen len results = ((sock, 0), results) := by
  unfold flush
  rw [hno]
  rfl

theorem flush_moved (sock : TcpSock) (origLen len : Nat) (results : List SendResult) :
    Moved sock (flush sock origLen len results).1.1 (flushed sock results) := by
  cases hf : sock.flushable with
  | false =>
    rw [flush_of_not_flushable hf, flushed, hf]
    exact Moved.refl sock
  | true =>
    unfold flush flushed
    simp only [hf, if_true]
    exact { svzTcpWriteSocket_moved { sock with finalWrite := _ } (nextSend results) with }

/-- The inhibited flag never makes a flush fail. -/
theorem flush_ret_ne_zero_iff {sock : TcpSock} {origLen len : Nat} {results : List SendResult} :
    (flush sock origLen len results).1.2 ≠ 0 ↔
      sock.flushable = true ∧ (nextSend results = .fail ∨
        sock.finalWrite = true ∧ origLen ≠ len ∧ sock.fill ≤ flushed sock results) := by
  cases hf : sock.flushable with
  | false =>
    rw [flush_of_not_flushable hf]
    simp
  | true =>
    unfold flush flushed
    simp only [hf, if_true, true_and]
    rw [← nextSend, svzTcpWriteSocket_ret_ne_zero_iff]
    have hsame : ∀ b, accepted { sock with finalWrite := b } (nextSend results) =
        accepted sock (nextSend results) := by
      intro b
      cases nextSend results <;> rfl
    by_cases heq : origLen = len
    · simp [heq]
    · simp [heq, hsame, TcpSock.fill]

/-! ## The rounds of the loop -/

/-- The fill of the queue after the next flush. -/
def left (sock : TcpSock) (results : List SendResult) : Nat := sock.fill - flushed sock results

theorem left_le (sock : TcpSock) (results : List SendResult) :
    left sock results ≤ sock.fill := Nat.sub_le _ _

def queued (sock : TcpSock) (bytes : List UInt8) : TcpSock :=
  { sock with sendBuffer := sock.sendBuffer ++ bytes }

theorem queued_fill (sock : TcpSock) (bytes : List UInt8) :
    (queued sock bytes).fill = sock.fill + bytes.length := List.length_append

theorem copyBehind_eq {sock : TcpSock} {bytes : List UInt8}
    (hfit : sock.fill + bytes.length ≤ sock.sendBufferSize) :
    copyBehind sock bytes = .ok (queued sock bytes) := if_pos hfit

section Round

variable {origLen fuel : Nat} {sock : TcpSock} {buf : List UInt8} {results : List SendResult}

theorem writeLoop_nil : writeLoop origLen fuel sock [] results = .ok ⟨sock, .done, []⟩ := by
  cases fuel <;> rfl

theorem writeLoop_flushFailed (hbuf : buf ≠ [])
    (hret : (flush sock origLen buf.length results).1.2 ≠ 0) :
    writeLoop origLen (fuel + 1) sock buf results =
      .ok ⟨(flush sock origLen buf.length results).1.1, .flushFailed, buf⟩ := by
  obtain ⟨byte, bytes, rfl⟩ := List.exists_cons_of_ne_nil hbuf
  rw [writeLoop]
  exact if_pos hret

theorem flush_fill :
    (flush sock origLen buf.length results).1.1.fill = left sock results :=
  (flush_moved sock origLen buf.length results).fill

theorem writeLoop_queueFull (hbuf : buf ≠ [])
    (hret : (flush sock origLen buf.length results).1.2 = 0)
    (hfull : sock.sendBufferSize ≤ left sock results) :
    writeLoop origLen (fuel + 1) sock buf results =
      .ok ⟨(flush sock origLen buf.length results).1.1, .queueFull, buf⟩ := by
  obtain ⟨byte, bytes, rfl⟩ := List.exists_cons_of_ne_nil hbuf
  rw [writeLoop]
  simp only [flush_fill, (flush_moved sock origLen (byte :: bytes).length results).size]
  rw [if_neg (not_not.mpr hret), if_pos hfull]

/-- The round that copies, with the comparison still to be decided. -/
theorem writeLoop_copies (hbuf : buf ≠ [])
    (hret : (flush sock origLen buf.length results).1.2 = 0)
    (hroom : left sock results < sock.sendBufferSize) :
    writeLoop origLen (fuel + 1) sock buf results =
      if wrapInt (left sock results + buf.length) < sock.sendBufferSize then
        (copyBehind (flush sock origLen buf.length results).1.1 buf).bind fun sock =>
          .ok ⟨sock, .done, []⟩
      else
        (copyBehind (flush sock origLen buf.length results).1.1
            (buf.take (sock.sendBufferSize - left sock results))).bind fun next =>
          writeLoop origLen fuel next (buf.drop (sock.sendBufferSize - left sock results))
            (flush sock origLen buf.length results).2 := by
  obtain ⟨byte, bytes, rfl⟩ := List.exists_cons_of_ne_nil hbuf
  rw [writeLoop]
  simp only [flush_fill, (flush_moved sock origLen (byte :: bytes).length results).size,
    writeLoop_nil]
  rw [if_neg (not_not.mpr hret), if_neg (Nat.not_le.mpr hroom)]

theorem writeLoop_all (hbuf : buf ≠ [])
    (hret : (flush sock origLen buf.length results).1.2 = 0)
    (hlt : left sock results + buf.length < sock.sendBufferSize) :
    writeLoop origLen (fuel + 1) sock buf results =
      .ok ⟨queued (flush sock origLen buf.length results).1.1 buf, .done, []⟩ := by
  have hsize := sock.size_lt
  have hmoved := flush_moved sock origLen buf.length results
  rw [writeLoop_copies hbuf hret (by omega), wrapInt_eq (by omega), if_pos (by omega),
    copyBehind_eq]
  · rfl
  · rw [flush_fill, hmoved.size]
    omega

theorem writeLoop_chunk (hbuf : buf ≠ [])
    (hret : (flush sock origLen buf.length results).1.2 = 0)
    (hroom : left sock results < sock.sendBufferSize)
    (hge : sock.sendBufferSize ≤ left sock results + buf.length)
    (hsum : left sock results + buf.length < 2 ^ 31) :
    writeLoop origLen (fuel + 1) sock buf results =
      writeLoop origLen fuel
        (queued (flush sock origLen buf.length results).1.1
          (buf.take (sock.sendBufferSize - left sock results)))
        (buf.drop (sock.sendBufferSize - left sock results))
        (flush sock origLen buf.length results).2 := by
  have hmoved := flush_moved sock origLen buf.length results
  rw [writeLoop_copies hbuf hret hroom, wrapInt_eq hsum, if_neg (by omega), copyBehind_eq]
  · rfl
  · rw [flush_fill, hmoved.size, List.length_take]
    omega

/-- The sum wraps around to a negative number, and all of `buf` is copied. -/
theorem writeLoop_overrun (hbuf : buf ≠ [])
    (hret : (flush sock origLen buf.length results).1.2 = 0)
    (hroom : left sock results < sock.sendBufferSize) (hlen : buf.length < 2 ^ 31)
    (hsum : 2 ^ 31 ≤ left sock results + buf.length) :
    writeLoop origLen (fuel + 1) sock buf results = .error .bufferOverrun := by
  have hsize := sock.size_lt
  have hneg := wrapInt_neg hsum (by omega)
  have hover : copyBehind (flush sock origLen buf.length results).1.1 buf =
      .error .bufferOverrun := by
    refine if_neg ?_
    rw [flush_fill, (flush_moved sock origLen buf.length results).size]
    omega
  rw [writeLoop_copies hbuf hret hroom, if_pos (by omega), hover]
  rfl

theorem queued_chunk_fill (hroom : left sock results < sock.sendBufferSize)
    (hge : sock.sendBufferSize ≤ left sock results + buf.length) :
    (queued (flush sock origLen buf.length results).1.1
      (buf.take (sock.sendBufferSize - left sock results))).fill = sock.sendBufferSize := by
  rw [queued_fill, flush_fill, List.length_take]
  omega

end Round

/-- The rounds of a call, as long as no sum overflows: the last one returns, and those before
it fill the queue. -/
inductive Rounds (origLen : Nat) :
    TcpSock → List UInt8 → List SendResult → Outcome → Prop
  | done (sock : TcpSock) (results : List SendResult) :
    Rounds origLen sock [] results ⟨sock, .done, []⟩
  | flushFailed {sock : TcpSock} {buf : List UInt8} {results : List SendResult}
    (hbuf : buf ≠ []) (hret : (flush sock origLen buf.length results).1.2 ≠ 0) :
    Rounds origLen sock buf results
      ⟨(flush sock origLen buf.length results).1.1, .flushFailed, buf⟩
  | queueFull {sock : TcpSock} {buf : List UInt8} {results : List SendResult}
    (hbuf : buf ≠ []) (hret : (flush sock origLen buf.length results).1.2 = 0)
    (hfull : sock.sendBufferSize ≤ left sock results) :
    Rounds origLen sock buf results
      ⟨(flush sock origLen buf.length results).1.1, .queueFull, buf⟩
  | all {sock : TcpSock} {buf : List UInt8} {results : List SendResult}
    (hbuf : buf ≠ []) (hret : (flush sock origLen buf.length results).1.2 = 0)
    (hlt : left sock results + buf.length < sock.sendBufferSize) :
    Rounds origLen sock buf results
      ⟨queued (flush sock origLen buf.length results).1.1 buf, .done, []⟩
  | chunk {sock : TcpSock} {buf : List UInt8} {results : List SendResult} {o : Outcome}
    (hbuf : buf ≠ []) (hret : (flush sock origLen buf.length results).1.2 = 0)
    (hroom : left sock results < sock.sendBufferSize)
    (hge : sock.sendBufferSize ≤ left sock results + buf.length)
    (hnext : Rounds origLen
      (queued (flush sock origLen buf.length results).1.1
        (buf.take (sock.sendBufferSize - left sock results)))
      (buf.drop (sock.sendBufferSize - left sock results))
      (flush sock origLen buf.length results).2 o) :
    Rounds origLen sock buf results o

/-- The next flush fails, or it leaves no room, or the sum of what it leaves and of `len` is
an `int`. -/
def SumFits (sock : TcpSock) (len : Nat) (results : List SendResult) : Prop :=
  (sock.flushable = true ∧ nextSend results = .fail) ∨
    sock.sendBufferSize ≤ left sock results ∨ left sock results + len < 2 ^ 31

theorem writeLoop_rounds (origLen : Nat) :
    ∀ (fuel : Nat) (sock : TcpSock) (buf : List UInt8) (results : List SendResult),
      buf.length ≤ fuel → SumFits sock buf.length results →
      ∃ o, writeLoop origLen fuel sock buf results = .ok o ∧
        Rounds origLen sock buf results o := by
  intro fuel
  induction fuel with
  | zero =>
    intro sock buf results hfuel _
    obtain rfl := List.eq_nil_of_length_eq_zero (Nat.le_zero.mp hfuel)
    exact ⟨_, writeLoop_nil, Rounds.done sock results⟩
  | succ fuel ih =>
    intro sock buf results hfuel hsum
    by_cases hbuf : buf = []
    · subst hbuf
      exact ⟨_, writeLoop_nil, Rounds.done sock results⟩
    by_cases hret : (flush sock origLen buf.length results).1.2 = 0
    swap
    · exact ⟨_, writeLoop_flushFailed hbuf hret, Rounds.flushFailed hbuf hret⟩
    by_cases hroom : left sock results < sock.sendBufferSize
    swap
    · have hfull := Nat.not_lt.mp hroom
      exact ⟨_, writeLoop_queueFull hbuf hret hfull, Rounds.queueFull hbuf hret hfull⟩
    by_cases hlt : left sock results + buf.length < sock.sendBufferSize
    · exact ⟨_, writeLoop_all hbuf hret hlt, Rounds.all hbuf hret hlt⟩
    have hge := Nat.not_lt.mp hlt
    have hsum' : left sock results + buf.length < 2 ^ 31 := by
      rcases hsum with hfail | hfull | hsum
      · exact absurd hret (flush_ret_ne_zero_iff.mpr ⟨hfail.1, Or.inl hfail.2⟩)
      · omega
      · exact hsum
    -- the queue is full after the chunk, so the next sum is not larger than this one
    have hfill : (queued (flush sock origLen buf.length results).1.1
        (buf.take (sock.sendBufferSize - left sock results))).fill = sock.sendBufferSize :=
      queued_chunk_fill hroom hge
    have hle := left_le (queued (flush sock origLen buf.length results).1.1
      (buf.take (sock.sendBufferSize - left sock results)))
      (flush sock origLen buf.length results).2
    have hdrop : (buf.drop (sock.sendBufferSize - left sock results)).length =
      buf.length - (sock.sendBufferSize - left sock results) := List.length_drop
    obtain ⟨o, ho, hrounds⟩ := ih
      (queued (flush sock origLen buf.length results).1.1
        (buf.take (sock.sendBufferSize - left sock results)))
      (buf.drop (sock.sendBufferSize - left sock results))
      (flush sock origLen buf.length results).2 (by omega) (Or.inr (Or.inr (by omega)))
    refine ⟨o, ?_, Rounds.chunk hbuf hret hroom hge hrounds⟩
    rw [writeLoop_chunk hbuf hret hroom hge hsum', ho]

/-! ## What a call copies -/

/-- What the outcome of a call for `buf` has to do with the socket before it. -/
structure Copied (sock : TcpSock) (buf : List UInt8) (o : Outcome) : Prop where
  stream : ∃ chunk, chunk ++ o.rest = buf ∧
    o.sock.sent ++ o.sock.sendBuffer = sock.sent ++ sock.sendBuffer ++ chunk
  fits : o.sock.fill ≤ o.sock.sendBufferSize
  done : o.ending = .done → o.rest = []

/-- A round that only flushes. -/
theorem Moved.copied {sock sock' : TcpSock} {n : Nat} (h : Moved sock sock' n)
    (hfits : sock.fill ≤ sock.sendBufferSize) (buf : List UInt8) {ending : WriteEnd}
    (hend : ending = .done → buf = []) : Copied sock buf ⟨sock', ending, buf⟩ where
  stream := ⟨[], rfl, by rw [h.stream, List.append_nil]⟩
  fits := by
    have hfill := h.fill
    rw [h.size]
    show sock'.fill ≤ sock.sendBufferSize
    omega
  done := hend

theorem Moved.stream_queued {sock sock' : TcpSock} {n : Nat} (h : Moved sock sock' n)
    (chunk : List UInt8) :
    (queued sock' chunk).sent ++ (queued sock' chunk).sendBuffer =
      sock.sent ++ sock.sendBuffer ++ chunk := by
  rw [← h.stream, List.append_assoc]
  rfl

/-- A round that flushes and copies, and the rounds after it. -/
theorem Copied.after_chunk {sock sock' : TcpSock} {n : Nat} (h : Moved sock sock' n)
    {chunk rest : List UInt8} {o : Outcome} (ho : Copied (queued sock' chunk) rest o) :
    Copied sock (chunk ++ rest) o where
  stream := by
    obtain ⟨more, hmore, hstream⟩ := ho.stream
    refine ⟨chunk ++ more, ?_, ?_⟩
    · rw [List.append_assoc, hmore]
    · rw [hstream, h.stream_queued, List.append_assoc]
  fits := ho.fits
  done := ho.done

theorem Rounds.copied {origLen : Nat} {sock : TcpSock} {buf : List UInt8}
    {results : List SendResult} {o : Outcome} (h : Rounds origLen sock buf results o)
    (hfits : sock.fill ≤ sock.sendBufferSize) : Copied sock buf o := by
  induction h with
  | done sock results => exact (Moved.refl sock).copied hfits [] (fun _ => rfl)
  | @flushFailed sock buf results hbuf hret =>
    exact (flush_moved sock origLen buf.length results).copied hfits buf (fun h => nomatch h)
  | @queueFull sock buf results hbuf hret hfull =>
    exact (flush_moved sock origLen buf.length results).copied hfits buf (fun h => nomatch h)
  | @all sock buf results hbuf hret hlt =>
    have hmoved := flush_moved sock origLen buf.length results
    refine ⟨⟨buf, List.append_nil buf, hmoved.stream_queued buf⟩, ?_, fun _ => rfl⟩
    show (queued _ buf).fill ≤ (flush sock origLen buf.length results).1.1.sendBufferSize
    rw [queued_fill, flush_fill, hmoved.size]
    exact Nat.le_of_lt hlt
  | @chunk sock buf results o hbuf hret hroom hge hnext ih =>
    have hmoved := flush_moved sock origLen buf.length results
    have hcopied := Copied.after_chunk hmoved
      (ih (Nat.le_of_eq ((queued_chunk_fill hroom hge).trans hmoved.size.symm)))
    rwa [List.take_append_drop] at hcopied

/-! ## Runs -/

/-- The copied bytes are a prefix of `buf`, all of it if the call succeeds, and none of it if
the socket is to be killed. -/
def Call.Sound (c : Call) : Prop :=
  c.copied <+: c.buf ∧ (c.killed = true → c.copied = []) ∧
    (c.killed = false → c.ret = 0 → c.copied = c.buf)

structure StreamKept (t : Traffic) : Prop where
  stream : t.sock.sent ++ t.sock.sendBuffer = (t.calls.map Call.copied).flatten
  fits : t.sock.fill ≤ t.sock.sendBufferSize
  calls : ∀ c ∈ t.calls, c.Sound

/-- Only a call with bytes to copy forms the sum. -/
def Op.SumFits (sock : TcpSock) : Op → Prop
  | .write buf results => sock.killed = true ∨ Socket.SumFits sock buf.bytes.length results
  | .writeSocket _ | .setFlags _ _ _ _ => True

theorem StreamKept.record {t : Traffic} (h : StreamKept t) {buf : Buf} {o : Outcome}
    (ho : Copied t.sock buf.bytes o)
    (hcall : t.sock.killed = false) : StreamKept (record t buf o) := by
  obtain ⟨chunk, hchunk, hstream⟩ := ho.stream
  have hcopied : buf.bytes.take (buf.bytes.length - o.rest.length) = chunk := by
    rw [← hchunk, List.length_append, Nat.add_sub_cancel, List.take_left]
  refine ⟨?_, ho.fits, ?_⟩
  · show o.sock.sent ++ o.sock.sendBuffer = _
    unfold Socket.record
    rw [hstream, h.stream, List.map_append, List.flatten_append]
    simp [hcopied]
  · intro c hc
    rcases List.mem_append.mp hc with hc | hc
    · exact h.calls c hc
    · obtain rfl := List.mem_singleton.mp hc
      refine ⟨List.take_prefix _ _, fun hk => ?_, fun _ hret => ?_⟩
      · rw [hcall] at hk
        cases hk
      · have hdone : o.ending = .done := by
          cases hend : o.ending with
          | done => rfl
          | flushFailed => simp [hend, WriteEnd.ret] at hret
          | queueFull => simp [hend, WriteEnd.ret] at hret
        show List.take (buf.bytes.length - o.rest.length) buf.bytes = buf.bytes
        rw [ho.done hdone, List.length_nil, Nat.sub_zero, List.take_length]

theorem svzSockWrite_killed {sock : TcpSock} (hk : sock.killed = true) (buf : Buf)
    (results : List SendResult) :
    svzSockWrite sock buf results = .ok ⟨sock, .done, buf.bytes⟩ := if_pos hk

theorem svzSockWrite_alive {sock : TcpSock} (hk : sock.killed = false) (buf : Buf)
    (results : List SendResult) :
    svzSockWrite sock buf results =
      writeLoop buf.bytes.length buf.bytes.length sock buf.bytes results :=
  if_neg (by rw [hk]; exact Bool.false_ne_true)

theorem svzSockWrite_rounds {sock : TcpSock} (hk : sock.killed = false) (buf : Buf)
    {results : List SendResult} (hsum : SumFits sock buf.bytes.length results) :
    ∃ o, svzSockWrite sock buf results = .ok o ∧
      Rounds buf.bytes.length sock buf.bytes results o := by
  rw [svzSockWrite_alive hk]
  exact writeLoop_rounds buf.bytes.length buf.bytes.length sock buf.bytes results
    (Nat.le_refl _) hsum

/-- In the first round the flush only fails if `send` does. -/
theorem svzSockWrite_overrun {sock : TcpSock} (hk : sock.killed = false) (buf : Buf)
    {results : List SendResult} (hno : ¬ SumFits sock buf.bytes.length results) :
    svzSockWrite sock buf results = .error .bufferOverrun := by
  simp only [SumFits, not_or, not_and] at hno
  obtain ⟨hnofail, hroom, hsum⟩ := hno
  have hsize := sock.size_lt
  obtain ⟨fuel, hlen⟩ : ∃ n, buf.bytes.length = n + 1 := ⟨buf.bytes.length - 1, by omega⟩
  have hbuf : buf.bytes ≠ [] := List.ne_nil_of_length_eq_add_one hlen
  have hret : (flush sock buf.bytes.length buf.bytes.length results).1.2 = 0 := by
    refine not_not.mp fun hne => ?_
    obtain ⟨hf, hfail | hfinal⟩ := flush_ret_ne_zero_iff.mp hne
    · exact hnofail hf hfail
    · exact hfinal.2.1 rfl
  have hover := @writeLoop_overrun buf.bytes.length fuel sock buf.bytes results hbuf hret
    (Nat.not_le.mp hroom) buf.length_lt (Nat.not_lt.mp hsum)
  rw [svzSockWrite_alive hk, ← hover, ← hlen]

theorem StreamKept.record_killed {t : Traffic} (h : StreamKept t) (hk : t.sock.killed = true)
    (buf : Buf) : StreamKept (Socket.record t buf ⟨t.sock, .done, buf.bytes⟩) := by
  refine ⟨?_, h.fits, ?_⟩
  · show t.sock.sent ++ t.sock.sendBuffer = _
    unfold Socket.record
    simp [h.stream]
  · intro c hc
    rcases List.mem_append.mp hc with hc | hc
    · exact h.calls c hc
    · obtain rfl := List.mem_singleton.mp hc
      refine ⟨List.take_prefix _ _, fun _ => by simp, fun hf => ?_⟩
      rw [hk] at hf
      cases hf

/-- The step lemma. -/
theorem streamKept_apply_iff {t : Traffic} (h : StreamKept t) (op : Op) :
    (∃ t', op.apply t = .ok t' ∧ StreamKept t') ↔ op.SumFits t.sock := by
  cases op with
  | write buf results =>
    show (∃ t', (svzSockWrite t.sock buf results).map (record t buf) = .ok t' ∧ _) ↔
      t.sock.killed = true ∨ SumFits t.sock buf.bytes.length results
    cases hk : t.sock.killed with
    | true =>
      rw [svzSockWrite_killed hk]
      exact iff_of_true ⟨_, rfl, h.record_killed hk buf⟩ (Or.inl rfl)
    | false =>
      by_cases hsum : SumFits t.sock buf.bytes.length results
      · obtain ⟨o, ho, hrounds⟩ := svzSockWrite_rounds hk buf hsum
        rw [ho]
        exact iff_of_true ⟨_, rfl, h.record (hrounds.copied h.fits) hk⟩ (Or.inr hsum)
      · rw [svzSockWrite_overrun hk buf hsum]
        refine iff_of_false ?_ (by simpa using hsum)
        intro hok
        obtain ⟨t', heq, -⟩ := hok
        cases heq
  | writeSocket result =>
    have hmoved := svzTcpWriteSocket_moved t.sock result
    have hfill := hmoved.fill
    have hfits := h.fits
    refine iff_of_true ⟨_, rfl, hmoved.stream.trans h.stream, ?_, h.calls⟩ trivial
    show (svzTcpWriteSocket t.sock result).1.fill ≤ _
    rw [hmoved.size]
    omega
  | setFlags killed connected finalWrite unavailable =>
    exact iff_of_true ⟨_, rfl, h.stream, h.fits, h.calls⟩ trivial

theorem streamKept_new (size : Nat) (hsize : size < 2 ^ 31) :
    ∃ t, newTraffic size hsize = .ok t ∧ StreamKept t :=
  ⟨_, rfl, rfl, Nat.zero_le _, fun _ hc => nomatch hc⟩

/-- **The send stream.** In a run of writes and flushes on a new socket, what `send` has
accepted and the send buffer are in every state the bytes that the calls of `svz_sock_write`
copied, and every call returns, exactly if in no call the sum of `send_buffer_fill`, after the
first flush, and `len` overflows. -/
theorem sendStream_run_iff (size : Nat) (hsize : size < 2 ^ 31) (ops : List Op) :
    (∀ pre, pre <+: ops → ∃ t, run (newTraffic size hsize) pre = .ok t ∧ StreamKept t) ↔
      ∀ pre op, pre ++ [op] <+: ops →
        ∀ t, run (newTraffic size hsize) pre = .ok t → op.SumFits t.sock := by
  unfold run
  refine forall_prefix_iff step (fun state => ∃ t, state = .ok t ∧ StreamKept t)
    (fun state op => ∀ t, state = .ok t → op.SumFits t.sock) (streamKept_new size hsize) ?_
  intro pre op hpre hstate
  obtain ⟨t, ht, h⟩ := hstate
  rw [ht]
  refine (streamKept_apply_iff h op).trans ⟨?_, fun hop => hop t rfl⟩
  intro hop t' ht'
  cases ht'
  exact hop

/-- Six bytes for a buffer of four, sent in pieces. -/
theorem sendStream_run_small :
    4 < 2 ^ 31 ∧
    ∀ pre, pre <+: [.setFlags false true false false,
        .write ⟨[1, 2, 3, 4, 5, 6], by decide⟩ [.accept 3], .writeSocket (.accept 1)] →
      ∃ t, run (newTraffic 4 (by decide)) pre = .ok t ∧ StreamKept t := by
  refine ⟨by decide, (sendStream_run_iff 4 (by decide) _).mpr ?_⟩
  refine forall_steps ?_
  intro n op hop t ht
  match n, hop with
  | 0, hop =>
    cases hop
    exact trivial
  | 1, hop =>
    cases hop
    cases ht
    exact Or.inr (Or.inr (Or.inr (by decide)))
  | 2, hop =>
    cases hop
    exact trivial

/-- The longest `buf` there is, behind one byte in the queue. -/
def longest : Buf where
  bytes := List.replicate (2 ^ 31 - 1) 0
  length_lt := by
    rw [List.length_replicate]
    exact Nat.sub_lt (Nat.two_pow_pos 31) Nat.one_pos

theorem not_streamKept_after_longest :
    ¬ ∀ pre, pre <+: [.write ⟨[7], by decide⟩ [], .write longest []] →
      ∃ t, run (newTraffic 16 (by decide)) pre = .ok t ∧ StreamKept t := by
  intro hall
  obtain ⟨t, ht, -⟩ := hall _ (List.prefix_refl _)
  have hover : svzSockWrite (queued (newSock 16 (by decide)) [7]) longest [] =
      .error .bufferOverrun := by
    refine svzSockWrite_overrun rfl longest ?_
    have hlen : longest.bytes.length = 2 ^ 31 - 1 := List.length_replicate
    have hleft : left (queued (newSock 16 (by decide)) [7]) [] = 1 := rfl
    have hsize : (queued (newSock 16 (by decide)) [7]).sendBufferSize = 16 := rfl
    intro hsum
    rcases hsum with hfail | hfull | hsum
    · exact nomatch hfail.1
    · omega
    · omega
  have hfirst : step (newTraffic 16 (by decide)) (.write ⟨[7], by decide⟩ []) =
      .ok ⟨queued (newSock 16 (by decide)) [7], [⟨[7], false, 0, [7]⟩]⟩ := rfl
  rw [run, List.foldl_cons, List.foldl_cons, List.foldl_nil, hfirst, step, Except.bind,
    Op.apply, hover] at ht
  cases ht

end Serveez.Socket
