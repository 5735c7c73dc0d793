import Serveez.Socket.SendStream

/-!
# The final write

`svz_tcp_write_socket` reports a failure, which shuts the socket down, when the queue of a
socket with the final write flag is empty. `svz_sock_write` inhibits the flag in its first
round only: in a later round of the same write a flush that empties the queue ends the write,
with its tail neither sent nor queued.

* `shutsAfter_iff`: what the flushes after a write have sent when they shut the socket down.
* `finalWrite_uncut_iff`: the writes of which no byte can be lost that way.
-/

namespace Serveez.Socket

/-- `send` makes progress or would block. -/
def SendResult.Regular : SendResult → Prop
  | .accept n => 0 < n
  | .wouldBlock => True
  | .fail => False

/-- Flushes by the main loop. -/
def writes (sock : TcpSock) (results : List SendResult) : TcpSock :=
  results.foldl (fun sock result => (svzTcpWriteSocket sock result).1) sock

/-- A flush by the main loop that reports a failure comes when all bytes are sent. -/
def ShutsAfter (all : List UInt8) (sock : TcpSock) : Prop :=
  ∀ later result, (∀ r ∈ later, r.Regular) → result.Regular →
    (svzTcpWriteSocket (writes sock later) result).2 ≠ 0 →
    (svzTcpWriteSocket (writes sock later) result).1.sent = all

/-- The final write is complete when `svz_tcp_write_socket` schedules the shutdown, be it in
the write or after it. With `told`, a caller that is told of a full queue shuts the socket
down by itself. -/
def NeverCut (told : Bool) (sock : TcpSock) (buf : Buf) : Prop :=
  sock.killed = false → ∀ results, (∀ r ∈ results, SendResult.Regular r) →
    ∃ o, svzSockWrite sock buf results = .ok o ∧
      match o.ending with
      | .done => ShutsAfter (sock.sent ++ sock.sendBuffer ++ buf.bytes) o.sock
      | .flushFailed => o.sock.sent = sock.sent ++ sock.sendBuffer ++ buf.bytes
      | .queueFull => told = true ∨
          ShutsAfter (sock.sent ++ sock.sendBuffer ++ buf.bytes) o.sock

/-! ## The flushes after a write -/

theorem writes_stream (results : List SendResult) : ∀ sock : TcpSock,
    (writes sock results).sent ++ (writes sock results).sendBuffer =
        sock.sent ++ sock.sendBuffer ∧
      (writes sock results).finalWrite = sock.finalWrite := by
  induction results with
  | nil => exact fun sock => ⟨rfl, rfl⟩
  | cons result results ih =>
    intro sock
    obtain ⟨hstream, hfinal⟩ := ih (svzTcpWriteSocket sock result).1
    refine ⟨hstream.trans (svzTcpWriteSocket_moved sock result).stream, hfinal.trans ?_⟩
    exact (svzTcpWriteSocket_flags sock result).1

variable {sock : TcpSock} {results : List SendResult} {o : Outcome} {buf : List UInt8}

theorem accepted_one (hpos : 0 < sock.fill) : accepted sock (.accept 1) = 1 := by
  show min 1 (min sock.fill 1024) = 1
  omega

/-- One byte at a time, the queue gets empty. -/
theorem exists_writes_empty (n : Nat) : ∀ sock : TcpSock, sock.fill = n →
    ∃ later : List SendResult, (∀ r ∈ later, r.Regular) ∧ (writes sock later).fill = 0 := by
  induction n with
  | zero =>
    intro sock hfill
    exact ⟨[], by simp, hfill⟩
  | succ n ih =>
    intro sock hfill
    have hmoved := svzTcpWriteSocket_moved sock (.accept 1)
    rw [accepted_one (by omega)] at hmoved
    obtain ⟨later, hreg, hempty⟩ := ih _ (hmoved.fill.trans (by omega))
    refine ⟨.accept 1 :: later, ?_, hempty⟩
    intro r hr
    rcases List.mem_cons.mp hr with rfl | hr
    · exact Nat.one_pos
    · exact hreg r hr

theorem shutsAfter_of_stream {all : List UInt8} (h : sock.sent ++ sock.sendBuffer = all) :
    ShutsAfter all sock := by
  intro later result _ hresult hret
  obtain ⟨hstream, -⟩ := writes_stream later sock
  rcases svzTcpWriteSocket_ret_ne_zero_iff.mp hret with hfail | ⟨-, hempty⟩
  · subst hfail
    exact hresult.elim
  · have hmoved := svzTcpWriteSocket_moved (writes sock later) result
    rw [hmoved.sent, List.take_of_length_le hempty, hstream, h]

theorem shutsAfter_iff (hfinal : sock.finalWrite = true) {all : List UInt8} :
    ShutsAfter all sock ↔ sock.sent ++ sock.sendBuffer = all := by
  refine ⟨?_, shutsAfter_of_stream⟩
  intro h
  obtain ⟨later, hreg, hempty⟩ := exists_writes_empty sock.fill sock rfl
  obtain ⟨hstream, hflag⟩ := writes_stream later sock
  have hret : (svzTcpWriteSocket (writes sock later) (.accept 1)).2 ≠ 0 :=
    svzTcpWriteSocket_ret_ne_zero_iff.mpr (Or.inr ⟨hflag.trans hfinal, hempty ▸ Nat.zero_le _⟩)
  have hsent := h later (.accept 1) hreg Nat.one_pos hret
  have hnil := List.eq_nil_of_length_eq_zero hempty
  rw [(svzTcpWriteSocket_moved _ _).sent, hnil, List.take_nil] at hsent
  rw [← hsent, ← hstream, hnil]

/-! ## The rounds of a final write -/

theorem flush_flags {origLen len : Nat} (hret : (flush sock origLen len results).1.2 = 0) :
    (flush sock origLen len results).1.1.finalWrite = sock.finalWrite ∧
      (flush sock origLen len results).1.1.connected = sock.connected ∧
      ((flush sock origLen len results).1.1.unavailable = true ↔ sock.unavailable = true ∨
        sock.flushable = true ∧ nextSend results = .wouldBlock) ∧
      (flush sock origLen len results).2 =
        if sock.flushable then results.tail else results := by
  cases hf : sock.flushable with
  | false =>
    rw [flush_of_not_flushable hf]
    simp
  | true =>
    unfold flush at hret ⊢
    simp only [hf, if_true, true_and] at hret ⊢
    obtain ⟨hfinal, hconn, hunav⟩ := svzTcpWriteSocket_flags
      { sock with finalWrite := sock.finalWrite && !(sock.finalWrite && origLen == len) }
      (results.headD .wouldBlock)
    refine ⟨?_, hconn, hunav, trivial⟩
    rw [hfinal, hret]
    cases sock.finalWrite <;> cases origLen == len <;> rfl

/-- No flush empties the queue once it is full. -/
def Calm (sock : TcpSock) : Prop :=
  sock.connected = false ∨ sock.unavailable = true ∨ svzSockMaxWrite < sock.sendBufferSize

theorem flushed_le_max (sock : TcpSock) (results : List SendResult) :
    flushed sock results ≤ svzSockMaxWrite := by
  unfold flushed
  split
  · cases nextSend results with
    | accept n => exact Nat.le_trans (Nat.min_le_right _ _) (Nat.min_le_right _ _)
    | wouldBlock => exact Nat.zero_le _
    | fail => exact Nat.zero_le _
  · exact Nat.zero_le _

theorem Calm.flush_ret (hcalm : Calm sock) {origLen len : Nat}
    (hround : sock.fill = sock.sendBufferSize ∨ origLen = len) (hreg : (nextSend results).Regular) :
    (flush sock origLen len results).1.2 = 0 := by
  refine not_not.mp fun hne => ?_
  obtain ⟨hf, hbad⟩ := flush_ret_ne_zero_iff.mp hne
  simp only [TcpSock.flushable, Bool.and_eq_true, Bool.not_eq_true'] at hf
  have hmax := flushed_le_max sock results
  rcases hbad with hfail | ⟨-, hne, hempty⟩
  · rw [hfail] at hreg
    exact hreg
  · rcases hround with hfull | heq
    · rcases hcalm with hconn | hunav | hbig
      · rw [hf.1.2] at hconn
        cases hconn
      · rw [hf.1.1] at hunav
        cases hunav
      · omega
    · exact hne heq

theorem nextSend_regular (hreg : ∀ r ∈ results, r.Regular) :
    (nextSend results).Regular := by
  cases results with
  | nil => exact trivial
  | cons r results => exact hreg r List.mem_cons_self

theorem flush_regular {origLen len : Nat} (hret : (flush sock origLen len results).1.2 = 0)
    (hreg : ∀ r ∈ results, r.Regular) :
    ∀ r ∈ (flush sock origLen len results).2, r.Regular := by
  intro r hr
  rw [(flush_flags hret).2.2.2] at hr
  split at hr
  · exact hreg r (List.mem_of_mem_tail hr)
  · exact hreg r hr

/-- A calm socket stays calm, and its queue is full after a round that copies a part. -/
theorem Rounds.ne_flushFailed {origLen : Nat} (h : Rounds origLen sock buf results o)
    (hcalm : Calm sock) (hround : sock.fill = sock.sendBufferSize ∨ origLen = buf.length)
    (hreg : ∀ r ∈ results, r.Regular) : o.ending ≠ .flushFailed := by
  induction h with
  | done => exact nofun
  | flushFailed hbuf hret =>
    exact absurd (hcalm.flush_ret hround (nextSend_regular hreg)) hret
  | queueFull => exact nofun
  | all => exact nofun
  | @chunk sock buf results o hbuf hret hroom hge hnext ih =>
    have hmoved := flush_moved sock origLen buf.length results
    obtain ⟨-, hconn, hunav, -⟩ := flush_flags hret
    refine ih ?_ (Or.inl ?_) (flush_regular hret hreg)
    · rcases hcalm with h | h | h
      · exact Or.inl (hconn.trans h)
      · exact Or.inr (Or.inl (hunav.mpr (Or.inl h)))
      · exact Or.inr (Or.inr (hmoved.size ▸ h))
    · exact (queued_chunk_fill hroom hge).trans hmoved.size.symm

theorem Rounds.rest_ne_nil {origLen : Nat} (h : Rounds origLen sock buf results o)
    (hend : o.ending ≠ .done) : o.rest ≠ [] := by
  induction h with
  | done => exact absurd rfl hend
  | flushFailed hbuf hret => exact hbuf
  | queueFull hbuf hret hfull => exact hbuf
  | all => exact absurd rfl hend
  | chunk hbuf hret hroom hge hnext ih => exact ih hend

theorem Rounds.finalWrite {origLen : Nat} (h : Rounds origLen sock buf results o)
    (hend : o.ending ≠ .flushFailed) : o.sock.finalWrite = sock.finalWrite := by
  induction h with
  | done => rfl
  | flushFailed => exact absurd rfl hend
  | queueFull hbuf hret hfull => exact (flush_flags hret).1
  | all hbuf hret hlt => exact (flush_flags hret).1
  | chunk hbuf hret hroom hge hnext ih => exact (ih hend).trans (flush_flags hret).1

theorem svzSockWrite_ok (hk : sock.killed = false) {buf : Buf}
    (ho : svzSockWrite sock buf results = .ok o) :
    Rounds buf.bytes.length sock buf.bytes results o := by
  by_cases hsum : SumFits sock buf.bytes.length results
  · obtain ⟨o', ho', hrounds⟩ := svzSockWrite_rounds hk buf hsum
    rw [ho] at ho'
    cases ho'
    exact hrounds
  · rw [svzSockWrite_overrun hk buf hsum] at ho
    cases ho

/-- A write that is not done has lost its tail. -/
theorem neverCut_iff_endings {told : Bool} (hk : sock.killed = false)
    (hfinal : sock.finalWrite = true) (hfits : sock.fill ≤ sock.sendBufferSize) {buf : Buf} :
    NeverCut told sock buf ↔ ∀ results, (∀ r ∈ results, SendResult.Regular r) →
      ∃ o, svzSockWrite sock buf results = .ok o ∧ o.ending ≠ .flushFailed ∧
        (o.ending = .queueFull → told = true) := by
  refine (forall_prop_of_true hk).trans (forall₂_congr fun results hreg =>
    exists_congr fun o => and_congr_right fun ho => ?_)
  have hrounds := svzSockWrite_ok hk ho
  have hcopied := hrounds.copied hfits
  obtain ⟨chunk, hchunk, hstream⟩ := hcopied.stream
  have hlens := congrArg List.length hstream
  have hlen := congrArg List.length hchunk
  simp only [List.length_append] at hlens hlen
  have htail : o.ending ≠ .done → 0 < o.rest.length := fun hend =>
    List.length_pos_iff.mpr (hrounds.rest_ne_nil hend)
  cases hend : o.ending with
  | done =>
    rw [hcopied.done hend, List.append_nil] at hchunk
    rw [hchunk] at hstream
    exact iff_of_true (shutsAfter_of_stream hstream) ⟨nofun, nofun⟩
  | flushFailed =>
    have hpos := htail (by rw [hend]; exact nofun)
    refine iff_of_false ?_ (fun h => h.1 rfl)
    intro hsent
    have hsents := congrArg List.length hsent
    simp only [List.length_append] at hsents
    omega
  | queueFull =>
    have hpos := htail (by rw [hend]; exact nofun)
    have hflag := (hrounds.finalWrite (by rw [hend]; exact nofun)).trans hfinal
    have hnot : ¬ ShutsAfter (sock.sent ++ sock.sendBuffer ++ buf.bytes) o.sock := by
      intro hshut
      have hall := congrArg List.length ((shutsAfter_iff hflag).mp hshut)
      simp only [List.length_append] at hall
      omega
    simp only [hnot, or_false, ne_eq, reduceCtorEq, not_false_eq_true, true_and, forall_const]

/-! ## The writes that are not cut -/

/-- The queue takes the whole write after a flush of one byte, or no flush in a later round
empties it; and no sum overflows. -/
def TailSafe (sock : TcpSock) (len : Nat) : Prop :=
  (sock.fill < sock.sendBufferSize → sock.fill + len < 2 ^ 31) ∧
    (sock.flushable = true → sock.fill - 1 + len < 2 ^ 31) ∧
    (Calm sock ∨ sock.sendBufferSize = 0 ∨ sock.fill - 1 + len ≤ sock.sendBufferSize)

theorem flush_ret_first {len : Nat} (hreg : ∀ r ∈ results, SendResult.Regular r) :
    (flush sock len len results).1.2 = 0 := by
  refine not_not.mp fun hne => ?_
  obtain ⟨-, hfail | hfinal⟩ := flush_ret_ne_zero_iff.mp hne
  · have hnext := nextSend_regular hreg
    rw [hfail] at hnext
    exact hnext
  · exact hfinal.2.1 rfl

theorem Rounds.done_of_room (h : Rounds buf.length sock buf results o)
    (hreg : ∀ r ∈ results, SendResult.Regular r)
    (hroom : left sock results + buf.length ≤ sock.sendBufferSize) : o.ending = .done := by
  cases h with
  | done => rfl
  | flushFailed hbuf hret => exact absurd (flush_ret_first hreg) hret
  | queueFull hbuf hret hfull =>
    have hpos := List.length_pos_iff.mpr hbuf
    omega
  | all => rfl
  | chunk hbuf hret hlt hge hnext =>
    rw [List.drop_of_length_le (by omega)] at hnext
    cases hnext with
    | done => rfl
    | flushFailed hbuf hret => exact absurd rfl hbuf
    | queueFull hbuf hret hfull => exact absurd rfl hbuf
    | all hbuf hret hlt => exact absurd rfl hbuf
    | chunk hbuf hret hlt hge hnext => exact absurd rfl hbuf

theorem left_eq_fill (h : sock.flushable = false ∨ nextSend results = .wouldBlock) :
    left sock results = sock.fill := by
  have hzero : flushed sock results = 0 := by
    unfold flushed
    rcases h with hno | hblock
    · rw [hno]
      rfl
    · rw [hblock]
      exact ite_self 0
  unfold left
  omega

theorem left_of_flushable (hf : sock.flushable = true)
    (hreg : ∀ r ∈ results, SendResult.Regular r) :
    nextSend results = .wouldBlock ∨ left sock results ≤ sock.fill - 1 := by
  have hnext := nextSend_regular hreg
  cases hs : nextSend results with
  | accept n =>
    right
    rw [hs] at hnext
    have hpos : 0 < n := hnext
    have hfill : sock.fill ≠ 0 := by
      simp only [TcpSock.flushable, Bool.and_eq_true, bne_iff_ne] at hf
      exact hf.2
    have hacc : flushed sock results = min n (min sock.fill 1024) := by
      unfold flushed
      rw [hf, hs]
      rfl
    unfold left
    omega
  | wouldBlock => exact Or.inl rfl
  | fail =>
    rw [hs] at hnext
    exact hnext.elim

theorem TailSafe.sumFits {len : Nat} (h : TailSafe sock len)
    (hreg : ∀ r ∈ results, SendResult.Regular r) :
    SumFits sock len results := by
  obtain ⟨hsum, hsum', -⟩ := h
  have hkept : left sock results = sock.fill → SumFits sock len results := by
    intro hleft
    by_cases hroom : sock.fill < sock.sendBufferSize
    · exact Or.inr (Or.inr (hleft ▸ hsum hroom))
    · exact Or.inr (Or.inl (hleft ▸ Nat.not_lt.mp hroom))
  cases hf : sock.flushable with
  | false => exact hkept (left_eq_fill (Or.inl hf))
  | true =>
    rcases left_of_flushable hf hreg with hblock | hsent
    · exact hkept (left_eq_fill (Or.inr hblock))
    · have hlt := hsum' hf
      exact Or.inr (Or.inr (by omega))

/-- After a `send` that would block, the rounds of a write flush no more. -/
theorem Rounds.ne_flushFailed_of_block (h : Rounds buf.length sock buf results o)
    (hreg : ∀ r ∈ results, SendResult.Regular r) (hf : sock.flushable = true)
    (hblock : nextSend results = .wouldBlock) : o.ending ≠ .flushFailed := by
  cases h with
  | done => exact nofun
  | flushFailed hbuf hret => exact absurd (flush_ret_first hreg) hret
  | queueFull => exact nofun
  | all => exact nofun
  | chunk hbuf hret hroom hge hnext =>
    have hmoved := flush_moved sock buf.length buf.length results
    have hunav := (flush_flags hret).2.2.1.mpr (Or.inr ⟨hf, hblock⟩)
    exact hnext.ne_flushFailed (Or.inr (Or.inl hunav))
      (Or.inl ((queued_chunk_fill hroom hge).trans hmoved.size.symm)) (flush_regular hret hreg)

theorem TailSafe.ne_flushFailed (h : TailSafe sock buf.length)
    (hreg : ∀ r ∈ results, SendResult.Regular r) (hrounds : Rounds buf.length sock buf results o) :
    o.ending ≠ .flushFailed := by
  obtain ⟨-, -, hcalm | hzero | hroom⟩ := h
  · exact hrounds.ne_flushFailed hcalm (Or.inr rfl) hreg
  · cases hrounds with
    | done => exact nofun
    | flushFailed hbuf hret => exact absurd (flush_ret_first hreg) hret
    | queueFull => exact nofun
    | all => exact nofun
    | chunk hbuf hret hlt hge hnext => omega
  · cases hf : sock.flushable with
    | false =>
      by_cases hfill : sock.fill = 0
      · have hleft := @left_eq_fill sock results (Or.inl hf)
        rw [hrounds.done_of_room hreg (by omega)]
        exact nofun
      · have hcalm : Calm sock := by
          simp only [TcpSock.flushable, Bool.and_eq_false_iff, Bool.not_eq_false',
            bne_eq_false_iff_eq] at hf
          rcases hf with (hunav | hconn) | hempty
          · exact Or.inr (Or.inl hunav)
          · exact Or.inl hconn
          · exact absurd hempty hfill
        exact hrounds.ne_flushFailed hcalm (Or.inr rfl) hreg
    | true =>
      rcases left_of_flushable hf hreg with hblock | hsent
      · exact hrounds.ne_flushFailed_of_block hreg hf hblock
      · rw [hrounds.done_of_room hreg (by omega)]
        exact nofun

theorem Rounds.ne_done_of_full {origLen : Nat} (h : Rounds origLen sock buf results o)
    (hbuf : buf ≠ []) (hfull : left sock results = sock.sendBufferSize) : o.ending ≠ .done := by
  cases h with
  | done => exact absurd rfl hbuf
  | flushFailed => exact nofun
  | queueFull => exact nofun
  | all hbuf hret hlt => omega
  | chunk hbuf hret hlt hge hnext => omega

/-- A write that is too long for the queue finds it full when `send` would block. -/
theorem Rounds.ne_done_of_block (hfits : sock.fill ≤ sock.sendBufferSize)
    (h : Rounds buf.length sock buf [] o) (hlong : sock.sendBufferSize < sock.fill + buf.length) :
    o.ending ≠ .done := by
  have hleft : ∀ s : TcpSock, left s [] = s.fill := fun s => left_eq_fill (Or.inr rfl)
  have hkept := hleft sock
  cases h with
  | done =>
    rw [List.length_nil] at hlong
    omega
  | flushFailed => exact nofun
  | queueFull => exact nofun
  | all hbuf hret hlt => omega
  | chunk hbuf hret hroom hge hnext =>
    have hnil : (flush sock buf.length buf.length []).2 = [] := by
      rw [(flush_flags hret).2.2.2]
      exact ite_self []
    have hsize := (flush_moved sock buf.length buf.length []).size
    rw [hnil] at hnext
    refine hnext.ne_done_of_full ?_ ?_
    · rw [← List.length_pos_iff, List.length_drop]
      omega
    · rw [hleft, queued_chunk_fill hroom hge]
      exact hsize.symm

/-- One byte goes first, if there is one in the queue, and then as much as possible. -/
def byteThenAll (sock : TcpSock) : List SendResult :=
  (if sock.fill = 0 then [] else [.accept 1]) ++ [.accept svzSockMaxWrite]

theorem byteThenAll_regular (sock : TcpSock) : ∀ r ∈ byteThenAll sock, r.Regular := by
  intro r hr
  unfold byteThenAll at hr
  split at hr
  · obtain rfl := List.mem_singleton.mp hr
    exact Nat.succ_pos 1023
  · simp only [List.cons_append, List.nil_append, List.mem_cons, List.not_mem_nil, or_false] at hr
    rcases hr with rfl | rfl
    · exact Nat.one_pos
    · exact Nat.succ_pos 1023

theorem flushable_of_active (hconn : sock.connected = true) (hav : sock.unavailable = false)
    (hfill : sock.fill ≠ 0) : sock.flushable = true := by
  unfold TcpSock.flushable
  simp [hconn, hav, hfill]

theorem left_byteThenAll (hconn : sock.connected = true) (hav : sock.unavailable = false) :
    left sock (byteThenAll sock) = sock.fill - 1 := by
  by_cases hfill : sock.fill = 0
  · have hno : sock.flushable = false := by
      unfold TcpSock.flushable
      simp [hfill]
    rw [left_eq_fill (Or.inl hno), hfill]
  · have hone : flushed sock (byteThenAll sock) = 1 := by
      unfold flushed byteThenAll
      rw [if_pos (flushable_of_active hconn hav hfill), if_neg hfill]
      exact accepted_one (Nat.pos_of_ne_zero hfill)
    unfold left
    rw [hone]

theorem Rounds.flushFailed_of_emptied {origLen : Nat} (hfinal : sock.finalWrite = true)
    (hf : sock.flushable = true) (hsmall : sock.fill ≤ svzSockMaxWrite) (hbuf : buf ≠ [])
    (hlater : origLen ≠ buf.length) (h : Rounds origLen sock buf [.accept svzSockMaxWrite] o) :
    o.ending = .flushFailed := by
  have hall : flushed sock [.accept svzSockMaxWrite] = sock.fill := by
    unfold flushed
    rw [if_pos hf]
    show min svzSockMaxWrite (min sock.fill svzSockMaxWrite) = sock.fill
    omega
  have hbad : (flush sock origLen buf.length [.accept svzSockMaxWrite]).1.2 ≠ 0 :=
    flush_ret_ne_zero_iff.mpr ⟨hf, Or.inr ⟨hfinal, hlater, Nat.le_of_eq hall.symm⟩⟩
  cases h with
  | done => exact absurd rfl hbuf
  | flushFailed => rfl
  | queueFull hbuf hret hfull => exact absurd hret hbad
  | all hbuf hret hlt => exact absurd hret hbad
  | chunk hbuf hret hlt hge hnext => exact absurd hret hbad

theorem Rounds.flushFailed_of_small (hfinal : sock.finalWrite = true)
    (hfits : sock.fill ≤ sock.sendBufferSize) (hconn : sock.connected = true)
    (hav : sock.unavailable = false) (hpos : sock.sendBufferSize ≠ 0)
    (hsmall : sock.sendBufferSize ≤ svzSockMaxWrite)
    (hlong : sock.sendBufferSize < sock.fill - 1 + buf.length)
    (h : Rounds buf.length sock buf (byteThenAll sock) o) : o.ending = .flushFailed := by
  have hleft := left_byteThenAll hconn hav
  cases h with
  | done =>
    rw [List.length_nil] at hlong
    omega
  | flushFailed => rfl
  | queueFull hbuf hret hfull => omega
  | all hbuf hret hlt => omega
  | chunk hbuf hret hroom hge hnext =>
    obtain ⟨hfinal', hconn', hunav', hresults⟩ := flush_flags hret
    have hfill' := @queued_chunk_fill buf.length sock buf (byteThenAll sock) hroom hge
    have hnext' : (flush sock buf.length buf.length (byteThenAll sock)).2 =
        [.accept svzSockMaxWrite] := by
      rw [hresults]
      unfold byteThenAll
      by_cases hfill : sock.fill = 0
      · simp [TcpSock.flushable, hfill]
      · simp [flushable_of_active hconn hav hfill, hfill]
    have hav' : (flush sock buf.length buf.length (byteThenAll sock)).1.1.unavailable = false := by
      rw [← Bool.not_eq_true, hunav', hav]
      unfold byteThenAll nextSend
      split <;> simp
    rw [hnext'] at hnext
    -- the queue is full now, and what is left of the write is neither all of it nor nothing
    refine Rounds.flushFailed_of_emptied ?_ ?_ ?_ ?_ ?_ hnext
    · exact hfinal'.trans hfinal
    · refine flushable_of_active (hconn'.trans hconn) hav' ?_
      rw [hfill']
      exact hpos
    · rw [hfill']
      exact hsmall
    · rw [← List.length_pos_iff, List.length_drop]
      omega
    · rw [List.length_drop]
      omega

theorem tailSafe_of_neverCut (hk : sock.killed = false) (hfinal : sock.finalWrite = true)
    (hfits : sock.fill ≤ sock.sendBufferSize) {buf : Buf} (h : NeverCut true sock buf) :
    TailSafe sock buf.bytes.length := by
  have hends := (neverCut_iff_endings hk hfinal hfits).mp h
  -- a write that returns has formed no sum that overflows
  have hsums : ∀ results, (∀ r ∈ results, SendResult.Regular r) →
      left sock results < sock.sendBufferSize →
      left sock results + buf.bytes.length < 2 ^ 31 := by
    intro results hreg hroom
    obtain ⟨o, ho, -⟩ := hends results hreg
    refine Nat.not_le.mp fun hsum => ?_
    rw [svzSockWrite_overrun hk buf] at ho
    · cases ho
    · simp only [SumFits, not_or, not_and]
      refine ⟨fun _ hfail => ?_, Nat.not_le.mpr hroom, Nat.not_lt.mpr hsum⟩
      have hnext := nextSend_regular hreg
      rw [hfail] at hnext
      exact hnext
  refine ⟨fun hroom => ?_, fun hf => ?_, ?_⟩
  · have hleft : left sock [] = sock.fill := left_eq_fill (Or.inr rfl)
    have hsum := hsums [] (by simp) (by omega)
    omega
  · have hf' := hf
    simp only [TcpSock.flushable, Bool.and_eq_true, Bool.not_eq_true', bne_iff_ne] at hf'
    have hleft := left_byteThenAll hf'.1.2 hf'.1.1
    have hsum := hsums (byteThenAll sock) (byteThenAll_regular sock) (by omega)
    omega
  · refine or_iff_not_imp_left.mpr fun hcalm => or_iff_not_imp_left.mpr fun hpos => ?_
    simp only [Calm, not_or, Bool.not_eq_false, Bool.not_eq_true] at hcalm
    obtain ⟨hconn, hav, hsmall⟩ := hcalm
    refine Nat.not_lt.mp fun hlong => ?_
    obtain ⟨o, ho, hne, -⟩ := hends (byteThenAll sock) (byteThenAll_regular sock)
    exact hne ((svzSockWrite_ok hk ho).flushFailed_of_small hfinal hfits hconn hav hpos
      (Nat.not_lt.mp hsmall) hlong)

theorem neverCut_of_tailSafe (hk : sock.killed = false) (hfinal : sock.finalWrite = true)
    (hfits : sock.fill ≤ sock.sendBufferSize) {buf : Buf} (h : TailSafe sock buf.bytes.length) :
    NeverCut true sock buf := by
  refine (neverCut_iff_endings hk hfinal hfits).mpr fun results hreg => ?_
  obtain ⟨o, ho, hrounds⟩ := svzSockWrite_rounds hk buf (h.sumFits hreg)
  exact ⟨o, ho, h.ne_flushFailed hreg hrounds, fun _ => rfl⟩

theorem neverCut_false_iff (hk : sock.killed = false) (hfinal : sock.finalWrite = true)
    (hfits : sock.fill ≤ sock.sendBufferSize) {buf : Buf} :
    NeverCut false sock buf ↔ sock.fill + buf.bytes.length ≤ sock.sendBufferSize := by
  rw [neverCut_iff_endings hk hfinal hfits]
  constructor
  · intro hends
    obtain ⟨o, ho, hne, hfull⟩ := hends [] (by simp)
    refine Nat.not_lt.mp fun hlong => ?_
    have hdone := (svzSockWrite_ok hk ho).ne_done_of_block hfits hlong
    cases hend : o.ending with
    | done => exact hdone hend
    | flushFailed => exact hne hend
    | queueFull => exact nomatch hfull hend
  · intro hroom results hreg
    have hleft := left_le sock results
    have hsize := sock.size_lt
    have hsum : SumFits sock buf.bytes.length results := Or.inr (Or.inr (by omega))
    obtain ⟨o, ho, hrounds⟩ := svzSockWrite_rounds hk buf hsum
    have hdone := hrounds.done_of_room hreg (by omega)
    exact ⟨o, ho, by rw [hdone]; exact nofun, by rw [hdone]; exact nofun⟩

/-- **The final write.** With the final write flag set before the write,
`svz_tcp_write_socket` schedules the shutdown only after all bytes of the write are accepted,
for all ways in which `send` takes parts of them, exactly if the write is tail safe; and if
the socket also stays in use after a write that has found the queue full, exactly if the queue
has room for the whole write. -/
theorem finalWrite_uncut_iff (sock : TcpSock) (hfinal : sock.finalWrite = true)
    (hfits : sock.fill ≤ sock.sendBufferSize) (buf : Buf) :
    (NeverCut true sock buf ↔ sock.killed = true ∨ TailSafe sock buf.bytes.length) ∧
      (NeverCut false sock buf ↔
        sock.killed = true ∨ sock.fill + buf.bytes.length ≤ sock.sendBufferSize) := by
  cases hk : sock.killed with
  | true =>
    have hvac : ∀ told, NeverCut told sock buf := by
      intro told halive
      rw [hk] at halive
      cases halive
    exact ⟨iff_of_true (hvac true) (Or.inl rfl), iff_of_true (hvac false) (Or.inl rfl)⟩
  | false =>
    simp only [Bool.false_eq_true, false_or]
    exact ⟨⟨tailSafe_of_neverCut hk hfinal hfits, neverCut_of_tailSafe hk hfinal hfits⟩,
      neverCut_false_iff hk hfinal hfits⟩

/-- A connected socket with an empty queue for four bytes, before its final write. -/
def finalSock : TcpSock :=
  { newSock 4 (by decide) with connected := true, finalWrite := true }

theorem finalWrite_uncut_three :
    NeverCut true finalSock ⟨[1, 2, 3], by decide⟩ ∧
      NeverCut false finalSock ⟨[1, 2, 3], by decide⟩ := by
  obtain ⟨htold, hever⟩ := finalWrite_uncut_iff finalSock rfl (by decide) ⟨[1, 2, 3], by decide⟩
  refine ⟨htold.mpr (Or.inr ⟨fun _ => by decide, fun _ => by decide, ?_⟩), ?_⟩
  · exact Or.inr (Or.inr (by decide))
  · exact hever.mpr (Or.inr (by decide))

/-- The second flush sends the four bytes of the queue, and the last two bytes are lost. -/
theorem not_neverCut_six : ¬ NeverCut true finalSock ⟨[1, 2, 3, 4, 5, 6], by decide⟩ := by
  intro h
  obtain ⟨o, ho, hsent⟩ := h rfl [.accept 4] (by simp [SendResult.Regular])
  have hcut : svzSockWrite finalSock ⟨[1, 2, 3, 4, 5, 6], by decide⟩ [.accept 4] =
      .ok ⟨{ finalSock with sent := [1, 2, 3, 4] }, .flushFailed, [5, 6]⟩ := by
    decide +kernel
  rw [hcut] at ho
  cases ho
  exact absurd hsent (by decide)

end Serveez.Socket
