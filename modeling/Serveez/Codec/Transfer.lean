import Serveez.Codec.Setup

/-!
# Bytes through a codec

`svz_codec_sock_receive` and `svz_codec_sock_send` have one body: the buffer of the socket
becomes the input of the codec, the codec runs until it does not ask for a larger output
buffer, the output buffer is put into the socket for the saved callback, and then both are
put back. `transfer` is this body, on one direction of a socket.

The codec may be any stream transducer: how many bytes it consumes, what it appends and what
it answers is an input of each call, and so is what the saved callback does. The bytes at the
four ends are kept: what came into the buffer of the socket, what the codec consumed and
produced, and what the saved callback took.

* `coded_working`: the calls of `code` keep both streams in order.
* `transfer_ok`, `transfer_failed`: what a whole call leaves.
* `transfer_stream_iff`: which calls keep the streams of a direction.
-/

namespace Serveez.Codec

open Lib

/-- One direction of a socket with a codec. -/
structure Line where
  mem : Memory
  /-- The address that `svz_malloc` gives next. -/
  next : Nat
  /-- `recv_buffer` or `send_buffer` of the socket. -/
  buffer : Buffer
  data : CodecData
  /-- `SVZ_SOFLG_FLUSH`. -/
  flush : Bool
  /-- The bytes put into the buffer of the socket. -/
  come : List UInt8
  consumed : List UInt8
  produced : List UInt8
  /-- The bytes that the saved callback took. -/
  gone : List UInt8
  /-- What the saved callback has been shown: what it took before and what the buffer held
  in its last call. -/
  seen : List UInt8

/-! ## The buffers switched -/

/-- `svz_codec_set_recv_buffer` and `svz_codec_set_send_buffer`. -/
def setBuffer (l : Line) : Line := { l with buffer := l.data.outBuffer }

/-- `svz_codec_unset_recv_buffer` and `svz_codec_unset_send_buffer`. -/
def unsetBuffer (l : Line) : Line := { l with data := { l.data with outBuffer := l.buffer } }

/-- `svz_codec_save_recv_buffer` and `svz_codec_save_send_buffer`. -/
def saveBuffer (l : Line) : Line := { l with data := { l.data with inBuffer := l.buffer } }

/-- `svz_codec_restore_recv_buffer` and `svz_codec_restore_send_buffer`. -/
def restoreBuffer (l : Line) : Line := { l with buffer := l.data.inBuffer }

/-! ## The codec -/

/-- `svz_realloc` of the output buffer, which moves it to a new block. -/
def reallocOut (l : Line) (size : Nat) : Line :=
  { l with
    mem := l.data.outBuffer.realloc l.mem l.next size
    next := l.next + 1
    data := { l.data with outBuffer := l.data.outBuffer.moved l.next size } }

/-- What the codec does when it is called: it may take more room for its output, it consumes
bytes from the front of the input and appends bytes to the output. -/
structure Reply where
  enlarge : Nat
  used : Nat
  output : List UInt8

def consume (l : Line) (n : Nat) : Line :=
  let buffer := l.data.inBuffer
  { l with
    consumed := l.consumed ++ (l.mem buffer.addr).take n
    mem := buffer.moveFront l.mem n
    data := { l.data with inBuffer := buffer.shrink n } }

def produce (l : Line) (bytes : List UInt8) : Line :=
  let buffer := l.data.outBuffer
  { l with
    produced := l.produced ++ bytes
    mem := buffer.append l.mem bytes
    data := { l.data with outBuffer := buffer.grow bytes.length } }

/-- A call of `code`. -/
def code (l : Line) (reply : Reply) : Line :=
  let l := if reply.enlarge = 0 then l
    else reallocOut l (l.data.outBuffer.size + reply.enlarge)
  let l := consume l (min reply.used l.data.inBuffer.fill)
  produce l (reply.output.take (l.data.outBuffer.size - l.data.outBuffer.fill))

/-- The calls of `code` that are answered with `SVZ_CODEC_MORE_OUT`, each followed by a
larger output buffer. -/
def codeLoop (l : Line) : List Reply → Line
  | [] => l
  | reply :: replies =>
    let l := code l reply
    let l := { l with data := { l.data with flagFlush := true } }
    codeLoop (reallocOut l (l.data.outBuffer.size * 2)) replies

/-- The other answers of `code`. After the second, `finalize` is called and succeeds or
not. -/
inductive Ret
  | ok
  | finished (finalizeOk : Bool)
  | error
  | moreIn
  /-- Any value that the callers do not know. -/
  | invalid
deriving DecidableEq

/-- The calls of `code` in one call of `transfer`, and the last answer. -/
structure Coding where
  rounds : List Reply
  last : Reply
  ret : Ret

/-- The codec has run on the buffer of the socket. -/
def coded (l : Line) (coding : Coding) : Line :=
  let flag := if l.flush then .finish else .code
  let l := saveBuffer { l with data := { l.data with flag := flag, flagFlush := false } }
  code (codeLoop l coding.rounds) coding.last

/-- The codec is not ready any more when it has finished and is finalized. -/
def evaluated (l : Line) (ret : Ret) : Line :=
  if ret = .finished true then { l with data := { l.data with ready := false } } else l

/-! ## The saved callback -/

/-- What the saved callback does: it takes bytes from the front of the buffer, may enlarge
it, and returns. -/
structure Served where
  taken : Nat
  enlarge : Nat
  ret : Int

def take (l : Line) (n : Nat) : Line :=
  { l with
    seen := l.gone ++ l.buffer.contents l.mem
    gone := l.gone ++ (l.mem l.buffer.addr).take n
    mem := l.buffer.moveFront l.mem n
    buffer := l.buffer.shrink n }

/-- `svz_realloc` of the buffer in the socket. -/
def reallocBuffer (l : Line) (size : Nat) : Line :=
  { l with
    mem := l.buffer.realloc l.mem l.next size
    next := l.next + 1
    buffer := l.buffer.moved l.next size }

def serve (l : Line) (served : Served) : Line :=
  let l := take l (min served.taken l.buffer.fill)
  if served.enlarge = 0 then l else reallocBuffer l (l.buffer.size + served.enlarge)

/-! ## The two functions -/

/-- The output buffer is in the socket when the saved callback is called. -/
def shown (l : Line) (coding : Coding) : Line := setBuffer (evaluated (coded l coding) coding.ret)

def transfer (l : Line) (coding : Coding) (served : Served) : Line × Int :=
  if !l.data.ready then (l, 0)
  else if coding.ret = .error then (coded l coding, -1)
  else
    let l := unsetBuffer (serve (shown l coding) served)
    if served.ret ≠ 0 then (l, served.ret) else (restoreBuffer l, 0)

/-- What a call offers to the saved callback, if it calls it. -/
def offered (l : Line) (coding : Coding) : Option (List UInt8) :=
  if l.data.ready ∧ coding.ret ≠ .error then
    some ((shown l coding).buffer.contents (shown l coding).mem)
  else none

/-- `svz_codec_sock_receive`, with what `check_request` does. -/
def svzCodecSockReceive (l : Line) (coding : Coding) (checked : Served) : Line × Int :=
  transfer l coding checked

/-- What `write_socket` does: it hands bytes to the network, as many as offered or less, and
returns. -/
structure Written where
  taken : Nat
  ret : Int

/-- `svz_codec_sock_send`, with what `write_socket` does. -/
def svzCodecSockSend (l : Line) (coding : Coding) (written : Written) : Line × Int :=
  transfer l coding ⟨written.taken, 0, written.ret⟩

/-- `bytes` behind the filled part of the buffer of the socket, as many as fit. -/
def put (l : Line) (bytes : List UInt8) : Line :=
  let bytes := bytes.take (l.buffer.size - l.buffer.fill)
  { l with
    come := l.come ++ bytes
    mem := l.buffer.append l.mem bytes
    buffer := l.buffer.grow bytes.length }

/-! ## After the setup -/

/-- One direction of a socket after a setup, with nothing transferred yet. -/
def newLine (w : World) (buffer : Buffer) (codec : Option CodecData) : Line where
  mem := w.mem
  next := w.next
  buffer := buffer
  data := codec.getD (newCodecData 0)
  flush := false
  come := buffer.contents w.mem
  consumed := []
  produced := []
  gone := []
  seen := []

/-- A socket without codecs whose buffers are in memory. -/
structure Buffered extends Original where
  recv_fits : recvBuffer.Fits mem
  recv_lt : recvBuffer.addr < next
  send_fits : sendBuffer.Fits mem
  send_lt : sendBuffer.addr < next

/-- A socket with two buffers of four bytes. -/
def smallBuffers : Buffered where
  mem := fun addr => if addr = 1 ∨ addr = 2 then [0, 0, 0, 0] else []
  next := 3
  checkRequest := some (.other 0)
  writeSocket := some (.other 1)
  disconnectedSocket := some (.other 2)
  recvBuffer := ⟨1, 0, 4⟩
  sendBuffer := ⟨2, 0, 4⟩
  recv_fits := ⟨by decide, rfl⟩
  recv_lt := by decide
  send_fits := ⟨by decide, rfl⟩
  send_lt := by decide

/-! ## While the codec runs -/

/-- The input of the codec and its output carry the two streams, in blocks of their own. -/
structure Working (l : Line) : Prop where
  input : l.data.inBuffer.Carries l.mem l.consumed l.come
  output : l.data.outBuffer.Carries l.mem l.gone l.produced
  addr_ne : l.data.inBuffer.addr ≠ l.data.outBuffer.addr
  in_lt : l.data.inBuffer.addr < l.next
  out_lt : l.data.outBuffer.addr < l.next

/-- What the codec leaves alone. -/
structure Kept (l l' : Line) : Prop where
  in_addr : l'.data.inBuffer.addr = l.data.inBuffer.addr
  in_size : l'.data.inBuffer.size = l.data.inBuffer.size
  ready : l'.data.ready = l.data.ready
  gone : l'.gone = l.gone
  seen : l'.seen = l.seen
  produced : l.produced <+: l'.produced

theorem Kept.refl (l : Line) : Kept l l := ⟨rfl, rfl, rfl, rfl, rfl, List.prefix_refl _⟩

theorem Kept.trans {l l' l'' : Line} (h : Kept l l') (h' : Kept l' l'') : Kept l l'' where
  in_addr := h'.in_addr.trans h.in_addr
  in_size := h'.in_size.trans h.in_size
  ready := h'.ready.trans h.ready
  gone := h'.gone.trans h.gone
  seen := h'.seen.trans h.seen
  produced := h.produced.trans h'.produced

variable {l : Line}

theorem reallocOut_working (h : Working l) {size : Nat} (hsize : l.data.outBuffer.size ≤ size) :
    Working (reallocOut l size) where
  input := h.input.realloc_of_ne h.addr_ne (Nat.ne_of_lt h.in_lt)
  output := h.output.realloc hsize
  addr_ne := Nat.ne_of_lt h.in_lt
  in_lt := Nat.lt_succ_of_lt h.in_lt
  out_lt := Nat.lt_succ_self _

theorem reallocOut_kept (l : Line) (size : Nat) : Kept l (reallocOut l size) :=
  ⟨rfl, rfl, rfl, rfl, rfl, List.prefix_refl _⟩

theorem consume_working (h : Working l) {n : Nat} (hn : n ≤ l.data.inBuffer.fill) :
    Working (consume l n) where
  input := h.input.take hn
  output := h.output.store_of_ne _ _ h.addr_ne.symm
  addr_ne := h.addr_ne
  in_lt := h.in_lt
  out_lt := h.out_lt

theorem consume_kept (l : Line) (n : Nat) : Kept l (consume l n) :=
  ⟨rfl, rfl, rfl, rfl, rfl, List.prefix_refl _⟩

theorem produce_working (h : Working l) {bytes : List UInt8}
    (hroom : l.data.outBuffer.fill + bytes.length ≤ l.data.outBuffer.size) :
    Working (produce l bytes) where
  input := h.input.store_of_ne _ _ h.addr_ne
  output := h.output.give hroom
  addr_ne := h.addr_ne
  in_lt := h.in_lt
  out_lt := h.out_lt

theorem produce_kept (l : Line) (bytes : List UInt8) : Kept l (produce l bytes) :=
  ⟨rfl, rfl, rfl, rfl, rfl, List.prefix_append _ _⟩

theorem code_working (h : Working l) (reply : Reply) :
    Working (code l reply) ∧ Kept l (code l reply) := by
  -- the codec may have taken more room first
  have hroom : ∃ l', Working l' ∧ Kept l l' ∧
      (if reply.enlarge = 0 then l
        else reallocOut l (l.data.outBuffer.size + reply.enlarge)) = l' := by
    split
    · exact ⟨l, h, Kept.refl l, rfl⟩
    · exact ⟨_, reallocOut_working h (Nat.le_add_right _ _), reallocOut_kept l _, rfl⟩
  obtain ⟨l', h', hkept, heq⟩ := hroom
  have hused := consume_working h' (Nat.min_le_right reply.used l'.data.inBuffer.fill)
  unfold code
  rw [heq]
  dsimp only
  constructor
  · refine produce_working hused ?_
    have hfill := hused.output.fill_le
    rw [List.length_take]
    omega
  · exact hkept.trans ((consume_kept l' _).trans (produce_kept _ _))

theorem codeLoop_working (replies : List Reply) (h : Working l) :
    Working (codeLoop l replies) ∧ Kept l (codeLoop l replies) := by
  induction replies generalizing l with
  | nil => exact ⟨h, Kept.refl l⟩
  | cons reply replies ih =>
    obtain ⟨hcode, hkept⟩ := code_working h reply
    have hflag : Working { code l reply with
        data := { (code l reply).data with flagFlush := true } } :=
      ⟨hcode.input, hcode.output, hcode.addr_ne, hcode.in_lt, hcode.out_lt⟩
    obtain ⟨hloop, hkept'⟩ := ih (reallocOut_working hflag (Nat.le_mul_of_pos_right _ Nat.two_pos))
    exact ⟨hloop, hkept.trans ⟨hkept'.in_addr, hkept'.in_size, hkept'.ready, hkept'.gone,
      hkept'.seen, hkept'.produced⟩⟩

/-! ## Between calls -/

/-- The socket has its own buffer, of `size` bytes at `addr`, which carries the input of the
codec, and the output buffer carries the output. -/
structure Steady (addr size : Nat) (l : Line) : Prop where
  input : l.buffer.Carries l.mem l.consumed l.come
  output : l.data.outBuffer.Carries l.mem l.gone l.produced
  addr_eq : l.buffer.addr = addr
  size_eq : l.buffer.size = size
  addr_ne : l.buffer.addr ≠ l.data.outBuffer.addr
  in_lt : l.buffer.addr < l.next
  out_lt : l.data.outBuffer.addr < l.next

/-- The output that the saved callback has not taken. -/
def pending (l : Line) : List UInt8 := l.data.outBuffer.contents l.mem

variable {addr size : Nat}

theorem newLine_steady {w : World} {buffer : Buffer} {data : CodecData} {mem : Memory}
    {next : Nat} (hfits : buffer.Fits mem) (hlt : buffer.addr < next)
    (hmem : w.mem = Buffer.alloc mem next buffer.size) (hnext : w.next = next + 1)
    (hout : data.outBuffer = ⟨next, 0, buffer.size⟩) :
    Steady buffer.addr buffer.size (newLine w buffer (some data)) ∧
    pending (newLine w buffer (some data)) = [] := by
  have hne : buffer.addr ≠ next := Nat.ne_of_lt hlt
  have hnone : pending (newLine w buffer (some data)) = [] := by
    simp [pending, newLine, hout, Buffer.contents]
  have hbuffer : (newLine w buffer (some data)).mem buffer.addr = mem buffer.addr := by
    simp [newLine, hmem, Buffer.alloc, Function.update_of_ne hne]
  refine ⟨⟨⟨⟨hfits.fill_le, ?_⟩, rfl⟩, ⟨⟨?_, ?_⟩, ?_⟩, rfl, rfl, ?_, ?_, ?_⟩, hnone⟩
  · exact (congrArg List.length hbuffer).trans hfits.length_eq
  · simp [newLine, hout]
  · simp [newLine, hout, hmem, Buffer.alloc]
  · exact hnone
  · simpa [newLine, hout] using hne
  · simp only [newLine, hnext]
    omega
  · simp [newLine, hout, hnext]

theorem coded_working (h : Steady addr size l) (coding : Coding) :
    Working (coded l coding) ∧ Kept (saveBuffer l) (coded l coding) := by
  have hsaved : Working (saveBuffer { l with data := { l.data with
      flag := if l.flush then .finish else .code, flagFlush := false } }) :=
    ⟨h.input, h.output, h.addr_ne, h.in_lt, h.out_lt⟩
  obtain ⟨hloop, hkept⟩ := codeLoop_working coding.rounds hsaved
  obtain ⟨hcode, hkept'⟩ := code_working hloop coding.last
  have hall := hkept.trans hkept'
  exact ⟨hcode, hall.in_addr, hall.in_size, hall.ready, hall.gone, hall.seen, hall.produced⟩

/-- The output waiting after the codec has run is that from before and what it appended. -/
theorem coded_pending (h : Steady addr size l) (coding : Coding) :
    pending l <+: pending (coded l coding) := by
  obtain ⟨hwork, hkept⟩ := coded_working h coding
  have hbefore := h.output.stream
  have hafter := hwork.output.stream
  have hproduced : l.produced <+: (coded l coding).produced := hkept.produced
  have hgone : (coded l coding).gone = l.gone := hkept.gone
  rw [hgone] at hafter
  rw [← hbefore, ← hafter] at hproduced
  exact (List.prefix_append_right_inj _).mp hproduced

/-! ## The saved callback and the whole call -/

theorem shown_working (h : Steady addr size l) (coding : Coding) :
    Working (shown l coding) ∧ (shown l coding).buffer = (shown l coding).data.outBuffer ∧
    (shown l coding).data.inBuffer.addr = addr ∧ (shown l coding).data.inBuffer.size = size ∧
    pending (shown l coding) = pending (coded l coding) ∧
    (shown l coding).data.ready = (l.data.ready && decide (coding.ret ≠ .finished true)) := by
  obtain ⟨hwork, hkept⟩ := coded_working h coding
  have haddr : (coded l coding).data.inBuffer.addr = addr := hkept.in_addr.trans h.addr_eq
  have hsize : (coded l coding).data.inBuffer.size = size := hkept.in_size.trans h.size_eq
  have hready : (coded l coding).data.ready = l.data.ready := hkept.ready
  unfold shown evaluated
  by_cases hret : coding.ret = .finished true
  · rw [if_pos hret]
    exact ⟨⟨hwork.input, hwork.output, hwork.addr_ne, hwork.in_lt, hwork.out_lt⟩, rfl, haddr,
      hsize, rfl, by simp [setBuffer, hret]⟩
  · rw [if_neg hret]
    exact ⟨⟨hwork.input, hwork.output, hwork.addr_ne, hwork.in_lt, hwork.out_lt⟩, rfl, haddr,
      hsize, rfl, by simp [setBuffer, hret, hready]⟩

/-- The saved callback took bytes from the output buffer, which may have been moved. -/
theorem serve_working (h : Working l) (hbuf : l.buffer = l.data.outBuffer) (served : Served) :
    Working (unsetBuffer (serve l served)) ∧
    (unsetBuffer (serve l served)).data.inBuffer = l.data.inBuffer ∧
    (unsetBuffer (serve l served)).data.ready = l.data.ready ∧
    pending (unsetBuffer (serve l served)) = (pending l).drop served.taken ∧
    (unsetBuffer (serve l served)).produced = l.produced ∧
    (unsetBuffer (serve l served)).seen = l.produced := by
  have hlen : (pending l).length = l.data.outBuffer.fill := h.output.toFits.length_contents
  have hcarries : l.buffer.Carries l.mem l.gone l.produced := hbuf ▸ h.output
  have hne : l.data.inBuffer.addr ≠ l.buffer.addr := by
    rw [hbuf]
    exact h.addr_ne
  have hlt : l.buffer.addr < l.next := by
    rw [hbuf]
    exact h.out_lt
  -- the callback has taken its bytes
  have htake : Working (unsetBuffer (take l (min served.taken l.buffer.fill))) :=
    ⟨h.input.store_of_ne _ _ hne, hcarries.take (Nat.min_le_right _ _), hne, h.in_lt, hlt⟩
  have hpending : pending (unsetBuffer (take l (min served.taken l.buffer.fill))) =
      (pending l).drop served.taken := by
    have hdrop := Buffer.contents_moveFront hcarries.toFits (min served.taken l.buffer.fill)
    have hmin : (pending l).drop (min served.taken l.data.outBuffer.fill) =
        (pending l).drop served.taken := by
      rcases Nat.le_total served.taken l.data.outBuffer.fill with hle | hle
      · rw [Nat.min_eq_left hle]
      · rw [Nat.min_eq_right hle, List.drop_of_length_le (by omega),
          List.drop_of_length_le (by omega)]
    rw [← hmin, ← hbuf]
    exact hdrop.trans (by rw [pending, hbuf])
  have hseen : (take l (min served.taken l.buffer.fill)).seen = l.produced := by
    rw [← h.output.stream, ← hbuf]
    rfl
  unfold serve
  dsimp only
  split
  · exact ⟨htake, rfl, rfl, hpending, rfl, hseen⟩
  · have hgrow : l.buffer.size ≤ l.buffer.size + served.enlarge := Nat.le_add_right _ _
    have hmoved := reallocOut_working htake hgrow
    refine ⟨⟨hmoved.input, hmoved.output, hmoved.addr_ne, hmoved.in_lt, hmoved.out_lt⟩, rfl, rfl,
      ?_, rfl, hseen⟩
    rw [← hpending]
    exact Buffer.contents_realloc htake.output.toFits hgrow

/-- A call that returns zero leaves the socket with its own buffer. -/
theorem transfer_ok (h : Steady addr size l) (hready : l.data.ready = true) {coding : Coding}
    (hret : coding.ret ≠ .error) {served : Served} (hserved : served.ret = 0) :
    Steady addr size (transfer l coding served).1 ∧
    (transfer l coding served).2 = 0 ∧
    (transfer l coding served).1.data.ready = decide (coding.ret ≠ .finished true) ∧
    pending (transfer l coding served).1 = (pending (coded l coding)).drop served.taken ∧
    (transfer l coding served).1.seen = (transfer l coding served).1.produced := by
  obtain ⟨hwork, hbuf, haddr, hsize, hpend, hrdy⟩ := shown_working h coding
  obtain ⟨hserve, hin, hrdy', hpend', hprod, hseen⟩ := serve_working hwork hbuf served
  have hcall : transfer l coding served =
      (restoreBuffer (unsetBuffer (serve (shown l coding) served)), 0) := by
    simp [transfer, hready, hret, hserved]
  rw [hcall]
  have haddr' : (unsetBuffer (serve (shown l coding) served)).data.inBuffer.addr = addr := by
    rw [hin, haddr]
  have hsize' : (unsetBuffer (serve (shown l coding) served)).data.inBuffer.size = size := by
    rw [hin, hsize]
  refine ⟨⟨hserve.input, hserve.output, haddr', hsize', hserve.addr_ne, hserve.in_lt,
    hserve.out_lt⟩, rfl, ?_, ?_, ?_⟩
  · refine hrdy'.trans ?_
    rw [hrdy, hready, Bool.true_and]
  · exact hpend'.trans (by rw [hpend])
  · exact hseen.trans hprod.symm

/-- A call in which the saved callback fails leaves the output buffer in the socket. -/
theorem transfer_failed (h : Steady addr size l) (hready : l.data.ready = true)
    {coding : Coding} (hret : coding.ret ≠ .error) {served : Served} (hserved : served.ret ≠ 0) :
    (transfer l coding served).1.buffer.addr ≠ addr := by
  obtain ⟨hwork, hbuf, haddr, -, -, -⟩ := shown_working h coding
  obtain ⟨hserve, hin, -, -, -, -⟩ := serve_working hwork hbuf served
  have hcall : transfer l coding served =
      (unsetBuffer (serve (shown l coding) served), served.ret) := by
    simp [transfer, hready, hret, hserved]
  have hne := hserve.addr_ne
  rw [hin, haddr] at hne
  rw [hcall]
  exact hne.symm

/-! ## The streams -/

/-- The streams of a direction whose own buffer has `size` bytes at `addr`. -/
structure SendStream (addr size : Nat) (l : Line) : Prop where
  output : l.gone ++ pending l = l.produced
  input : l.consumed ++ l.buffer.contents l.mem = l.come
  own_addr : l.buffer.addr = addr
  own_size : l.buffer.size = size
  apart : l.data.outBuffer.addr ≠ addr
  still_offered : pending l ≠ [] → ∀ coding, coding.ret ≠ .error →
    ∃ bytes, offered l coding = some bytes ∧ pending l <+: bytes

theorem offered_ready (h : Steady addr size l) (hready : l.data.ready = true) {coding : Coding}
    (hret : coding.ret ≠ .error) : offered l coding = some (pending (coded l coding)) := by
  obtain ⟨-, hbuf, -, -, hpend, -⟩ := shown_working h coding
  rw [offered, if_pos ⟨hready, hret⟩, hbuf, ← hpend]
  rfl

theorem sendStream_of_steady (h : Steady addr size l)
    (hpend : pending l ≠ [] → l.data.ready = true) : SendStream addr size l where
  output := h.output.stream
  input := h.input.stream
  own_addr := h.addr_eq
  own_size := h.size_eq
  apart := h.addr_eq ▸ h.addr_ne.symm
  still_offered := fun hne coding hret =>
    ⟨_, offered_ready h (hpend hne) hret, coded_pending h coding⟩

theorem ready_of_sendStream (h : SendStream addr size l) (hne : pending l ≠ []) :
    l.data.ready = true := by
  obtain ⟨bytes, hoff, -⟩ := h.still_offered hne ⟨[], ⟨0, 0, []⟩, .ok⟩ (by decide)
  by_contra hready
  simp [offered, hready] at hoff

/-- A call keeps the streams exactly if the saved callback does not fail and, when the codec
finishes, takes all that it is offered. -/
theorem transfer_stream_iff (h : Steady addr size l) (hready : l.data.ready = true)
    {coding : Coding} (hret : coding.ret ≠ .error) {served : Served} :
    SendStream addr size (transfer l coding served).1 ↔
      served.ret = 0 ∧ (coding.ret = .finished true →
        ∀ bytes, offered l coding = some bytes → bytes.length ≤ served.taken) := by
  by_cases hserved : served.ret = 0
  · obtain ⟨hsteady, -, hrdy, hpend, -⟩ := transfer_ok h hready hret hserved
    rw [and_iff_right hserved, offered_ready h hready hret]
    constructor
    · intro hnext hfin bytes hbytes
      -- output that is left would not be offered any more
      have hdone : pending (transfer l coding served).1 = [] := by
        by_contra hne
        have hstill := ready_of_sendStream hnext hne
        simp [hrdy, hfin] at hstill
      rw [hpend, List.drop_eq_nil_iff] at hdone
      rw [← Option.some.inj hbytes]
      exact hdone
    · intro hall
      refine sendStream_of_steady hsteady fun hne => ?_
      rw [hrdy, decide_eq_true_iff]
      exact fun hfin => hne (hpend.trans (List.drop_of_length_le (hall hfin _ rfl)))
  · exact iff_of_false (fun hnext => transfer_failed h hready hret hserved hnext.own_addr)
      fun hcond => hserved hcond.1

theorem transfer_unready (hready : l.data.ready ≠ true) (coding : Coding) (served : Served) :
    transfer l coding served = (l, 0) := by
  simp [transfer, hready]

theorem put_steady (h : Steady addr size l) (bytes : List UInt8) :
    Steady addr size (put l bytes) := by
  have hfill := h.input.fill_le
  refine ⟨h.input.give ?_, h.output.store_of_ne _ _ h.addr_ne.symm, h.addr_eq, h.size_eq,
    h.addr_ne, h.in_lt, h.out_lt⟩
  rw [List.length_take]
  omega

theorem put_stream (h : Steady addr size l) (hstream : SendStream addr size l)
    (bytes : List UInt8) : SendStream addr size (put l bytes) := by
  have hsame : pending (put l bytes) = pending l :=
    Buffer.contents_store_of_ne l.mem _ _ h.addr_ne.symm
  refine sendStream_of_steady (put_steady h bytes) fun hne => ?_
  rw [hsame] at hne
  have hready := ready_of_sendStream hstream hne
  exact hready

theorem flush_steady (h : Steady addr size l) (flush : Bool) :
    Steady addr size { l with flush := flush } :=
  ⟨h.input, h.output, h.addr_eq, h.size_eq, h.addr_ne, h.in_lt, h.out_lt⟩

theorem flush_stream (h : Steady addr size l) (hstream : SendStream addr size l) (flush : Bool) :
    SendStream addr size { l with flush := flush } :=
  have hready : pending l ≠ [] → l.data.ready = true := ready_of_sendStream hstream
  sendStream_of_steady (flush_steady h flush) hready

end Serveez.Codec
