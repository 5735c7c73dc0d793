import Serveez.Udp.Send

/-!
# The send queue of a UDP socket

* `svzUdpWriteSocket_queued`: a flush takes the packet at the front off the queue.
* `writeLoop_queued`: a frame is copied as a whole, also when the loop flushes in between,
  or the write fails.
* `run_queue`: in every run the datagrams sent and the frames queued are the chunks written.
-/

namespace Serveez.Udp

open Lib

/-! ## Frames -/

theorem length_frame (packet : Datagram) :
    (frame packet).length = headerSize + packet.payload.length := by
  simp only [frame, headerSize, List.length_append, length_toBytes]

/-- The header is read back as it was written. -/
theorem frontFrame_frame {packet : Datagram} (hsmall : packet.payload.length ≤ svzUdpMsgSize)
    (rest : List UInt8) :
    frontFrame (frame packet ++ rest) = ((frame packet).length, packet.dest) := by
  have hlen : headerSize + packet.payload.length < 256 ^ 4 := by
    simp only [headerSize, svzUdpMsgSize] at hsmall ⊢
    omega
  have haddr : packet.dest.addr.toNat < 256 ^ 4 := packet.dest.addr.toNat_lt
  have hport : packet.dest.port.toNat < 256 ^ 2 := packet.dest.port.toNat_lt
  have hdrop (k m n : Nat) (l : List UInt8) : (toBytes k n ++ l).drop (k + m) = l.drop m := by
    rw [← List.drop_drop, List.drop_left' (length_toBytes k n)]
  have htake (k n : Nat) (l : List UInt8) : (toBytes k n ++ l).take k = toBytes k n :=
    List.take_left' (length_toBytes k n)
  rw [length_frame]
  unfold frontFrame frame
  simp only [List.append_assoc, htake]
  rw [hdrop 4 0, hdrop 4 4, List.drop_zero, htake, hdrop 4 0, List.drop_zero, htake,
    ofBytes_toBytes hlen, ofBytes_toBytes haddr, ofBytes_toBytes hport, UInt32.ofNat_toNat,
    UInt16.ofNat_toNat]

/-- The bytes of frames one behind the other. -/
def frames (packets : List Datagram) : List UInt8 := packets.flatMap frame

@[simp] theorem frames_cons (packet : Datagram) (packets : List Datagram) :
    frames (packet :: packets) = frame packet ++ frames packets := List.flatMap_cons

@[simp] theorem frames_append (packets more : List Datagram) :
    frames (packets ++ more) = frames packets ++ frames more := List.flatMap_append

/-! ## The queue -/

/-- Where the network takes a packet: a connected socket sends to its peer. -/
def route (sock : UdpSock) (packet : Datagram) : Datagram :=
  if sock.connected then { packet with dest := sock.peer } else packet

/-- The packets `done` are sent, the frames of `waiting` are in the send buffer, and behind
them stands `tail`. -/
structure Queued (sock : UdpSock) (done waiting : List Datagram) (tail : List UInt8) : Prop where
  sent : sock.sent = done.map (route sock)
  buffer : sock.sendBuffer = frames waiting ++ tail
  small : ∀ packet ∈ waiting, packet.payload.length ≤ svzUdpMsgSize

/-- What a write leaves alone. -/
structure Same (sock sock' : UdpSock) : Prop where
  killed : sock'.killed = sock.killed
  connected : sock'.connected = sock.connected
  peer : sock'.peer = sock.peer
  remote : sock'.remote = sock.remote
  size : sock'.sendBufferSize = sock.sendBufferSize

theorem Same.refl (sock : UdpSock) : Same sock sock := ⟨rfl, rfl, rfl, rfl, rfl⟩

theorem Same.trans {a b c : UdpSock} (h : Same a b) (h' : Same b c) : Same a c :=
  ⟨h'.killed.trans h.killed, h'.connected.trans h.connected, h'.peer.trans h.peer,
    h'.remote.trans h.remote, h'.size.trans h.size⟩

variable {sock : UdpSock} {done waiting : List Datagram} {tail : List UInt8}

theorem svzUdpWriteSocket_front {packet : Datagram} {rest : List UInt8}
    (hsmall : packet.payload.length ≤ svzUdpMsgSize)
    (hbuffer : sock.sendBuffer = frame packet ++ rest) (result : SendResult) :
    svzUdpWriteSocket sock result = match result with
      | .success => .ok ({ sock with
          sent := sock.sent ++ [route sock packet], sendBuffer := rest }, 0)
      | .wouldBlock => .ok (sock, 0)
      | .fail => .ok (sock, -1) := by
  have hfront := frontFrame_frame hsmall rest
  have hlen := length_frame packet
  have hfill : sock.fill = (frame packet).length + rest.length := by
    rw [UdpSock.fill, hbuffer, List.length_append]
  have hpos : 0 < headerSize := by decide
  have hnone : ¬ sock.fill = 0 := by omega
  have hfits : ¬ (sock.fill < headerSize ∨ (frame packet).length < headerSize ∨
      sock.fill < (frame packet).length) := by omega
  have hpayload : (frame packet).drop headerSize = packet.payload := by
    have hhead : (toBytes 4 (headerSize + packet.payload.length) ++
        toBytes 4 packet.dest.addr.toNat ++ toBytes 2 packet.dest.port.toNat).length =
        headerSize := by
      simp [headerSize]
    exact List.drop_left' hhead
  unfold svzUdpWriteSocket
  rw [if_neg hnone, hbuffer, hfront]
  simp only [if_neg hfits]
  cases result with
  | success =>
    simp only [List.take_left' rfl, List.drop_left' rfl, hpayload, route]
    split <;> rfl
  | wouldBlock => rfl
  | fail => rfl

/-- A write to the network takes the packet at the front or leaves the queue. -/
theorem svzUdpWriteSocket_queued (h : Queued sock done waiting tail)
    (hfront : waiting = [] → tail = []) (result : SendResult) :
    ∃ sock' ret, svzUdpWriteSocket sock result = .ok (sock', ret) ∧ (ret = 0 ∨ ret = -1) ∧
      Same sock sock' ∧ sock'.fill ≤ sock.fill ∧
      ∃ done' waiting', done' ++ waiting' = done ++ waiting ∧
        Queued sock' done' waiting' tail := by
  cases waiting with
  | nil =>
    have hempty : sock.fill = 0 := by
      rw [UdpSock.fill, h.buffer, hfront rfl]
      rfl
    exact ⟨sock, 0, by rw [svzUdpWriteSocket, if_pos hempty], .inl rfl, Same.refl sock,
      Nat.le_refl _, done, [], rfl, h⟩
  | cons packet waiting =>
    have hbuffer : sock.sendBuffer = frame packet ++ (frames waiting ++ tail) := by
      rw [h.buffer, frames_cons, List.append_assoc]
    have hcall := svzUdpWriteSocket_front (h.small packet List.mem_cons_self) hbuffer result
    cases result with
    | success =>
      refine ⟨_, 0, hcall, .inl rfl, ⟨rfl, rfl, rfl, rfl, rfl⟩, ?_, done ++ [packet], waiting, ?_,
        ?_, rfl, fun p hp => h.small p (List.mem_cons_of_mem _ hp)⟩
      · simp only [UdpSock.fill, hbuffer, List.length_append]
        omega
      · rw [List.append_assoc, List.singleton_append]
      · rw [List.map_append, h.sent]
        rfl
    | wouldBlock =>
      exact ⟨sock, 0, hcall, .inl rfl, Same.refl sock, Nat.le_refl _, done, packet :: waiting,
        rfl, h⟩
    | fail =>
      exact ⟨sock, -1, hcall, .inr rfl, Same.refl sock, Nat.le_refl _, done, packet :: waiting,
        rfl, h⟩

theorem flush_queued (h : Queued sock done waiting tail) (hfront : waiting = [] → tail = [])
    (results : List SendResult) :
    ∃ sock' ret results', flush sock results = .ok ((sock', ret), results') ∧
      (ret = 0 ∨ ret = -1) ∧ Same sock sock' ∧ sock'.fill ≤ sock.fill ∧
      ∃ done' waiting', done' ++ waiting' = done ++ waiting ∧
        Queued sock' done' waiting' tail := by
  unfold flush
  split
  · obtain ⟨sock', ret, hcall, hrest⟩ :=
      svzUdpWriteSocket_queued h hfront (results.headD .wouldBlock)
    exact ⟨sock', ret, results.tail, by rw [hcall]; rfl, hrest⟩
  · exact ⟨sock, 0, results, rfl, .inl rfl, Same.refl sock, Nat.le_refl _, done, waiting, rfl, h⟩

/-! ## Writing a frame -/

theorem copyBehind_queued (h : Queued sock done waiting tail) {bytes : List UInt8}
    (hroom : sock.fill + bytes.length ≤ sock.sendBufferSize) :
    ∃ sock', copyBehind sock bytes = .ok sock' ∧ Same sock sock' ∧
      sock'.fill = sock.fill + bytes.length ∧ Queued sock' done waiting (tail ++ bytes) := by
  refine ⟨_, if_pos hroom, ⟨rfl, rfl, rfl, rfl, rfl⟩, List.length_append, h.sent, ?_, h.small⟩
  rw [h.buffer, List.append_assoc]

/-- A write that fails, or one after which the whole frame is queued. -/
def Accepted (sock : UdpSock) (done waiting : List Datagram) (tail : List UInt8)
    (o : Outcome) : Prop :=
  Same sock o.sock ∧ (o.ret = -1 ∨ o.ret = 0 ∧ o.sock.fill ≤ o.sock.sendBufferSize ∧
    ∃ done' waiting', done' ++ waiting' = done ++ waiting ∧ Queued o.sock done' waiting' tail)

theorem Accepted.of_same {sock' : UdpSock} {done' waiting' : List Datagram} {o : Outcome}
    (hsame : Same sock sock') (hall : done' ++ waiting' = done ++ waiting)
    (h : Accepted sock' done' waiting' tail o) : Accepted sock done waiting tail o := by
  obtain ⟨hsame', hret⟩ := h
  refine ⟨hsame.trans hsame', hret.imp_right ?_⟩
  rintro ⟨hzero, hfill, done'', waiting'', hall', hq⟩
  exact ⟨hzero, hfill, done'', waiting'', hall'.trans hall, hq⟩

theorem writeLoop_round {fuel : Nat} {byte : UInt8} {rest : List UInt8}
    {results results' : List SendResult} {sock' : UdpSock} {ret : Int}
    (hflush : flush sock results = .ok ((sock', ret), results')) :
    writeLoop (fuel + 1) sock (byte :: rest) results =
      if ret ≠ 0 then .ok ⟨sock', ret, results'⟩
      else if sock'.sendBufferSize ≤ sock'.fill then .ok ⟨sock', -1, results'⟩
      else if wrapInt (sock'.fill + (byte :: rest).length) < sock'.sendBufferSize then
        (copyBehind sock' (byte :: rest)).bind fun sock => writeLoop fuel sock [] results'
      else
        (copyBehind sock' ((byte :: rest).take (sock'.sendBufferSize - sock'.fill))).bind
          fun sock => writeLoop fuel sock
            ((byte :: rest).drop (sock'.sendBufferSize - sock'.fill)) results' := by
  rw [writeLoop, hflush]
  rfl

/-- A part of a frame does not fill the buffer, so that a full buffer starts with a whole
frame. -/
theorem Queued.front {bytes : List UInt8} {c : Nat} (h : Queued sock done waiting (bytes.take c))
    (hc : c < bytes.length) (hsize : bytes.length ≤ sock.sendBufferSize)
    (hfull : c = 0 ∨ sock.fill = sock.sendBufferSize) : waiting = [] → bytes.take c = [] := by
  rintro rfl
  have hlen : sock.fill = (bytes.take c).length := by
    rw [UdpSock.fill, h.buffer]
    rfl
  rw [List.length_take] at hlen
  rcases hfull with rfl | hfull
  · rfl
  · omega

/-- The loop ends when no byte of the frame is left. -/
theorem writeLoop_done {bytes : List UInt8} (h : Queued sock done waiting bytes)
    (hfill : sock.fill ≤ sock.sendBufferSize) (fuel : Nat) (results : List SendResult) :
    ∃ o, writeLoop fuel sock [] results = .ok o ∧ Accepted sock done waiting bytes o := by
  refine ⟨⟨sock, 0, results⟩, ?_, Same.refl sock, .inr ⟨rfl, hfill, done, waiting, rfl, h⟩⟩
  cases fuel <;> rfl

/-- The loop of `svz_sock_write` on the bytes of a frame from `c` on. A part of the frame
stands in the buffer only when that is full. -/
theorem writeLoop_queued {bytes : List UInt8} (fuel c : Nat)
    (h : Queued sock done waiting (bytes.take c)) (hc : c ≤ bytes.length)
    (hsize : bytes.length ≤ sock.sendBufferSize)
    (hint : sock.sendBufferSize + bytes.length ≤ 2 ^ 31)
    (hfill : sock.fill ≤ sock.sendBufferSize) (hfull : c = 0 ∨ sock.fill = sock.sendBufferSize)
    (hfuel : bytes.length - c ≤ fuel) (results : List SendResult) :
    ∃ o, writeLoop fuel sock (bytes.drop c) results = .ok o ∧
      Accepted sock done waiting bytes o := by
  induction fuel generalizing sock done waiting c results with
  | zero =>
    obtain rfl : c = bytes.length := by omega
    rw [List.take_length] at h
    rw [List.drop_length]
    exact writeLoop_done h hfill 0 results
  | succ fuel ih =>
    cases hrest : bytes.drop c with
    | nil =>
      have hend := List.drop_eq_nil_iff.mp hrest
      obtain rfl : c = bytes.length := by omega
      rw [List.take_length] at h
      exact writeLoop_done h hfill (fuel + 1) results
    | cons byte rest =>
      have hleft : (byte :: rest).length = bytes.length - c := by
        rw [← hrest, List.length_drop]
      have hpos : 0 < (byte :: rest).length := Nat.zero_lt_succ _
      obtain ⟨sock₁, ret, results', hflush, hret, hsame, hfill₁, done₁, waiting₁, hall, h₁⟩ :=
        flush_queued h (h.front (by omega) hsize hfull) results
      have hsize₁ := hsame.size
      rw [writeLoop_round hflush]
      rcases hret with rfl | rfl
      · rw [if_neg (by decide)]
        by_cases hno : sock₁.sendBufferSize ≤ sock₁.fill
        · rw [if_pos hno]
          exact ⟨_, rfl, hsame, .inl rfl⟩
        · rw [if_neg hno, wrapInt_eq (by omega)]
          by_cases hfits : sock₁.fill + (byte :: rest).length < sock₁.sendBufferSize
          · rw [if_pos (by exact_mod_cast hfits)]
            obtain ⟨sock₂, hcopy, hsame₂, hfill₂, h₂⟩ :=
              copyBehind_queued h₁ (Nat.le_of_lt hfits)
            rw [← hrest, List.take_append_drop] at h₂
            have hsize₂ := hsame₂.size
            obtain ⟨o, hloop, ho⟩ := writeLoop_done h₂ (by omega) fuel results'
            refine ⟨o, ?_, ho.of_same (hsame.trans hsame₂) hall⟩
            rw [hcopy]
            exact hloop
          · rw [if_neg (by exact_mod_cast hfits)]
            -- the buffer is filled and the loop goes on with what is left of the frame
            have hcut : ((byte :: rest).take (sock₁.sendBufferSize - sock₁.fill)).length =
                sock₁.sendBufferSize - sock₁.fill := List.length_take_of_le (by omega)
            have hroom : sock₁.fill +
                ((byte :: rest).take (sock₁.sendBufferSize - sock₁.fill)).length ≤
                  sock₁.sendBufferSize := by omega
            obtain ⟨sock₂, hcopy, hsame₂, hfill₂, h₂⟩ := copyBehind_queued h₁ hroom
            have hsize₂ := hsame₂.size
            rw [← hrest, ← List.take_add] at h₂
            rw [hcut] at hfill₂
            obtain ⟨o, hloop, ho⟩ := ih (c + (sock₁.sendBufferSize - sock₁.fill)) h₂ (by omega)
              (by omega) (by omega) (by omega) (.inr (by omega)) (by omega) results'
            rw [← List.drop_drop, hrest] at hloop
            refine ⟨o, ?_, ho.of_same (hsame.trans hsame₂) hall⟩
            rw [hcopy]
            exact hloop
      · rw [if_pos (by decide)]
        exact ⟨_, rfl, hsame, .inl rfl⟩

/-! ## Writing a buffer -/

/-- The limits within which a frame of any packet can be queued: the buffer has room for
one, and no sum of a fill and a length is too large for an `int`. -/
structure Roomy (sock : UdpSock) : Prop where
  room : svzUdpMsgSize + headerSize ≤ sock.sendBufferSize
  int : sock.sendBufferSize + (svzUdpMsgSize + headerSize) ≤ 2 ^ 31

theorem svzSockWrite_frame (h : Queued sock done waiting []) (hlive : sock.killed = false)
    (hroomy : Roomy sock) (hfill : sock.fill ≤ sock.sendBufferSize) {packet : Datagram}
    (hsmall : packet.payload.length ≤ svzUdpMsgSize) (results : List SendResult) :
    ∃ o, svzSockWrite sock (frame packet) results = .ok o ∧ Same sock o.sock ∧
      (o.ret = -1 ∨ o.ret = 0 ∧ o.sock.fill ≤ o.sock.sendBufferSize ∧
        ∃ done' waiting', done' ++ waiting' = done ++ (waiting ++ [packet]) ∧
          Queued o.sock done' waiting' []) := by
  have hlen := length_frame packet
  have hroom := hroomy.room
  have hint := hroomy.int
  have hstart : Queued sock done waiting ((frame packet).take 0) := h
  obtain ⟨o, hloop, hsame, hret⟩ := writeLoop_queued (frame packet).length 0 hstart
    (Nat.zero_le _) (by omega) (by omega) hfill (.inl rfl) (by omega) results
  refine ⟨o, ?_, hsame, hret.imp_right ?_⟩
  · rw [svzSockWrite, hlive]
    exact hloop
  · rintro ⟨hzero, hfill', done', waiting', hall, hq⟩
    refine ⟨hzero, hfill', done', waiting' ++ [packet], ?_, hq.sent, ?_, ?_⟩
    · rw [← List.append_assoc, hall, List.append_assoc]
    · rw [hq.buffer, frames_append, List.append_nil]
      exact congrArg _ (List.append_nil _).symm
    · intro p hp
      rcases List.mem_append.mp hp with hp | hp
      · exact hq.small p hp
      · rw [List.mem_singleton.mp hp]
        exact hsmall

theorem udpWriteLoop_queued (fuel : Nat) (buf : List UInt8) (hfuel : buf.length ≤ fuel)
    (h : Queued sock done waiting []) (hlive : sock.killed = false) (hroomy : Roomy sock)
    (hfill : sock.fill ≤ sock.sendBufferSize) (results : List SendResult) :
    ∃ o, udpWriteLoop fuel sock buf results = .ok o ∧
      (o.sock.killed = true ∨ Same sock o.sock ∧ o.sock.fill ≤ o.sock.sendBufferSize ∧
        ∃ done' waiting', done' ++ waiting' =
            done ++ (waiting ++ (chunks fuel buf).map (Datagram.mk sock.remote)) ∧
          Queued o.sock done' waiting' []) := by
  induction fuel generalizing sock done waiting buf results with
  | zero =>
    obtain rfl : buf = [] := List.eq_nil_of_length_eq_zero (by omega)
    refine ⟨_, by rw [udpWriteLoop], .inr ⟨Same.refl sock, hfill, done, waiting, ?_, h⟩⟩
    simp [chunks]
  | succ fuel ih =>
    cases buf with
    | nil =>
      exact ⟨_, by rw [udpWriteLoop], .inr ⟨Same.refl sock, hfill, done, waiting,
        by simp [chunks], h⟩⟩
    | cons byte bytes =>
      have hsmall : (Datagram.mk sock.remote ((byte :: bytes).take svzUdpMsgSize)).payload.length ≤
          svzUdpMsgSize := List.length_take_le _ _
      obtain ⟨o, hwrite, hsame, hret⟩ := svzSockWrite_frame h hlive hroomy hfill hsmall results
      have hround : udpWriteLoop (fuel + 1) sock (byte :: bytes) results =
          if o.ret = -1 then .ok { o with sock := { o.sock with killed := true } }
          else udpWriteLoop fuel o.sock ((byte :: bytes).drop svzUdpMsgSize) o.results := by
        rw [udpWriteLoop, hwrite]
        rfl
      rw [hround]
      rcases hret with hfail | ⟨hzero, hfill', done', waiting', hall, hq⟩
      · rw [if_pos hfail]
        exact ⟨_, rfl, .inl rfl⟩
      · rw [if_neg (by omega)]
        have hdrop : ((byte :: bytes).drop svzUdpMsgSize).length ≤ fuel := by
          have hmsg : 0 < svzUdpMsgSize := by decide
          rw [List.length_drop]
          omega
        have hroomy' : Roomy o.sock := ⟨hsame.size ▸ hroomy.room, hsame.size ▸ hroomy.int⟩
        obtain ⟨o', hloop, ho'⟩ := ih _ hdrop hq (hsame.killed.trans hlive) hroomy' hfill'
          o.results
        refine ⟨o', hloop, ho'.imp_right ?_⟩
        rintro ⟨hsame', hfill'', done'', waiting'', hall', hq'⟩
        refine ⟨hsame.trans hsame', hfill'', done'', waiting'', ?_, hq'⟩
        rw [hall', ← List.append_assoc, hall, hsame.remote]
        simp [chunks]

/-! ## Runs -/

/-- The datagrams sent and the frames in the send buffer are the packets written, in their
order. -/
structure InOrder (t : Traffic) (done waiting : List Datagram) : Prop extends
    Queued t.sock done waiting [] where
  written : t.written = done ++ waiting

/-- What every step keeps as long as the socket is not killed. -/
def Kept (size : Nat) (peer : Option Dest) (t : Traffic) : Prop :=
  t.sock.killed = true ∨
    t.sock.sendBufferSize = size ∧ t.sock.connected = peer.isSome ∧
      (∀ dest, peer = some dest → t.sock.peer = dest) ∧
      t.sock.fill ≤ size ∧ ∃ done waiting, InOrder t done waiting

variable {size : Nat} {peer : Option Dest} {t : Traffic}

theorem apply_kept (hroom : svzUdpMsgSize + headerSize ≤ size)
    (hint : size + (svzUdpMsgSize + headerSize) ≤ 2 ^ 31) (hlive : t.sock.killed = false)
    (h : Kept size peer t) (op : Op) : ∃ t', op.apply t = .ok t' ∧ Kept size peer t' := by
  obtain hdead | ⟨hsize, hconn, hpeer, hfill, done, waiting, hq⟩ := h
  · exact absurd hdead (by simp [hlive])
  have hroomy : Roomy t.sock := ⟨hsize ▸ hroom, hsize ▸ hint⟩
  cases op with
  | setRemote remote =>
    exact ⟨_, rfl, .inr ⟨hsize, hconn, hpeer, hfill, done, waiting,
      ⟨⟨hq.sent, hq.buffer, hq.small⟩, hq.written⟩⟩⟩
  | write buf results =>
    obtain ⟨o, hwrite, ho⟩ := udpWriteLoop_queued buf.length buf (Nat.le_refl _) hq.toQueued hlive
      hroomy (hsize ▸ hfill) results
    have hcall : svzUdpWrite t.sock buf results = .ok o := by
      rw [svzUdpWrite, hlive]
      exact hwrite
    refine ⟨_, by rw [Op.apply, hcall]; rfl, ?_⟩
    refine Or.imp_right ?_ ho
    rintro ⟨hsame, hfill', done', waiting', hall, hq'⟩
    refine ⟨hsame.size.trans hsize, hsame.connected.trans hconn,
      fun dest hdest => hsame.peer.trans (hpeer dest hdest), ?_, done', waiting', hq', ?_⟩
    · have hsize' := hsame.size
      dsimp only
      omega
    · rw [hall, hq.written, List.append_assoc]
  | writeSocket result =>
    obtain ⟨sock', ret, hcall, hret, hsame, hfill', done', waiting', hall, hq'⟩ :=
      svzUdpWriteSocket_queued hq.toQueued (fun _ => rfl) result
    refine ⟨_, by rw [Op.apply, hcall]; rfl, ?_⟩
    rcases hret with rfl | rfl
    · refine .inr ⟨hsame.size.trans hsize, hsame.connected.trans hconn,
        fun dest hdest => hsame.peer.trans (hpeer dest hdest), ?_, done', waiting', hq', ?_⟩
      · exact Nat.le_trans hfill' hfill
      · exact hq.written.trans hall.symm
    · exact .inl rfl

theorem run_kept (hroom : svzUdpMsgSize + headerSize ≤ size)
    (hint : size + (svzUdpMsgSize + headerSize) ≤ 2 ^ 31) (peer : Option Dest) (remote : Dest)
    (ops : List Op) :
    ∃ t, run (newTraffic size peer remote) ops = .ok t ∧ Kept size peer t := by
  refine foldl_invariant step (fun state => ∃ t, state = .ok t ∧ Kept size peer t) ?_ ops _ ?_
  · rintro _ op ⟨t, rfl, h⟩
    by_cases hdead : t.sock.killed = true
    · exact ⟨t, if_pos hdead, h⟩
    · obtain ⟨t', hop, h'⟩ := apply_kept hroom hint (Bool.eq_false_iff.mpr hdead) h op
      exact ⟨t', (if_neg hdead).trans hop, h'⟩
  · refine ⟨_, rfl, .inr ⟨rfl, rfl, ?_, Nat.zero_le _, [], [], ⟨rfl, rfl, by simp⟩, rfl⟩⟩
    rintro dest rfl
    rfl

theorem run_queue (size : Nat) (hroom : svzUdpMsgSize + headerSize ≤ size)
    (hint : size + (svzUdpMsgSize + headerSize) ≤ 2 ^ 31) (peer : Option Dest) (remote : Dest)
    (ops : List Op) :
    ∃ t, run (newTraffic size peer remote) ops = .ok t ∧
      (t.sock.killed = false → ∃ done waiting,
        t.written = done ++ waiting ∧ t.sock.sendBuffer = frames waiting ∧
        t.sock.sent = done.map fun packet => { packet with dest := peer.getD packet.dest }) := by
  obtain ⟨t, hrun, hkept⟩ := run_kept hroom hint peer remote ops
  refine ⟨t, hrun, fun hlive => ?_⟩
  obtain hdead | ⟨-, hconn, hpeer, -, done, waiting, hq⟩ := hkept
  · exact absurd hdead (by simp [hlive])
  · refine ⟨done, waiting, hq.written, hq.buffer.trans (List.append_nil _), ?_⟩
    rw [hq.sent]
    refine List.map_congr_left fun packet _ => ?_
    cases peer with
    | none => simp [route, hconn]
    | some dest => simp [route, hconn, hpeer dest rfl]

/-- Two packets to different addresses, one of them sent. -/
def twoPackets : List Op :=
  [.write [5] [], .setRemote ⟨2, 7⟩, .write [6] [], .writeSocket .wouldBlock,
    .writeSocket .success]

theorem run_queue_twoPackets :
    svzUdpMsgSize + headerSize ≤ 70000 ∧ 70000 + (svzUdpMsgSize + headerSize) ≤ 2 ^ 31 ∧
    ∃ t, run (newTraffic 70000 none ⟨1, 7⟩) twoPackets = .ok t ∧
      (t.sock.killed = false → ∃ done waiting,
        t.written = done ++ waiting ∧ t.sock.sendBuffer = frames waiting ∧
        t.sock.sent = done.map fun packet => { packet with dest := packet.dest }) :=
  ⟨by decide, by decide, run_queue 70000 (by decide) (by decide) none ⟨1, 7⟩ twoPackets⟩

/-- Every packet goes to the address that the socket had when it was written. -/
def GoesWhereWritten (t : Traffic) : Prop :=
  ∃ done waiting, t.written = done ++ waiting ∧ t.sock.sendBuffer = frames waiting ∧
    t.sock.sent = done

/-- A socket connected to one address whose remote address is then changed. -/
theorem not_goesWhereWritten_connected :
    ∃ t, run (newTraffic 70000 (some ⟨1, 7⟩) ⟨1, 7⟩)
        [.setRemote ⟨2, 7⟩, .write [5] [], .writeSocket .success] = .ok t ∧
      t.sock.killed = false ∧ ¬ GoesWhereWritten t := by
  refine ⟨⟨⟨false, true, ⟨1, 7⟩, ⟨2, 7⟩, [], 70000, [⟨⟨1, 7⟩, [5]⟩]⟩, [⟨⟨2, 7⟩, [5]⟩]⟩,
    by decide +kernel, rfl, ?_⟩
  rintro ⟨done, waiting, hwritten, -, rfl⟩
  have hhead := (List.cons.inj hwritten).1
  exact absurd hhead (by decide)

end Serveez.Udp
