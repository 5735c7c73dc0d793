import Serveez.Recv.Boundary
import Mathlib.Data.PNat.Basic

/-!
# Packets whose size changes

`split_packet_fixed_and_dispatch` with a `handle_request` callback that keeps a state of its own and
may choose another size for the packets behind the one it sees. A packet is kept in `handled` with
the size that it was cut with.

* `Chosen`: packets that have the sizes that the callback chooses.
* `receiveAll_spec`: what is left in the buffer after any sequence of reads.
* `fixedSize_framed_iff`: fewer bytes than a packet are left just when the stream does not end with
  one.
-/

namespace Serveez.Recv.FixedSize

/-- The callback returns a number, the size from now on and its state. -/
abbrev Request (σ : Type) := σ → ℕ+ → List UInt8 → Int × ℕ+ × σ

structure Sock (σ : Type) where
  recvBuffer : List UInt8
  boundarySize : ℕ+
  state : σ
  handled : List (ℕ+ × List UInt8)

variable {σ : Type}

def handleRequest (request : Request σ) (sock : Sock σ) (packet : List UInt8) : Sock σ × Int :=
  let answer := request sock.state sock.boundarySize packet
  ({ sock with
      boundarySize := answer.2.1
      state := answer.2.2
      handled := sock.handled ++ [(sock.boundarySize, packet)] }, answer.1)

def svzSockReduceRecv (sock : Sock σ) (len : Nat) : Sock σ :=
  { sock with recvBuffer := sock.recvBuffer.drop len }

/-- The loop, for at most `fuel` rounds; positions are offsets in the receive buffer. -/
def dispatch (request : Request σ) (limit : Nat) :
    Nat → Sock σ → Nat → Nat → Nat → Option (Sock σ × Int)
  | 0, _, _, _, _ => none
  | fuel + 1, sock, p, packet, len =>
    if p + sock.boundarySize < limit then
      let len := len + sock.boundarySize
      let p := p + sock.boundarySize
      let answer :=
        handleRequest request sock ((sock.recvBuffer.drop packet).take sock.boundarySize)
      if answer.2 ≠ 0 then some (answer.1, -1)
      else dispatch request limit fuel answer.1 p p len
    else some (svzSockReduceRecv sock len, 0)

def splitPacketFixedAndDispatch (request : Request σ) (sock : Sock σ) : Option (Sock σ × Int) :=
  dispatch request sock.recvBuffer.length (sock.recvBuffer.length + 1) sock 0 0 0

/-- Bytes that arrive go behind those in the buffer. -/
def receive (request : Request σ) (sock : Sock σ) (bytes : List UInt8) : Option (Sock σ × Int) :=
  splitPacketFixedAndDispatch request { sock with recvBuffer := sock.recvBuffer ++ bytes }

/-- The first failure ends the connection. -/
def receiveAll (request : Request σ) : Sock σ → List (List UInt8) → Option (Sock σ × Int)
  | sock, [] => some (sock, 0)
  | sock, bytes :: chunks =>
    (receive request sock bytes).bind fun answer =>
    if answer.2 ≠ 0 then some answer else receiveAll request answer.1 chunks

def newSock (size : ℕ+) (state : σ) : Sock σ := ⟨[], size, state, []⟩

/-! ## Packets -/

/-- Packets that have the sizes that the callback chooses, from a first size to a last one. -/
inductive Chosen (request : Request σ) : ℕ+ → σ → List (ℕ+ × List UInt8) → ℕ+ → σ → Prop
  | nil (size : ℕ+) (state : σ) : Chosen request size state [] size state
  | cons {size next last : ℕ+} {state state' state'' : σ} {packet : List UInt8}
      {packets : List (ℕ+ × List UInt8)} (hlength : packet.length = size)
      (hanswer : request state size packet = (0, next, state'))
      (hrest : Chosen request next state' packets last state'') :
      Chosen request size state ((size, packet) :: packets) last state''

/-- The bytes of packets. -/
def bytesOf (packets : List (ℕ+ × List UInt8)) : List UInt8 := packets.flatMap Prod.snd

/-- What should be after a call that returns zero: the packets so far have been handled, each with
the size in force, and the bytes behind them are fewer than a packet. -/
structure Framed (request : Request σ) (size : ℕ+) (state : σ) (stream : List UInt8)
    (sock : Sock σ) : Prop where
  chosen : Chosen request size state sock.handled sock.boundarySize sock.state
  whole : bytesOf sock.handled ++ sock.recvBuffer = stream
  short : sock.recvBuffer.length < sock.boundarySize

/-- The stream ends with the last byte of a packet. -/
def EndsWithPacket (request : Request σ) (size : ℕ+) (state : σ) (stream : List UInt8) : Prop :=
  ∃ packets last state' packet, Chosen request size state packets last state' ∧
    packet.length = (last : Nat) ∧ stream = bytesOf packets ++ packet

variable {request : Request σ} {size last : ℕ+} {state state' : σ}
  {packets : List (ℕ+ × List UInt8)}

theorem bytesOf_cons (n : ℕ+) (packet : List UInt8) (packets : List (ℕ+ × List UInt8)) :
    bytesOf ((n, packet) :: packets) = packet ++ bytesOf packets := List.flatMap_cons

theorem bytesOf_append (packets packets' : List (ℕ+ × List UInt8)) :
    bytesOf (packets ++ packets') = bytesOf packets ++ bytesOf packets' := List.flatMap_append

theorem Chosen.concat (h : Chosen request size state packets last state') {next : ℕ+} {state'' : σ}
    {packet : List UInt8} (hlength : packet.length = last)
    (hanswer : request state' last packet = (0, next, state'')) :
    Chosen request size state (packets ++ [(last, packet)]) next state'' := by
  induction h with
  | nil size state => exact Chosen.cons hlength hanswer (Chosen.nil next state'')
  | cons hfirst hfirst' _ ih => exact Chosen.cons hfirst hfirst' (ih hlength hanswer)

/-- Packets of one stream agree, and behind the fewer packets there is room for the next one. -/
theorem Chosen.compare {packets' : List (ℕ+ × List UInt8)} {last' : ℕ+} {state'' : σ}
    {rest rest' : List UInt8} (h : Chosen request size state packets last state')
    (h' : Chosen request size state packets' last' state'')
    (hstream : bytesOf packets ++ rest = bytesOf packets' ++ rest') :
    last = last' ∧ rest = rest' ∨ (last : Nat) + rest'.length ≤ rest.length ∨
      (last' : Nat) + rest.length ≤ rest'.length := by
  induction h generalizing packets' with
  | nil size state =>
    cases h' with
    | nil => exact Or.inl ⟨rfl, hstream⟩
    | cons hlength' _ _ =>
      refine Or.inr (Or.inl ?_)
      have hlengths := congrArg List.length hstream
      rw [bytesOf_cons] at hlengths
      simp only [bytesOf, List.flatMap_nil, List.nil_append, List.length_append] at hlengths
      omega
  | @cons size next last state _ _ packet packets hlength hanswer _ ih =>
    cases h' with
    | nil =>
      refine Or.inr (Or.inr ?_)
      have hlengths := congrArg List.length hstream
      rw [bytesOf_cons] at hlengths
      simp only [bytesOf, List.flatMap_nil, List.nil_append, List.length_append] at hlengths
      omega
    | @cons _ next' _ _ _ _ packet' packets' hlength' hanswer' hrest' =>
      rw [bytesOf_cons, bytesOf_cons, List.append_assoc, List.append_assoc] at hstream
      obtain ⟨rfl, htail⟩ := List.append_inj hstream (hlength.trans hlength'.symm)
      obtain ⟨-, hsame⟩ := Prod.mk.inj (hanswer.symm.trans hanswer')
      obtain ⟨rfl, rfl⟩ := Prod.mk.inj hsame
      exact ih hrest' htail

/-! ## The loop -/

/-- The loop at position `k`, where `rest` is what it leaves in the buffer. -/
theorem dispatch_spec (buffer : List UInt8) (fuel : Nat) (sock : Sock σ) (k : Nat)
    (hbuffer : sock.recvBuffer = buffer) (hk : k ≤ buffer.length)
    (hfuel : buffer.length < k + fuel)
    (hchosen : Chosen request size state sock.handled sock.boundarySize sock.state) :
    ∃ sock' ret, dispatch request buffer.length fuel sock k k k = some (sock', ret) ∧
      (ret = 0 → Chosen request size state sock'.handled sock'.boundarySize sock'.state ∧
        bytesOf sock'.handled ++ sock'.recvBuffer = bytesOf sock.handled ++ buffer.drop k ∧
        sock'.recvBuffer.length ≤ sock'.boundarySize ∧
        (sock'.recvBuffer = [] → buffer.drop k = [])) := by
  induction fuel generalizing sock k with
  | zero => omega
  | succ fuel ih =>
    have hpos := sock.boundarySize.pos
    rw [dispatch]
    by_cases hroom : k + sock.boundarySize < buffer.length
    · rw [if_pos hroom]
      dsimp only
      rw [hbuffer]
      -- the packet at `k`
      have hlength : ((buffer.drop k).take sock.boundarySize).length = sock.boundarySize := by
        rw [List.length_take, List.length_drop]
        omega
      generalize hpacket : (buffer.drop k).take sock.boundarySize = packet at hlength
      by_cases hfailed : (handleRequest request sock packet).2 ≠ 0
      · rw [if_pos hfailed]
        exact ⟨_, _, rfl, fun hret => absurd hret (by decide)⟩
      rw [if_neg hfailed]
      have hzero := not_not.mp hfailed
      have hnext : Chosen request size state (handleRequest request sock packet).1.handled
          (handleRequest request sock packet).1.boundarySize
          (handleRequest request sock packet).1.state :=
        hchosen.concat hlength (Prod.ext hzero rfl)
      obtain ⟨sock', ret, hrun, hdone⟩ := ih (handleRequest request sock packet).1
        (k + sock.boundarySize) hbuffer (by omega) (by omega) hnext
      refine ⟨sock', ret, hrun, fun hret => ?_⟩
      obtain ⟨hchosen', hstream, hshort, hempty⟩ := hdone hret
      refine ⟨hchosen', ?_, hshort, fun hnone => ?_⟩
      · rw [hstream]
        have hcut := List.take_append_drop sock.boundarySize (buffer.drop k)
        rw [hpacket, List.drop_drop] at hcut
        show bytesOf (sock.handled ++ [(sock.boundarySize, packet)]) ++ _ = _
        rw [bytesOf_append, List.append_assoc, ← hcut]
        have hone : bytesOf [(sock.boundarySize, packet)] = packet := by
          rw [bytesOf_cons]
          exact List.append_nil packet
        rw [hone]
      · -- a byte stands behind the packet
        have hlengths := congrArg List.length (hempty hnone)
        rw [List.length_drop, List.length_nil] at hlengths
        omega
    · rw [if_neg hroom]
      refine ⟨_, _, rfl, fun _ => ⟨hchosen, ?_, ?_, ?_⟩⟩
      · show bytesOf sock.handled ++ sock.recvBuffer.drop k = _
        rw [hbuffer]
      · show (sock.recvBuffer.drop k).length ≤ sock.boundarySize
        rw [hbuffer, List.length_drop]
        omega
      · intro hnone
        rw [← hbuffer]
        exact hnone

/-! ## Reads -/

/-- What holds after any reads: at most one whole packet has been left in the buffer, and something
has been left if anything has been read. -/
structure Left (request : Request σ) (size : ℕ+) (state : σ) (stream : List UInt8)
    (sock : Sock σ) : Prop where
  chosen : Chosen request size state sock.handled sock.boundarySize sock.state
  whole : bytesOf sock.handled ++ sock.recvBuffer = stream
  short : sock.recvBuffer.length ≤ sock.boundarySize
  rest : sock.recvBuffer = [] → stream = []

theorem receive_spec {stream : List UInt8} {sock : Sock σ} (h : Left request size state stream sock)
    (bytes : List UInt8) :
    ∃ sock' ret, receive request sock bytes = some (sock', ret) ∧
      (ret = 0 → Left request size state (stream ++ bytes) sock') := by
  obtain ⟨sock', ret, hrun, hdone⟩ := dispatch_spec (sock.recvBuffer ++ bytes)
    ((sock.recvBuffer ++ bytes).length + 1) { sock with recvBuffer := sock.recvBuffer ++ bytes } 0
    rfl (Nat.zero_le _) (by omega) h.chosen
  refine ⟨sock', ret, hrun, fun hret => ?_⟩
  obtain ⟨hchosen, hstream, hshort, hempty⟩ := hdone hret
  refine ⟨hchosen, ?_, hshort, fun hnone => ?_⟩
  · rw [hstream, List.drop_zero, ← h.whole, List.append_assoc]
  · obtain ⟨hbuffer, hbytes⟩ := List.append_eq_nil_iff.mp (hempty hnone)
    rw [h.rest hbuffer, hbytes]
    rfl

theorem receiveAll_spec (chunks : List (List UInt8)) {stream : List UInt8} {sock : Sock σ}
    (h : Left request size state stream sock) :
    ∃ sock' ret, receiveAll request sock chunks = some (sock', ret) ∧
      (ret = 0 → Left request size state (stream ++ chunks.flatten) sock') := by
  induction chunks generalizing stream sock with
  | nil =>
    refine ⟨sock, 0, rfl, fun _ => ?_⟩
    rw [List.flatten_nil, List.append_nil]
    exact h
  | cons bytes chunks ih =>
    obtain ⟨next, ret, hrun, hdone⟩ := receive_spec h bytes
    rw [receiveAll, hrun, Option.bind_some]
    by_cases hfailed : ret ≠ 0
    · rw [if_pos hfailed]
      exact ⟨next, ret, rfl, fun hret => absurd hret hfailed⟩
    · rw [if_neg hfailed, List.flatten_cons, ← List.append_assoc]
      exact ih (hdone (not_not.mp hfailed))

theorem left_newSock (request : Request σ) (size : ℕ+) (state : σ) :
    Left request size state [] (newSock size state) :=
  ⟨Chosen.nil size state, rfl, Nat.zero_le _, fun _ => rfl⟩

theorem Left.nothing_left_iff {stream : List UInt8} {sock : Sock σ}
    (h : Left request size state stream sock) :
    Framed request size state stream sock ↔ ¬ EndsWithPacket request size state stream := by
  constructor
  · rintro hframed ⟨packets, last, state', packet, hchosen, hlength, hstream⟩
    have hshort := hframed.short
    rcases hframed.chosen.compare hchosen (hframed.whole.trans hstream) with
      ⟨hsize, hrest⟩ | hmore | hfewer
    · rw [hrest, hsize] at hshort
      omega
    · omega
    · -- nothing is left in the buffer
      have hnone : sock.recvBuffer = [] := List.eq_nil_of_length_eq_zero (by omega)
      have hlengths := congrArg List.length (hstream.symm.trans (h.rest hnone))
      have hpos := last.pos
      rw [List.length_append, List.length_nil] at hlengths
      omega
  · intro hnot
    refine ⟨h.chosen, h.whole, Nat.lt_of_le_of_ne h.short (fun hfull => hnot ?_)⟩
    exact ⟨_, _, _, _, h.chosen, hfull, h.whole.symm⟩

/-- However a stream arrives, the calls return; and after reads that have not failed, the packets
are handled and fewer bytes than one of them are left just when the stream does not end with the
last byte of a packet. -/
theorem fixedSize_framed_iff (request : Request σ) (size : ℕ+) (state : σ)
    (chunks : List (List UInt8)) :
    ∃ sock ret, receiveAll request (newSock size state) chunks = some (sock, ret) ∧
      (ret = 0 → (Framed request size state chunks.flatten sock ↔
        ¬ EndsWithPacket request size state chunks.flatten)) := by
  obtain ⟨sock, ret, hrun, hdone⟩ :=
    receiveAll_spec chunks (left_newSock request size state)
  exact ⟨sock, ret, hrun, fun hret => (hdone hret).nothing_left_iff⟩

/-- A packet of four bytes in one read waits for a byte behind it. -/
theorem wholePacket_not_framed :
    ¬ ∀ (request : Request Unit) (size : ℕ+) (chunks : List (List UInt8)),
      ∃ sock, receiveAll request (newSock size ()) chunks = some (sock, 0) ∧
        Framed request size () chunks.flatten sock := by
  intro hall
  obtain ⟨sock, hrun, hframed⟩ := hall (fun _ size _ => (0, size, ())) 4 [[1, 2, 3, 4]]
  have hstate : (receiveAll (fun _ size _ => (0, size, ())) (newSock 4 ()) [[1, 2, 3, 4]]).map
      (fun answer => (answer.1.recvBuffer.length, answer.1.boundarySize)) = some (4, 4) := by
    decide +kernel
  rw [hrun] at hstate
  obtain ⟨hlength, hsize⟩ := Prod.mk.inj (Option.some.inj hstate)
  have hshort := hframed.short
  rw [hlength, hsize] at hshort
  exact absurd hshort (Nat.lt_irrefl 4)

end Serveez.Recv.FixedSize
