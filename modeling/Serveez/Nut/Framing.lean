import Serveez.Nut.Header
import Mathlib

/-!
# The frames that a Gnutella connection handles

`nut_check_request` adds the length field of a header to the size of the header in 32 bits and
compares the sum with the fill of the receive buffer. For a length of at least `2 ^ 32 - 23`
the sum wraps around to less than a header: the packet is routed although it is not there, and
with a sum of zero nothing is cut from the buffer, so that the loop does not end.

* `checkLoop_spec`: one call of `nut_check_request`, when no header wraps.
* `receiveAll_accounts`: what the calls cut from a stream, in any case.
* `routesFrames_iff`: however a stream is cut into reads, all calls return and exactly the
  frames of the stream are routed, precisely if no header of the stream wraps.

What happens in `nut_route` and the handlers is a parameter; it decides whether the connection
is killed. In a packet they change no byte behind the frame, which is cut off afterwards.
-/

namespace Serveez.Nut

open Lib

/-- The handling of a packet: its header and the receive buffer from the packet's body on. The
result tells whether the connection has been killed. -/
abbrev Handle (σ : Type) := σ → NutHeader → List UInt8 → σ × Bool

/-- A connection. `routed` are the packets passed to `nut_route`, each as far as it is in the
receive buffer, and `outer` is everything that routing and handling use. -/
structure NutSock (σ : Type) where
  recvBuffer : List UInt8
  killed : Bool
  routed : List (List UInt8)
  outer : σ

variable {σ : Type}

/-- `SIZEOF_NUT_HEADER + hdr->length`. It is compared with a fill below `2 ^ 31`, so as an `int`
it is the same number. -/
def packetLen (hdr : NutHeader) : Nat := (UInt32.ofNat sizeofNutHeader + hdr.length).toNat

/-- `svz_sock_reduce_recv` -/
def reduceRecv (sock : NutSock σ) (len : Nat) : NutSock σ :=
  { sock with recvBuffer := sock.recvBuffer.drop len }

/-- A packet is routed and, unless it has been dropped, handled. -/
def routePacket (handle : Handle σ) (sock : NutSock σ) : NutSock σ :=
  let hdr := nutGetHeader sock.recvBuffer
  let result := handle sock.outer hdr (sock.recvBuffer.drop sizeofNutHeader)
  { sock with
    killed := result.2
    routed := sock.routed ++ [sock.recvBuffer.take (sizeofNutHeader + hdr.length.toNat)]
    outer := result.1 }

/-- `nut_check_request`, whose loop may go round `fuel` times. -/
def checkLoop (handle : Handle σ) : Nat → NutSock σ → Option (NutSock σ)
  | 0, _ => none
  | fuel + 1, sock =>
    if sizeofNutHeader ≤ sock.recvBuffer.length then
      let hdr := nutGetHeader sock.recvBuffer
      if packetLen hdr ≤ sock.recvBuffer.length then
        let sock' := routePacket handle sock
        if sock'.killed then some sock'
        else checkLoop handle fuel (reduceRecv sock' (packetLen hdr))
      else some sock
    else some sock

/-- The bytes of a read. A killed connection is not read any more. -/
def receive (handle : Handle σ) (fuel : Nat) (sock : NutSock σ) (bytes : List UInt8) :
    Option (NutSock σ) :=
  if sock.killed then some sock
  else checkLoop handle fuel { sock with recvBuffer := sock.recvBuffer ++ bytes }

def receiveAll (handle : Handle σ) (fuel : Nat) (sock : NutSock σ) (reads : List (List UInt8)) :
    Option (NutSock σ) :=
  reads.foldlM (receive handle fuel) sock

def newNutSock (outer : σ) : NutSock σ := ⟨[], false, [], outer⟩

/-- The calls of `nut_check_request` for the given reads all return. The packets routed are the
first frames of the stream, and all of them, with the incomplete rest in the receive buffer, if
the connection has not been killed. -/
def RoutesFrames (handle : Handle σ) (outer : σ) (reads : List (List UInt8)) : Prop :=
  ∃ fuel sock, receiveAll handle fuel (newNutSock outer) reads = some sock ∧
    ∃ more rest, IsFrames frameSize reads.flatten (sock.routed ++ more) rest ∧
      (sock.killed = false → more = [] ∧ sock.recvBuffer = rest)

/-- No header at a frame boundary of the stream has a length field of `2 ^ 32 - 23` or more. -/
def NoWrap (stream : List UInt8) : Prop :=
  ∀ (frames : List (List UInt8)) (tail : List UInt8), stream = frames.flatten ++ tail →
    (∀ f ∈ frames, frameSize f = some f.length) → sizeofNutHeader ≤ tail.length →
    (nutGetHeader tail).length.toNat < 2 ^ 32 - sizeofNutHeader

/-! ## Lengths -/

theorem packetLen_eq (hdr : NutHeader) :
    packetLen hdr = (sizeofNutHeader + hdr.length.toNat) % 2 ^ 32 := by
  rw [packetLen, UInt32.toNat_add]
  rfl

theorem packetLen_of_lt {hdr : NutHeader} (h : hdr.length.toNat < 2 ^ 32 - sizeofNutHeader) :
    packetLen hdr = sizeofNutHeader + hdr.length.toNat := by
  rw [packetLen_eq, Nat.mod_eq_of_lt (by omega)]

theorem packetLen_lt_of_le {hdr : NutHeader} (h : 2 ^ 32 - sizeofNutHeader ≤ hdr.length.toNat) :
    packetLen hdr < sizeofNutHeader := by
  have hlt := hdr.length.toNat_lt
  have hsize : sizeofNutHeader = 23 := rfl
  rw [packetLen_eq]
  omega

/-! ## No header wraps -/

theorem NoWrap.drop {f s : List UInt8} (h : NoWrap (f ++ s))
    (hf : frameSize f = some f.length) : NoWrap s := by
  intro frames tail hs hframes htail
  refine h (f :: frames) tail ?_ (List.forall_mem_cons.mpr ⟨hf, hframes⟩) htail
  rw [hs, List.flatten_cons, List.append_assoc]

variable {sock : NutSock σ} {s : List UInt8} {fuel : Nat}

theorem NoWrap.head (h : NoWrap s) (hlen : sizeofNutHeader ≤ s.length) :
    (nutGetHeader s).length.toNat < 2 ^ 32 - sizeofNutHeader :=
  h [] s rfl (by simp) hlen

theorem NoWrap.of_append {s t : List UInt8} (h : NoWrap (s ++ t)) : NoWrap s := by
  intro frames tail hs hframes htail
  rw [← nutGetHeader_append htail t]
  refine h frames (tail ++ t) ?_ hframes ?_
  · rw [hs, List.append_assoc]
  · rw [List.length_append]
    omega

/-- What the two tests of the loop tell of a buffer in which no header wraps. -/
theorem NoWrap.frameSize_eq (h : NoWrap s) (hheader : sizeofNutHeader ≤ s.length) :
    frameSize s = some (packetLen (nutGetHeader s)) :=
  frameSize_eq_some_iff.mpr ⟨hheader, (packetLen_of_lt (h.head hheader)).symm⟩

theorem NoWrap.isFrames_none (h : NoWrap s)
    (hrest : ¬ (sizeofNutHeader ≤ s.length ∧ packetLen (nutGetHeader s) ≤ s.length)) :
    IsFrames frameSize s [] s := by
  refine IsFrames.none ?_
  intro n hn
  have hheader := (frameSize_eq_some_iff.mp hn).1
  rw [h.frameSize_eq hheader, Option.some_inj] at hn
  omega

theorem frameSize_take {n : Nat} (hsize : frameSize s = some n) (hfull : n ≤ s.length) :
    frameSize (s.take n) = some (s.take n).length := by
  rw [List.length_take_of_le hfull]
  exact isSize_frameSize.frame hsize hfull

theorem isFrames_of_drop {s rest : List UInt8} {frames : List (List UInt8)} {n : Nat}
    (hsize : frameSize s = some n) (hfull : n ≤ s.length)
    (h : IsFrames frameSize (s.drop n) frames rest) :
    IsFrames frameSize s (s.take n :: frames) rest := by
  have hcons := h.cons (frameSize_take hsize hfull)
  rwa [List.take_append_drop] at hcons

/-- The connection when a packet has been routed and cut off. -/
def nextPacket (handle : Handle σ) (sock : NutSock σ) : NutSock σ :=
  reduceRecv (routePacket handle sock) (packetLen (nutGetHeader sock.recvBuffer))

@[simp] theorem nextPacket_recvBuffer (handle : Handle σ) (sock : NutSock σ) :
    (nextPacket handle sock).recvBuffer =
      sock.recvBuffer.drop (packetLen (nutGetHeader sock.recvBuffer)) := rfl

@[simp] theorem nextPacket_routed (handle : Handle σ) (sock : NutSock σ) :
    (nextPacket handle sock).routed = (routePacket handle sock).routed := rfl

theorem routePacket_routed (handle : Handle σ) (h : NoWrap sock.recvBuffer)
    (hheader : sizeofNutHeader ≤ sock.recvBuffer.length) :
    (routePacket handle sock).routed =
      sock.routed ++ [sock.recvBuffer.take (packetLen (nutGetHeader sock.recvBuffer))] := by
  rw [packetLen_of_lt (h.head hheader)]
  rfl

theorem checkLoop_succ (handle : Handle σ) (fuel : Nat) (sock : NutSock σ) :
    (¬ (sizeofNutHeader ≤ sock.recvBuffer.length ∧
        packetLen (nutGetHeader sock.recvBuffer) ≤ sock.recvBuffer.length) ∧
      checkLoop handle (fuel + 1) sock = some sock) ∨
    (sizeofNutHeader ≤ sock.recvBuffer.length ∧
      packetLen (nutGetHeader sock.recvBuffer) ≤ sock.recvBuffer.length ∧
      (((routePacket handle sock).killed = true ∧
          checkLoop handle (fuel + 1) sock = some (routePacket handle sock)) ∨
        ((routePacket handle sock).killed = false ∧
          checkLoop handle (fuel + 1) sock = checkLoop handle fuel (nextPacket handle sock)))) := by
  rw [checkLoop]
  by_cases hheader : sizeofNutHeader ≤ sock.recvBuffer.length
  · by_cases hfull : packetLen (nutGetHeader sock.recvBuffer) ≤ sock.recvBuffer.length
    · refine Or.inr ⟨hheader, hfull, ?_⟩
      simp only [if_pos hheader, if_pos hfull]
      cases (routePacket handle sock).killed with
      | true => exact Or.inl ⟨rfl, rfl⟩
      | false => exact Or.inr ⟨rfl, rfl⟩
    · simp only [if_pos hheader, if_neg hfull]
      exact Or.inl ⟨fun h => hfull h.2, trivial⟩
  · rw [if_neg hheader]
    exact Or.inl ⟨fun h => hheader h.1, rfl⟩

theorem NoWrap.nextPacket {handle : Handle σ} (h : NoWrap sock.recvBuffer)
    (hheader : sizeofNutHeader ≤ sock.recvBuffer.length)
    (hfull : packetLen (nutGetHeader sock.recvBuffer) ≤ sock.recvBuffer.length) :
    NoWrap (nextPacket handle sock).recvBuffer := by
  refine NoWrap.drop ?_ (frameSize_take (h.frameSize_eq hheader) hfull)
  rw [nextPacket_recvBuffer, List.take_append_drop]
  exact h

/-- One call returns: each round cuts off a header at least. -/
theorem checkLoop_isSome (handle : Handle σ) (fuel : Nat) :
    ∀ sock : NutSock σ, NoWrap sock.recvBuffer → sock.recvBuffer.length < fuel →
      ∃ sock', checkLoop handle fuel sock = some sock' := by
  induction fuel with
  | zero =>
    intro sock _ hfuel
    omega
  | succ fuel ih =>
    intro sock hwrap hfuel
    rcases checkLoop_succ handle fuel sock with ⟨-, hrun⟩ | ⟨hheader, hfull, hround⟩
    · exact ⟨_, hrun⟩
    rcases hround with ⟨-, hrun⟩ | ⟨-, hrun⟩
    · exact ⟨_, hrun⟩
    · have hpos := isSize_frameSize.pos (hwrap.frameSize_eq hheader)
      rw [hrun]
      refine ih _ (hwrap.nextPacket hheader hfull) ?_
      rw [nextPacket_recvBuffer, List.length_drop]
      omega

/-- One call: the frames of the receive buffer are routed until the connection is killed. -/
theorem checkLoop_spec (handle : Handle σ) (fuel : Nat) :
    ∀ sock sock' : NutSock σ, NoWrap sock.recvBuffer → checkLoop handle fuel sock = some sock' →
      ∃ frames more rest, sock'.routed = sock.routed ++ frames ∧
        IsFrames frameSize sock.recvBuffer (frames ++ more) rest ∧
        (sock'.killed = false → more = [] ∧ sock'.recvBuffer = rest) := by
  induction fuel with
  | zero =>
    intro sock sock' _ h
    cases h
  | succ fuel ih =>
    intro sock sock' hwrap h
    rcases checkLoop_succ handle fuel sock with ⟨hrest, hrun⟩ | ⟨hheader, hfull, hround⟩
    · rw [hrun, Option.some_inj] at h
      subst h
      exact ⟨[], [], sock.recvBuffer, by simp, hwrap.isFrames_none hrest, fun _ => ⟨rfl, rfl⟩⟩
    have hsize := hwrap.frameSize_eq hheader
    have hrouted := routePacket_routed handle hwrap hheader
    rcases hround with ⟨hkill, hrun⟩ | ⟨hkill, hrun⟩
    · rw [hrun, Option.some_inj] at h
      subst h
      -- the frames behind a killing one are still in the buffer
      obtain ⟨more, rest, hmore⟩ := exists_isFrames isSize_frameSize
        (sock.recvBuffer.drop (packetLen (nutGetHeader sock.recvBuffer)))
      refine ⟨[_], more, rest, hrouted, isFrames_of_drop hsize hfull hmore, ?_⟩
      intro hnot
      rw [hkill] at hnot
      cases hnot
    · obtain ⟨frames, more, rest, hrouted', hframes, hend⟩ :=
        ih (nextPacket handle sock) sock' (hwrap.nextPacket hheader hfull) (hrun ▸ h)
      refine ⟨_ :: frames, more, rest, ?_, isFrames_of_drop hsize hfull hframes, hend⟩
      rw [hrouted', nextPacket_routed, hrouted, List.append_assoc]
      rfl

/-! ## Reads -/

/-- The packets routed so far are the first frames of the stream so far. -/
def Tracks (stream : List UInt8) (sock : NutSock σ) : Prop :=
  ∃ more rest, IsFrames frameSize stream (sock.routed ++ more) rest ∧
    (sock.killed = false → more = [] ∧ sock.recvBuffer = rest)

theorem Tracks.isFrames {stream : List UInt8} (h : Tracks stream sock)
    (hkilled : sock.killed = false) :
    IsFrames frameSize stream sock.routed sock.recvBuffer := by
  obtain ⟨more, rest, hframes, hopen⟩ := h
  obtain ⟨rfl, rfl⟩ := hopen hkilled
  rwa [List.append_nil] at hframes

theorem receive_of_not_killed (handle : Handle σ) (fuel : Nat) (hkilled : sock.killed = false)
    (bytes : List UInt8) :
    receive handle fuel sock bytes =
      checkLoop handle fuel { sock with recvBuffer := sock.recvBuffer ++ bytes } :=
  if_neg (Bool.eq_false_iff.mp hkilled)

theorem NoWrap.buffer {stream bytes : List UInt8} (h : NoWrap (stream ++ bytes))
    (hframes : IsFrames frameSize stream sock.routed sock.recvBuffer) :
    NoWrap (sock.recvBuffer ++ bytes) := by
  intro frames tail hs hall htail
  refine h (sock.routed ++ frames) tail ?_ ?_ htail
  · rw [← hframes.stream, List.append_assoc, hs, List.flatten_append, List.append_assoc]
  · intro f hf
    rcases List.mem_append.mp hf with hf | hf
    · exact hframes.frame f hf
    · exact hall f hf

theorem receive_tracks {handle : Handle σ} {stream bytes : List UInt8} {sock sock' : NutSock σ}
    (hwrap : NoWrap (stream ++ bytes)) (h : Tracks stream sock)
    (hreceive : receive handle fuel sock bytes = some sock') :
    Tracks (stream ++ bytes) sock' := by
  cases hkilled : sock.killed with
  | true =>
    rw [receive, if_pos hkilled, Option.some_inj] at hreceive
    subst hreceive
    obtain ⟨more, rest, hframes, -⟩ := h
    obtain ⟨new, last, hnew⟩ := exists_isFrames isSize_frameSize (rest ++ bytes)
    refine ⟨more ++ new, last, ?_, fun hnot => absurd (hnot.symm.trans hkilled) nofun⟩
    rw [← List.append_assoc]
    exact hframes.append hnew
  | false =>
    have hframes := h.isFrames hkilled
    rw [receive_of_not_killed handle fuel hkilled] at hreceive
    obtain ⟨frames, more, rest, hrouted, hsplit, hend⟩ :=
      checkLoop_spec handle fuel _ sock' (hwrap.buffer hframes) hreceive
    refine ⟨more, rest, ?_, hend⟩
    rw [hrouted, List.append_assoc]
    exact hframes.append hsplit

theorem receive_isSome (handle : Handle σ) {stream bytes : List UInt8}
    (hwrap : NoWrap (stream ++ bytes)) (h : Tracks stream sock)
    (hfuel : (stream ++ bytes).length < fuel) :
    ∃ sock', receive handle fuel sock bytes = some sock' := by
  cases hkilled : sock.killed with
  | true => exact ⟨sock, if_pos hkilled⟩
  | false =>
    have hframes := h.isFrames hkilled
    rw [receive_of_not_killed handle fuel hkilled]
    refine checkLoop_isSome handle fuel _ (hwrap.buffer hframes) ?_
    rw [← hframes.stream] at hfuel
    simp only [List.length_append] at hfuel ⊢
    omega

theorem receiveAll_concat (handle : Handle σ) (fuel : Nat) (sock : NutSock σ)
    (reads : List (List UInt8)) (bytes : List UInt8) :
    receiveAll handle fuel sock (reads ++ [bytes]) =
      (receiveAll handle fuel sock reads).bind (fun sock' => receive handle fuel sock' bytes) := by
  rw [receiveAll, List.foldlM_append]
  cases hreads : reads.foldlM (receive handle fuel) sock with
  | none => simp [receiveAll, hreads]
  | some sock' => simp [receiveAll, hreads]

theorem tracks_newNutSock (outer : σ) : Tracks [] (newNutSock outer) := by
  refine ⟨[], [], IsFrames.none ?_, fun _ => ⟨rfl, rfl⟩⟩
  intro n hn
  exact absurd (frameSize_eq_some_iff.mp hn).1 (by decide)

theorem flatten_concat (reads : List (List UInt8)) (bytes : List UInt8) :
    (reads ++ [bytes]).flatten = reads.flatten ++ bytes := by
  rw [List.flatten_append, List.flatten_singleton]

theorem receiveAll_tracks {handle : Handle σ} {outer : σ} (reads : List (List UInt8))
    (hwrap : NoWrap reads.flatten)
    (h : receiveAll handle fuel (newNutSock outer) reads = some sock) :
    Tracks reads.flatten sock := by
  induction reads using List.reverseRecOn generalizing sock with
  | nil =>
    cases h
    exact tracks_newNutSock outer
  | append_singleton reads bytes ih =>
    rw [receiveAll_concat, Option.bind_eq_some_iff] at h
    obtain ⟨before, hbefore, hreceive⟩ := h
    rw [flatten_concat] at hwrap ⊢
    exact receive_tracks hwrap (ih hwrap.of_append hbefore) hreceive

theorem receiveAll_isSome (handle : Handle σ) (outer : σ) (reads : List (List UInt8))
    (hwrap : NoWrap reads.flatten) (hfuel : reads.flatten.length < fuel) :
    ∃ sock, receiveAll handle fuel (newNutSock outer) reads = some sock := by
  induction reads using List.reverseRecOn with
  | nil => exact ⟨_, rfl⟩
  | append_singleton reads bytes ih =>
    rw [flatten_concat] at hwrap hfuel
    obtain ⟨sock, hrun⟩ := ih hwrap.of_append (by
      rw [List.length_append] at hfuel
      omega)
    rw [receiveAll_concat, hrun, Option.bind_some]
    exact receive_isSome handle hwrap (receiveAll_tracks reads hwrap.of_append hrun) hfuel

/-! ## What is cut from a stream -/

/-- Routing that never kills the connection. -/
def quiet : Handle Unit := fun _ _ _ => ((), false)

/-- The number of bytes that the packet with the given bytes was cut off with. -/
def cutLen (packet : List UInt8) : Nat := packetLen (nutGetHeader packet)

/-- The connection as the loop leaves it: not killed, and with no packet in its buffer. -/
structure Idle (stream : List UInt8) (sock : NutSock Unit) : Prop where
  killed : sock.killed = false
  length : stream.length = (sock.routed.map cutLen).sum + sock.recvBuffer.length
  rest : ¬ (sizeofNutHeader ≤ sock.recvBuffer.length ∧
    packetLen (nutGetHeader sock.recvBuffer) ≤ sock.recvBuffer.length)

theorem checkLoop_accounts (stream : List UInt8) (fuel : Nat) :
    ∀ sock sock' : NutSock Unit, sock.killed = false →
      stream.length = (sock.routed.map cutLen).sum + sock.recvBuffer.length →
      checkLoop quiet fuel sock = some sock' → Idle stream sock' := by
  induction fuel with
  | zero =>
    intro sock sock' _ _ h
    cases h
  | succ fuel ih =>
    intro sock sock' hkilled hlength h
    rcases checkLoop_succ quiet fuel sock with ⟨hrest, hrun⟩ | ⟨hheader, hfull, hround⟩
    · rw [hrun, Option.some_inj] at h
      exact h ▸ ⟨hkilled, hlength, hrest⟩
    rcases hround with ⟨hkill, -⟩ | ⟨-, hrun⟩
    · cases hkill
    · refine ih (nextPacket quiet sock) sock' rfl ?_ (hrun ▸ h)
      have hcut : (nextPacket quiet sock).routed.map cutLen =
          sock.routed.map cutLen ++ [packetLen (nutGetHeader sock.recvBuffer)] := by
        rw [nextPacket_routed]
        simp only [routePacket, List.map_append, List.map_singleton, cutLen]
        rw [nutGetHeader_take _ (Nat.le_add_right _ _)]
      rw [hcut, List.sum_append, List.sum_singleton, nextPacket_recvBuffer, List.length_drop]
      omega

theorem receiveAll_accounts (fuel : Nat) (reads : List (List UInt8)) (sock : NutSock Unit)
    (h : receiveAll quiet fuel (newNutSock ()) reads = some sock) : Idle reads.flatten sock := by
  induction reads using List.reverseRecOn generalizing sock with
  | nil =>
    cases h
    exact ⟨rfl, rfl, by decide⟩
  | append_singleton reads bytes ih =>
    rw [receiveAll_concat, Option.bind_eq_some_iff] at h
    obtain ⟨before, hbefore, hreceive⟩ := h
    obtain ⟨hkilled, hlength, -⟩ := ih before hbefore
    rw [receive_of_not_killed quiet fuel hkilled] at hreceive
    have hmore : (reads ++ [bytes]).flatten.length =
        (before.routed.map cutLen).sum + (before.recvBuffer ++ bytes).length := by
      rw [flatten_concat, List.length_append, List.length_append]
      omega
    exact checkLoop_accounts _ fuel { before with recvBuffer := before.recvBuffer ++ bytes } sock
      hkilled hmore hreceive

/-- Two lists of numbers of which one is nowhere above the other have the same sum only if they
are the same. -/
theorem eq_of_sum_map_eq {α : Type*} {f g : α → Nat} {l : List α} (hle : ∀ a ∈ l, f a ≤ g a)
    (hsum : (l.map f).sum = (l.map g).sum) : ∀ a ∈ l, f a = g a := by
  induction l with
  | nil => simp
  | cons b l ih =>
    have hrest : ∀ a ∈ l, f a ≤ g a := fun a ha => hle a (List.mem_cons_of_mem _ ha)
    have hb := hle b List.mem_cons_self
    have htail := List.sum_le_sum hrest
    rw [List.map_cons, List.map_cons, List.sum_cons, List.sum_cons] at hsum
    intro a ha
    rcases List.mem_cons.mp ha with rfl | ha
    · omega
    · exact ih hrest (by omega) a ha

/-- A connection that has routed exactly the frames of its stream has met no wrapping header. -/
theorem Idle.noWrap {stream : List UInt8} {sock : NutSock Unit} (h : Idle stream sock)
    (hframes : IsFrames frameSize stream sock.routed sock.recvBuffer) : NoWrap stream := by
  have hpacket : ∀ f ∈ sock.routed, f.length = sizeofNutHeader + (nutGetHeader f).length.toNat :=
    fun f hf => ((frameSize_eq_some_iff.mp (hframes.frame f hf)).2).symm
  have hcut : ∀ f ∈ sock.routed, cutLen f = f.length := by
    refine eq_of_sum_map_eq ?_ ?_
    · intro f hf
      rw [cutLen, packetLen_eq, hpacket f hf]
      exact Nat.mod_le _ _
    · have hlength := h.length
      rw [← hframes.stream, List.length_append, List.length_flatten] at hlength
      omega
  intro frames tail hstream hall htail
  obtain ⟨more, rest, hmore⟩ := exists_isFrames isSize_frameSize tail
  have hsplit := hmore.append_left hall
  rw [← hstream] at hsplit
  obtain ⟨hrouted, hrest⟩ := hframes.unique isSize_frameSize hsplit
  by_contra hwrap
  have hshort := packetLen_lt_of_le (Nat.le_of_not_lt hwrap)
  cases more with
  | nil =>
    -- the header is at the start of the rest
    have htailrest : tail = sock.recvBuffer := by
      rw [hrest, ← hmore.stream]
      rfl
    rw [htailrest] at hshort htail
    exact h.rest ⟨htail, by omega⟩
  | cons f more =>
    -- the header is that of a routed frame
    have hf : f ∈ sock.routed := by rw [hrouted]; simp
    have hheader : nutGetHeader tail = nutGetHeader f := by
      rw [← hmore.stream, List.flatten_cons, List.append_assoc]
      refine nutGetHeader_append ?_ _
      have := hpacket f hf
      omega
    have hlen := hcut f hf
    rw [cutLen, hpacket f hf, ← hheader] at hlen
    omega

/-- **Framing.** For every cutting of a stream into reads: all calls of `nut_check_request`
return and pass exactly the frames of the stream on, whatever the handling of packets does,
precisely if no header at a frame boundary of the stream wraps. Two cuttings of such a stream
lead to the same packets and the same rest. -/
theorem routesFrames_iff (reads : List (List UInt8)) :
    ((∀ (σ : Type) (handle : Handle σ) (outer : σ), RoutesFrames handle outer reads) ↔
      NoWrap reads.flatten) ∧
    (NoWrap reads.flatten → ∀ (σ τ : Type) (handle : Handle σ) (handle' : Handle τ) outer outer'
      fuel fuel' reads' sock sock', reads'.flatten = reads.flatten →
      receiveAll handle fuel (newNutSock outer) reads = some sock →
      receiveAll handle' fuel' (newNutSock outer') reads' = some sock' →
      sock.killed = false → sock'.killed = false →
      sock.routed = sock'.routed ∧ sock.recvBuffer = sock'.recvBuffer) := by
  refine ⟨⟨?_, ?_⟩, ?_⟩
  · intro h
    obtain ⟨fuel, sock, hrun, htracks⟩ := h Unit quiet ()
    have hidle := receiveAll_accounts fuel reads sock hrun
    exact hidle.noWrap (Tracks.isFrames htracks hidle.killed)
  · intro hwrap σ handle outer
    obtain ⟨sock, hrun⟩ := receiveAll_isSome handle outer reads hwrap (Nat.lt_succ_self _)
    exact ⟨_, sock, hrun, receiveAll_tracks reads hwrap hrun⟩
  · intro hwrap σ τ handle handle' outer outer' fuel fuel' reads' sock sock' hsame hrun hrun'
      hkilled hkilled'
    have hframes := (receiveAll_tracks reads hwrap hrun).isFrames hkilled
    have hframes' := (receiveAll_tracks reads' (hsame ▸ hwrap) hrun').isFrames hkilled'
    rw [hsame] at hframes'
    exact hframes.unique isSize_frameSize hframes'

/-- The header of a query of `2 ^ 32 - 23` bytes, which `nut_route` drops as too big. -/
def wrapHeader : List UInt8 :=
  List.replicate nutGuidSize 0 ++ [0x80, 5, 0, 0xE9, 0xFF, 0xFF, 0xFF]

/-- Nothing is cut off for this header, so the call does not return. -/
theorem checkLoop_wrapHeader (fuel : Nat) : ∀ sock : NutSock Unit,
    sock.recvBuffer = wrapHeader → checkLoop quiet fuel sock = none := by
  induction fuel with
  | zero => exact fun _ _ => rfl
  | succ fuel ih =>
    intro sock hbuffer
    rcases checkLoop_succ quiet fuel sock with ⟨hrest, -⟩ | ⟨-, -, hround⟩
    · rw [hbuffer] at hrest
      exact absurd (by decide) hrest
    rcases hround with ⟨hkill, -⟩ | ⟨-, hrun⟩
    · cases hkill
    · rw [hrun]
      apply ih
      rw [nextPacket_recvBuffer, hbuffer]
      decide

theorem wrapHeader_not_routed : ¬ RoutesFrames quiet () [wrapHeader] := by
  rintro ⟨fuel, sock, hrun, -⟩
  have hloop := checkLoop_wrapHeader fuel ⟨wrapHeader, false, [], ()⟩ rfl
  have hcall : receiveAll quiet fuel (newNutSock ()) [wrapHeader] =
      checkLoop quiet fuel ⟨wrapHeader, false, [], ()⟩ := by simp [receiveAll, receive, newNutSock]
  rw [hcall, hloop] at hrun
  cases hrun

end Serveez.Nut
