import Serveez.Lib.Framing

/-!
# Lines of an IRC connection

`irc_check_request` looks for the ends of the lines in the receive buffer. Behind the last of them
it looks at one more byte, and for the length of a line at the byte before its end, which lies
before the buffer if the line is the first one and empty. `before` is the byte there.

* `checkLoop_spec`: what a call hands on and what it reads.
* `keepsLines_iff`: when the requests of all calls are the lines of the stream, and all bytes that
  are read are in the buffer.
-/

namespace Serveez.Irc.Lines

open Lib

/-- The bytes of a request; a length below 0 gives none. -/
def requestText (packet : List UInt8) (len : Int) : Option (List UInt8) :=
  if 0 ≤ len then some (packet.take len.toNat) else none

/-- A call of `irc_check_request`: the places of the buffer that it has read, all requests up to
now, how many bytes they were in this call, and the result. -/
structure Check where
  reads : List Int
  requests : List (Option (List UInt8))
  requestLen : Nat
  retval : Int

/-- The loops of `irc_check_request`: `p` is `n` bytes behind `packet`, and `last` is the byte
before `p`. The result of `irc_handle_request` may depend on all requests. -/
def checkLoop (handle : List (Option (List UInt8)) → Int) (packet : List UInt8) (n p : Nat)
    (last : UInt8) : List UInt8 → Check → Check
  | [], check => { check with reads := check.reads ++ [(p : Int)] }
  | c :: rest, check =>
    if c ≠ 10 then
      checkLoop handle packet (n + 1) (p + 1) c rest
        { check with reads := check.reads ++ [(p : Int)] }
    else
      let len : Int := (n + 1 : Nat) - (if last = 13 then 2 else 1)
      let requests := check.requests ++ [requestText packet len]
      let check : Check :=
        { reads := check.reads ++ [(p : Int), (p : Int), (p : Int) - 1]
          requests := requests
          requestLen := check.requestLen + (n + 1)
          retval := handle requests }
      if rest = [] ∨ check.retval ≠ 0 then check
      else checkLoop handle rest 0 (p + 1) c rest check

/-- The filled part of the receive buffer, all requests, whether a byte outside of the filled part
has been read, and the last result. -/
structure Receiver where
  buffer : List UInt8
  requests : List (Option (List UInt8))
  strayed : Bool
  retval : Int

/-- Whether a place is in the filled part. -/
def inside (buffer : List UInt8) (place : Int) : Bool := 0 ≤ place && place < buffer.length

/-- `irc_check_request` -/
def ircCheckRequest (handle : List (Option (List UInt8)) → Int) (before : UInt8) (s : Receiver) :
    Receiver :=
  let check := checkLoop handle s.buffer 0 0 before s.buffer ⟨[], s.requests, 0, 0⟩
  let moved :=
    if 0 < check.requestLen ∧ check.requestLen < s.buffer.length then
      s.buffer.drop check.requestLen
    else s.buffer
  { buffer := moved.take (s.buffer.length - check.requestLen)
    requests := check.requests
    strayed := s.strayed || !check.reads.all (inside s.buffer)
    retval := check.retval }

/-- Bytes that come in, and the byte before the buffer at that time. -/
structure Arrival where
  bytes : List UInt8
  before : UInt8

/-- A connection with a result other than 0 is closed. -/
def receive (handle : List (Option (List UInt8)) → Int) (s : Receiver) (arrival : Arrival) :
    Receiver :=
  if s.retval ≠ 0 then s
  else ircCheckRequest handle arrival.before { s with buffer := s.buffer ++ arrival.bytes }

def receiveAll (handle : List (Option (List UInt8)) → Int) (arrivals : List Arrival) : Receiver :=
  arrivals.foldl (receive handle) ⟨[], [], false, 0⟩

def streamOf (arrivals : List Arrival) : List UInt8 := (arrivals.map Arrival.bytes).flatten

/-! ## What the requests should be -/

/-- A line without its terminator. -/
def lineText (packet : List UInt8) : List UInt8 :=
  let text := packet.dropLast
  if text.getLast? = some 13 then text.dropLast else text

/-- The requests are the lines of the stream, and the rest is in the buffer. -/
def Framed (arrivals : List Arrival) (s : Receiver) : Prop :=
  ∃ packets, IsSplit [10] (streamOf arrivals) packets s.buffer ∧
    s.requests = packets.map (fun packet => some (lineText packet))

/-- Nothing comes behind an unfinished line, or at all. -/
def Finished (stream : List UInt8) : Prop := stream = [] ∨ stream.getLast? = some 10

/-- No line that is only a line feed comes at the beginning of the buffer, behind a byte that is a
carriage return. -/
def NoReturnBefore (arrivals : List Arrival) : Prop :=
  ∀ pre arrival, pre ++ [arrival] <+: arrivals → Finished (streamOf pre) →
    arrival.bytes.head? = some 10 → arrival.before ≠ 13

/-- All bytes that come in at once are lines, the first of which is not only a line feed. -/
def WholeLines (arrivals : List Arrival) : Prop :=
  ∀ arrival ∈ arrivals, arrival.bytes.getLast? = some 10 ∧ arrival.bytes.head? ≠ some 10

/-! ## A call -/

variable {handle : List (Option (List UInt8)) → Int} {check : Check} {last : UInt8}
  {packet rest front buffer : List UInt8} {n p : Nat}

/-- What is handed on for the first packet, behind the byte `last`, and for the others. -/
def handed (last : UInt8) : List (List UInt8) → List (Option (List UInt8))
  | [] => []
  | packet :: packets =>
    (if packet = [10] ∧ last = 13 then none else some (lineText packet)) ::
      packets.map (fun packet => some (lineText packet))

theorem handed_of_ne (h : last ≠ 13) (packets : List (List UInt8)) :
    handed last packets = packets.map (fun packet => some (lineText packet)) := by
  cases packets with
  | nil => rfl
  | cons packet packets => rw [handed, if_neg (fun hboth => h hboth.2), List.map_cons]

theorem lineText_concat (front : List UInt8) (c : UInt8) :
    lineText (front ++ [c]) = if front.getLast? = some 13 then front.dropLast else front := by
  rw [lineText, List.dropLast_concat]

/-- The text of a line behind the byte `last`. -/
theorem requestText_line (front tail : List UInt8) (last : UInt8) :
    requestText (front ++ 10 :: tail)
        ((front.length + 1 : Nat) - (if front.getLast?.getD last = 13 then 2 else 1)) =
      if front ++ [10] = [10] ∧ last = 13 then none else some (lineText (front ++ [10])) := by
  rw [lineText_concat]
  rcases List.eq_nil_or_concat front with rfl | ⟨text, c, rfl⟩
  · rw [List.getLast?_nil, Option.getD_none, List.nil_append, List.nil_append]
    by_cases hlast : last = 13
    · rw [if_pos hlast, if_pos ⟨rfl, hlast⟩]
      rfl
    · rw [if_neg hlast, if_neg (fun h : [(10 : UInt8)] = [10] ∧ last = 13 => hlast h.2)]
      rfl
  · have hne : ¬ ((text ++ [c]) ++ [10] = [10] ∧ last = 13) := fun h => by
      have hlength := congrArg List.length h.1
      rw [List.length_append, List.length_append] at hlength
      simp at hlength
    rw [List.concat_eq_append, if_neg hne, List.getLast?_concat, Option.getD_some,
      List.length_append, List.length_singleton]
    unfold requestText
    by_cases hc : c = 13
    · rw [if_pos hc, if_pos (by omega), if_pos (by rw [hc]), List.dropLast_concat]
      rw [show ((text.length + 1 + 1 : Nat) - 2 : Int).toNat = text.length by omega]
      rw [List.append_assoc, List.take_left]
    · rw [if_neg hc, if_pos (by omega), if_neg (fun h => hc (Option.some.inj h))]
      rw [show ((text.length + 1 + 1 : Nat) - 1 : Int).toNat = (text ++ [c]).length by
        rw [List.length_append, List.length_singleton]; omega]
      rw [List.take_left]

/-- The places that are read on the way over some bytes. -/
def places (p n : Nat) : List Int := (List.range' p n).map Int.ofNat

theorem places_succ (p n : Nat) : places p (n + 1) = (p : Int) :: places (p + 1) n := by
  rw [places, List.range'_succ, List.map_cons]
  rfl

theorem all_places (buffer : List UInt8) (p n : Nat) :
    (places p n).all (inside buffer) = true ↔ n = 0 ∨ p + n ≤ buffer.length := by
  rw [List.all_eq_true]
  constructor
  · intro h
    cases n with
    | zero => exact Or.inl rfl
    | succ n =>
      refine Or.inr ?_
      have hmem : ((p + n : Nat) : Int) ∈ places p (n + 1) :=
        List.mem_map.mpr ⟨p + n, List.mem_range'_1.mpr ⟨by omega, by omega⟩, rfl⟩
      have hlast := h _ hmem
      simp only [inside, Bool.and_eq_true, decide_eq_true_eq] at hlast
      omega
  · intro h place hplace
    obtain ⟨i, hi, rfl⟩ := List.mem_map.mp hplace
    have hrange := List.mem_range'_1.mp hi
    simp only [inside, Bool.and_eq_true, decide_eq_true_eq, Int.ofNat_eq_natCast]
    omega

/-- An unfinished line is read to its end, and the byte behind it too. -/
theorem checkLoop_open (h : 10 ∉ rest) :
    checkLoop handle packet n p last rest check =
      { check with reads := check.reads ++ places p (rest.length + 1) } := by
  induction rest generalizing n p last check with
  | nil => rfl
  | cons c rest ih =>
    have hc : c ≠ 10 := fun hc => h (hc ▸ List.mem_cons_self)
    rw [checkLoop, if_pos hc, ih (fun hmem => h (List.mem_cons_of_mem _ hmem)), List.length_cons,
      places_succ p, List.append_assoc]
    rfl

theorem checkLoop_line (h : 10 ∉ front) :
    checkLoop handle packet n p last (front ++ 10 :: rest) check =
      let requests := check.requests ++ [requestText packet
        ((n + front.length + 1 : Nat) - (if front.getLast?.getD last = 13 then 2 else 1))]
      let after : Check :=
        { reads := check.reads ++ (places p front.length ++
            [((p + front.length : Nat) : Int), ((p + front.length : Nat) : Int),
              ((p + front.length : Nat) : Int) - 1])
          requests := requests
          requestLen := check.requestLen + (n + front.length + 1)
          retval := handle requests }
      if rest = [] ∨ after.retval ≠ 0 then after
      else checkLoop handle rest 0 (p + front.length + 1) 10 rest after := by
  induction front generalizing n p last check with
  | nil =>
    rw [List.nil_append, checkLoop, if_neg (not_not.mpr rfl)]
    rfl
  | cons c front ih =>
    have hc : c ≠ 10 := fun hc => h (hc ▸ List.mem_cons_self)
    rw [List.cons_append, checkLoop, if_pos hc, ih (fun hmem => h (List.mem_cons_of_mem _ hmem))]
    have hlength : p + 1 + front.length = p + (c :: front).length := by
      rw [List.length_cons]; omega
    have hn : n + 1 + front.length = n + (c :: front).length := by
      rw [List.length_cons]; omega
    have hlast : front.getLast?.getD c = (c :: front).getLast?.getD last := by
      rw [List.getLast?_cons, Option.getD_some]
    rw [hlength, hn, hlast, List.length_cons, places_succ p, List.append_assoc]
    rfl

theorem checkLoop_spec (hfill : buffer.length = p + rest.length)
    (hret : (checkLoop handle rest 0 p last rest check).retval = 0) :
    ∃ packets tail, IsSplit [10] rest packets tail ∧
      (checkLoop handle rest 0 p last rest check).requests =
        check.requests ++ handed last packets ∧
      (checkLoop handle rest 0 p last rest check).requestLen =
        check.requestLen + packets.flatten.length ∧
      ((checkLoop handle rest 0 p last rest check).reads.all (inside buffer) = true ↔
        check.reads.all (inside buffer) = true ∧ rest.getLast? = some 10 ∧
          (p = 0 → rest.head? ≠ some 10)) := by
  induction hlength : rest.length using Nat.strongRecOn generalizing rest p last check with
  | ind length ih =>
    by_cases hmem : 10 ∈ rest
    · obtain ⟨front, tail, rfl, hfront⟩ := List.eq_append_cons_of_mem hmem
      have hpacket := isPacket_concat hfront
      have hcut : front ++ 10 :: tail = (front ++ [10]) ++ tail := by
        rw [List.append_assoc, List.singleton_append]
      rw [List.length_append, List.length_cons] at hfill hlength
      have hhead : (p = 0 → (front ++ 10 :: tail).head? ≠ some 10) ↔ p = 0 → front ≠ [] := by
        refine imp_congr_right (fun _ => ?_)
        cases front with
        | nil => exact iff_of_false (fun h => h rfl) (fun h => h rfl)
        | cons c front =>
          refine iff_of_true (fun h => hfront ?_) (List.cons_ne_nil _ _)
          exact Option.some.inj h ▸ List.mem_cons_self
      -- the bytes of the line are in the buffer, and so is the byte before its end
      have hreads : (places p front.length ++ [((p + front.length : Nat) : Int),
          ((p + front.length : Nat) : Int), ((p + front.length : Nat) : Int) - 1]).all
            (inside buffer) = true ↔ (p = 0 → front ≠ []) := by
        rw [List.all_append, Bool.and_eq_true, all_places]
        simp only [inside, List.all_cons, List.all_nil, Bool.and_true, Bool.and_eq_true,
          decide_eq_true_eq]
        have hne : front ≠ [] ↔ 0 < front.length := List.length_pos_iff.symm
        rw [hne]
        omega
      have hstep :
          checkLoop handle (front ++ 10 :: tail) 0 p last (front ++ 10 :: tail) check = _ :=
        checkLoop_line hfront
      rw [Nat.zero_add, requestText_line] at hstep
      generalize htext : (if front ++ [10] = [10] ∧ last = 13 then none
        else some (lineText (front ++ [10]))) = text at hstep
      dsimp only at hstep
      rw [hstep] at hret ⊢
      split_ifs at hret ⊢ with hend
      · have htail : tail = [] := hend.resolve_right (not_not.mpr hret)
        subst htail
        refine ⟨[front ++ [10]], [], ?_, ?_, ?_, ?_⟩
        · have hsplit := IsSplit.cons hpacket
            (IsSplit.none (not_occursAt_of_not_mem (List.not_mem_nil (a := (10 : UInt8)))))
          rwa [List.append_nil] at hsplit
        · rw [handed, htext, List.map_nil]
        · rw [List.flatten_singleton, List.length_append, List.length_singleton]
        · rw [List.all_append, Bool.and_eq_true, hreads, hhead, List.getLast?_concat,
            eq_self, true_and]
      · obtain ⟨packets, last', hsplit, hrequests, hlen, hall⟩ :=
          ih tail.length (by omega) (by omega) hret rfl
        refine ⟨(front ++ [10]) :: packets, last', ?_, ?_, ?_, ?_⟩
        · rw [hcut]
          exact IsSplit.cons hpacket hsplit
        · rw [hrequests, handed_of_ne (by decide), List.append_assoc, handed, htext]
          rfl
        · rw [hlen, List.flatten_cons, List.length_append, List.length_append,
            List.length_singleton, Nat.add_assoc]
        · rw [hall, List.all_append, Bool.and_eq_true, hreads, hhead]
          have htail : tail ≠ [] := fun h => hend (Or.inl h)
          rw [List.getLast?_append_of_ne_nil _ (List.cons_ne_nil _ _),
            List.getLast?_cons_of_ne_nil htail]
          have hp : p + front.length + 1 = 0 → tail.head? ≠ some 10 := fun h => absurd h (by omega)
          rw [and_iff_left hp, and_assoc, and_comm (a := (p = 0 → front ≠ []))]
    · rw [checkLoop_open hmem]
      refine ⟨[], rest, IsSplit.none (not_occursAt_of_not_mem hmem), ?_, rfl, ?_⟩
      · exact (List.append_nil _).symm
      · refine iff_of_false (fun hall => ?_) (fun h => hmem (List.mem_of_getLast? h.2.1))
        rw [List.all_append, Bool.and_eq_true, all_places] at hall
        omega

theorem ircCheckRequest_spec {before : UInt8} {s : Receiver}
    (hret : (ircCheckRequest handle before s).retval = 0) :
    ∃ packets, IsSplit [10] s.buffer packets (ircCheckRequest handle before s).buffer ∧
      (ircCheckRequest handle before s).requests = s.requests ++ handed before packets ∧
      ((ircCheckRequest handle before s).strayed = false ↔ s.strayed = false ∧
        s.buffer.getLast? = some 10 ∧ s.buffer.head? ≠ some 10) := by
  have hfill : s.buffer.length = 0 + s.buffer.length := (Nat.zero_add _).symm
  obtain ⟨packets, tail, hsplit, hrequests, hlen, hreads⟩ := checkLoop_spec hfill hret
  refine ⟨packets, ?_, hrequests, ?_⟩
  · have hbuffer : (ircCheckRequest handle before s).buffer = tail := by
      unfold ircCheckRequest
      dsimp only
      rw [hlen, Nat.zero_add, ← hsplit.stream]
      rw [List.length_append, Nat.add_sub_cancel_left]
      split_ifs with hmove
      · rw [List.drop_left, List.take_length]
      · rcases Nat.eq_zero_or_pos packets.flatten.length with hzero | hpos
        · rw [List.eq_nil_of_length_eq_zero hzero, List.nil_append, List.take_length]
        · have htail : tail = [] := List.eq_nil_of_length_eq_zero (by omega)
          rw [htail, List.length_nil, List.take_zero]
    rw [hbuffer]
    exact hsplit
  · unfold ircCheckRequest
    dsimp only
    rw [Bool.or_eq_false_iff, Bool.not_eq_false', hreads, List.all_nil, eq_self, true_and]
    exact and_congr_right (fun _ => and_congr_right (fun _ => forall_prop_of_true rfl))

/-! ## All calls -/

variable {stream : List UInt8} {packets : List (List UInt8)} {arrivals : List Arrival}
  {arrival : Arrival}

theorem not_mem_rest (h : IsSplit [10] stream packets rest) : 10 ∉ rest := fun hmem => by
  obtain ⟨i, hi⟩ := List.mem_iff_getElem?.mp hmem
  exact h.rest i (occursAt_singleton.mpr hi)

theorem rest_eq_nil_iff (h : IsSplit [10] stream packets rest) : rest = [] ↔ Finished stream := by
  constructor
  · rintro rfl
    rcases List.eq_nil_or_concat packets with rfl | ⟨front, packet, rfl⟩
    · exact Or.inl h.stream.symm
    · refine Or.inr ?_
      have hpacket := h.packet packet (by rw [List.concat_eq_append]; simp)
      have hlast := (hpacket.only _).mpr (Nat.sub_add_cancel hpacket.le)
      rw [occursAt_singleton, List.length_singleton, ← List.getLast?_eq_getElem?] at hlast
      rw [← h.stream, List.append_nil, List.concat_eq_append, List.flatten_append,
        List.flatten_singleton, List.getLast?_append, hlast]
      rfl
  · intro hfinished
    by_contra hne
    have hlast : stream.getLast? = rest.getLast? := by
      rw [← h.stream, List.getLast?_append_of_ne_nil _ hne]
    rcases hfinished with rfl | hten
    · exact hne (List.append_eq_nil_iff.mp h.stream).2
    · exact not_mem_rest h (List.mem_of_getLast? (hlast.symm.trans hten))

theorem streamOf_concat (arrivals : List Arrival) (arrival : Arrival) :
    streamOf (arrivals ++ [arrival]) = streamOf arrivals ++ arrival.bytes := by
  rw [streamOf, List.map_append, List.flatten_append, List.map_singleton, List.flatten_singleton]
  rfl

theorem noReturnBefore_concat : NoReturnBefore (arrivals ++ [arrival]) ↔
    NoReturnBefore arrivals ∧ (Finished (streamOf arrivals) → arrival.bytes.head? = some 10 →
      arrival.before ≠ 13) := by
  constructor
  · intro h
    exact ⟨fun pre last hpre => h pre last (hpre.trans (List.prefix_append _ _)),
      h arrivals arrival (List.prefix_refl _)⟩
  · rintro ⟨hbefore, hlast⟩ pre last hpre
    rcases List.prefix_concat_iff.mp hpre with hsame | hpre
    · obtain ⟨rfl, hone⟩ := List.append_inj' hsame rfl
      obtain rfl := List.singleton_inj.mp hone
      exact hlast
    · exact hbefore pre last hpre

theorem wholeLines_concat : WholeLines (arrivals ++ [arrival]) ↔ WholeLines arrivals ∧
    arrival.bytes.getLast? = some 10 ∧ arrival.bytes.head? ≠ some 10 := by
  rw [WholeLines, List.forall_mem_append, List.forall_mem_singleton]
  rfl

theorem WholeLines.finished (h : WholeLines arrivals) : Finished (streamOf arrivals) := by
  rcases List.eq_nil_or_concat arrivals with rfl | ⟨front, last, rfl⟩
  · exact Or.inl rfl
  · rw [List.concat_eq_append] at h ⊢
    rw [streamOf_concat]
    refine Or.inr ?_
    rw [List.getLast?_append, (wholeLines_concat.mp h).2.1]
    rfl

theorem handed_eq (h : IsSplit [10] buffer packets rest) (before : UInt8) :
    (buffer.head? = some 10 ∧ before = 13 → none ∈ handed before packets) ∧
      (¬ (buffer.head? = some 10 ∧ before = 13) →
        handed before packets = packets.map (fun packet => some (lineText packet))) := by
  cases packets with
  | nil =>
    refine ⟨fun hboth => ?_, fun _ => rfl⟩
    have hrest : rest = buffer := h.stream
    exact absurd (List.mem_of_mem_head? hboth.1) (hrest ▸ not_mem_rest h)
  | cons packet packets =>
    have hpacket := h.packet packet List.mem_cons_self
    have hpos : 0 < packet.length := hpacket.le
    have hhead : buffer.head? = packet.head? := by
      rw [← h.stream, List.flatten_cons, List.append_assoc,
        List.head?_append_of_ne_nil _ (List.ne_nil_of_length_pos hpos)]
    have hfeed : packet = [10] ↔ buffer.head? = some 10 := by
      rw [hhead]
      constructor
      · rintro rfl
        rfl
      · intro hten
        have hlength := (hpacket.only 0).mp
          (occursAt_singleton.mpr (by rw [← List.head?_eq_getElem?, hten]))
        obtain ⟨c, rfl⟩ := List.length_eq_one_iff.mp hlength.symm
        rw [Option.some.inj hten]
    rw [handed]
    refine ⟨fun hboth => ?_, fun hnot => ?_⟩
    · rw [if_pos ⟨hfeed.mpr hboth.1, hboth.2⟩]
      exact List.mem_cons_self
    · rw [if_neg (fun hboth => hnot ⟨hfeed.mp hboth.1, hboth.2⟩), List.map_cons]

/-- What is known after some calls. -/
structure Received (arrivals : List Arrival) (s : Receiver) : Prop where
  split : ∃ packets, IsSplit [10] (streamOf arrivals) packets s.buffer ∧
    (NoReturnBefore arrivals → s.requests = packets.map (fun packet => some (lineText packet)))
  lost : ¬ NoReturnBefore arrivals → none ∈ s.requests
  strayed : s.strayed = false ↔ WholeLines arrivals

theorem Received.receive {s : Receiver} (h : Received arrivals s)
    (hret : (receive handle s arrival).retval = 0) :
    Received (arrivals ++ [arrival]) (receive handle s arrival) := by
  obtain ⟨packets, hsplit, hrequests⟩ := h.split
  have hzero : s.retval = 0 := by
    by_contra hne
    rw [Lines.receive, if_pos hne] at hret
    exact hne hret
  rw [Lines.receive, if_neg (not_not.mpr hzero)] at hret ⊢
  obtain ⟨more, hmore, hhanded, hstrayed⟩ := ircCheckRequest_spec hret
  dsimp only at hmore hhanded hstrayed
  have hnew := hsplit.append hmore
  rw [← streamOf_concat] at hnew
  have hhead : (s.buffer ++ arrival.bytes).head? = some 10 ↔
      Finished (streamOf arrivals) ∧ arrival.bytes.head? = some 10 := by
    rw [← rest_eq_nil_iff hsplit]
    by_cases hnil : s.buffer = []
    · rw [hnil, List.nil_append, and_iff_right rfl]
    · rw [List.head?_append_of_ne_nil _ hnil]
      refine iff_of_false (fun hten => ?_) (fun hboth => hnil hboth.1)
      exact not_mem_rest hsplit (List.mem_of_mem_head? hten)
  obtain ⟨hlost, hkept⟩ := handed_eq hmore arrival.before
  refine ⟨⟨_, hnew, fun hno => ?_⟩, fun hreturn => ?_, ?_⟩
  · obtain ⟨hno, hlast⟩ := noReturnBefore_concat.mp hno
    rw [hhanded, hrequests hno, List.map_append, hkept]
    rintro ⟨hten, hthirteen⟩
    exact hlast (hhead.mp hten).1 (hhead.mp hten).2 hthirteen
  · rw [hhanded]
    by_cases hno : NoReturnBefore arrivals
    · refine List.mem_append_right _ (hlost ?_)
      by_contra hnot
      refine hreturn (noReturnBefore_concat.mpr ⟨hno, fun hfinished hten hthirteen => ?_⟩)
      exact hnot ⟨hhead.mpr ⟨hfinished, hten⟩, hthirteen⟩
    · exact List.mem_append_left _ (h.lost hno)
  · rw [hstrayed, h.strayed, wholeLines_concat]
    refine and_congr_right (fun hwhole => ?_)
    rw [(rest_eq_nil_iff hsplit).mpr hwhole.finished, List.nil_append]

theorem receiveAll_concat (arrivals : List Arrival) (arrival : Arrival) :
    receiveAll handle (arrivals ++ [arrival]) =
      receive handle (receiveAll handle arrivals) arrival :=
  List.foldl_concat _ _ _ _

theorem received_all (hret : (receiveAll handle arrivals).retval = 0) :
    Received arrivals (receiveAll handle arrivals) := by
  induction arrivals using List.reverseRecOn with
  | nil =>
    refine ⟨⟨[], IsSplit.none (not_occursAt_of_not_mem List.not_mem_nil), fun _ => rfl⟩,
      fun hno => absurd ?_ hno, iff_of_true rfl (fun _ hmem => absurd hmem List.not_mem_nil)⟩
    intro pre arrival hpre
    exact absurd (List.prefix_nil.mp hpre) (by simp)
  | append_singleton front last ih =>
    rw [receiveAll_concat] at hret ⊢
    refine Received.receive (ih ?_) hret
    by_contra hne
    rw [receive, if_pos hne] at hret
    exact hne hret

/-- The requests are the lines, and only bytes in the buffer are read. -/
def KeepsLines (handle : List (Option (List UInt8)) → Int) (arrivals : List Arrival) : Prop :=
  Framed arrivals (receiveAll handle arrivals) ∧ (receiveAll handle arrivals).strayed = false

/-- As long as the results are 0, all is well exactly if only whole lines come in at once, of which
the first is not only a line feed. The requests alone are the lines exactly if no line that is only
a line feed comes at the beginning of the buffer behind a carriage return. -/
theorem keepsLines_iff (handle : List (Option (List UInt8)) → Int) (arrivals : List Arrival)
    (hret : (receiveAll handle arrivals).retval = 0) :
    (KeepsLines handle arrivals ↔ WholeLines arrivals) ∧
      (Framed arrivals (receiveAll handle arrivals) ↔ NoReturnBefore arrivals) := by
  have hreceived := received_all hret
  have hframes : Framed arrivals (receiveAll handle arrivals) ↔ NoReturnBefore arrivals := by
    refine ⟨fun hframed => ?_, fun hno => ?_⟩
    · by_contra hnot
      obtain ⟨packets, -, hrequests⟩ := hframed
      have hnone := hreceived.lost hnot
      rw [hrequests] at hnone
      obtain ⟨packet, -, hsome⟩ := List.mem_map.mp hnone
      exact Option.some_ne_none _ hsome
    · obtain ⟨packets, hsplit, hrequests⟩ := hreceived.split
      exact ⟨packets, hsplit, hrequests hno⟩
  refine ⟨?_, hframes⟩
  rw [KeepsLines, hframes, hreceived.strayed]
  refine and_iff_right_of_imp (fun hwhole pre arrival hpre _ hten => ?_)
  have hmem : arrival ∈ arrivals :=
    hpre.subset (List.mem_append_right _ (List.mem_singleton_self _))
  exact absurd hten (hwhole arrival hmem).2

/-- Two reads bring one and two lines, the last of which is only a line feed. -/
theorem keepsLines_threeLines :
    KeepsLines (fun _ => 0) [⟨[65, 13, 10], 0⟩, ⟨[66, 67, 10, 10], 13⟩] := by
  refine (keepsLines_iff (fun _ => 0) _ rfl).1.mpr ?_
  unfold WholeLines
  simp

/-- A part of a line comes in, and the byte behind it is read. -/
theorem unfinished_not_keepsLines :
    ¬ ∀ (handle : List (Option (List UInt8)) → Int) (arrivals : List Arrival),
      (receiveAll handle arrivals).retval = 0 → KeepsLines handle arrivals := by
  intro hall
  have hstrayed := (hall (fun _ => 0) [⟨[65], 0⟩] rfl).2
  exact Bool.noConfusion hstrayed

end Serveez.Irc.Lines
