import Serveez.Recv.Boundary
import Serveez.Lib.Framing

/-!
# Packets do not depend on how the stream arrives

Both routines that look for a boundary compute the split of the receive buffer, and the rest
of one call is split again together with the bytes of the next one.

* `dispatch_spec`: what the two loops do, for any test that finds the boundary.
* `receiveAll_isSplit`: the packets and the rest after any sequence of reads.
* `unibyte_eq_general`: the routine for one byte is the general one.
-/

namespace Serveez.Recv

open Lib

/-! ## The loops -/

theorem scan_spec (isBoundary : Nat → Bool) (limit : Int) : ∀ n p : Nat, limit ≤ p + n →
    p ≤ scan isBoundary limit n p ∧
      (∀ i, p ≤ i → i < scan isBoundary limit n p → isBoundary i = false) ∧
      ((scan isBoundary limit n p : Int) < limit →
        isBoundary (scan isBoundary limit n p) = true) := by
  intro n
  induction n with
  | zero =>
    intro p hlimit
    refine ⟨Nat.le_refl _, fun i hi hlt => ?_, fun hlt => ?_⟩
    · exact absurd hlt (Nat.not_lt.mpr hi)
    · exact absurd hlt (Int.not_lt.mpr (by simpa [scan] using hlimit))
  | succ n ih =>
    intro p hlimit
    rw [scan]
    by_cases hgo : ((decide ((p : Int) < limit)) && !isBoundary p) = true
    · rw [if_pos hgo]
      obtain ⟨hle, hbefore, hat⟩ := ih (p + 1) (by push_cast at hlimit ⊢; omega)
      refine ⟨by omega, fun i hi hlt => ?_, hat⟩
      rcases Nat.eq_or_lt_of_le hi with rfl | hi
      · simp only [Bool.and_eq_true, Bool.not_eq_true'] at hgo
        exact hgo.2
      · exact hbefore i hi hlt
    · rw [if_neg hgo]
      refine ⟨Nat.le_refl _, fun i hi hlt => absurd hlt (Nat.not_lt.mpr hi), fun hlt => ?_⟩
      simpa [hlt] using hgo

/-- The test finds the occurrences of the boundary, and they all start below the limit. -/
structure Finds (b buffer : List UInt8) (isBoundary : Nat → Bool) (limit : Int) : Prop where
  below : ∀ p : Nat, (p : Int) < limit → (isBoundary p = true ↔ OccursAt b buffer p)
  above : ∀ p : Nat, limit ≤ p → ¬ OccursAt b buffer p

section Finds

variable {b buffer : List UInt8} {isBoundary : Nat → Bool} {limit : Int} {j k : Nat}

theorem Finds.not_occursAt (hfinds : Finds b buffer isBoundary limit)
    (hbefore : ∀ i, k ≤ i → i < j → isBoundary i = false) {i : Nat} (hi : k + i < j) :
    ¬ OccursAt b (buffer.drop k) i := by
  intro hocc
  rw [occursAt_drop] at hocc
  by_cases hlt : ((k + i : Nat) : Int) < limit
  · have hfalse := hbefore (k + i) (Nat.le_add_right k i) hi
    rw [(hfinds.below _ hlt).mpr hocc] at hfalse
    cases hfalse
  · exact hfinds.above _ (Int.not_lt.mp hlt) hocc

/-- Without a boundary below the limit, the bytes from `k` on are the rest. -/
theorem Finds.isSplit_none (hfinds : Finds b buffer isBoundary limit)
    (hbefore : ∀ i, k ≤ i → i < j → isBoundary i = false) (hlimit : limit ≤ j) :
    IsSplit b (buffer.drop k) [] (buffer.drop k) := by
  refine IsSplit.none fun i hi => ?_
  by_cases hij : k + i < j
  · exact hfinds.not_occursAt hbefore hij hi
  · rw [occursAt_drop] at hi
    exact hfinds.above _ (by push_cast; omega) hi

/-- The bytes from `k` to the first boundary, at `j`, are a packet. -/
theorem Finds.isPacket (hfinds : Finds b buffer isBoundary limit) (hb : b ≠ []) (hle : k ≤ j)
    (hbefore : ∀ i, k ≤ i → i < j → isBoundary i = false) (hlt : (j : Int) < limit)
    (hat : isBoundary j = true) :
    IsPacket b ((buffer.drop k).take (j + b.length - k)) ∧ j + b.length ≤ buffer.length := by
  have hocc := (hfinds.below j hlt).mp hat
  have hocc' : OccursAt b (buffer.drop k) (j - k) := by
    rw [occursAt_drop, Nat.add_sub_cancel' hle]
    exact hocc
  have hpacket := isPacket_take hb hocc' (fun i hi => hfinds.not_occursAt hbefore (by omega))
  rw [show j - k + b.length = j + b.length - k by omega] at hpacket
  exact ⟨hpacket, hocc.le hb⟩

end Finds

theorem take_append_drop_from {buffer : List UInt8} {k n : Nat} (hle : k ≤ n) :
    (buffer.drop k).take (n - k) ++ buffer.drop n = buffer.drop k := by
  have hdrop : (buffer.drop k).drop (n - k) = buffer.drop n := by
    rw [List.drop_drop, Nat.add_sub_cancel' hle]
  rw [← hdrop, List.take_append_drop]

/-- What a call of a routine changes. -/
def sockAfter (sock : Sock) (packets : List (List UInt8)) (rest : List UInt8) : Sock :=
  { sock with handled := sock.handled ++ packets, recvBuffer := rest }

theorem dispatch_spec {h : List UInt8 → Int} (hzero : ∀ packet, h packet = 0)
    {b buffer : List UInt8} (hb : b ≠ []) {isBoundary : Nat → Bool} {limit : Int}
    (hfinds : Finds b buffer isBoundary limit) :
    ∀ (fuel : Nat) (sock : Sock) (k : Nat), sock.recvBuffer = buffer → k ≤ buffer.length →
      buffer.length < k + fuel →
      ∃ packets rest,
        dispatch (some h) isBoundary b.length limit fuel sock k k k =
          some (sockAfter sock packets rest, 0) ∧
        IsSplit b (buffer.drop k) packets rest := by
  intro fuel
  induction fuel with
  | zero =>
    intro sock k _ hk hfuel
    omega
  | succ fuel ih =>
    intro sock k hbuf hk hfuel
    have hpos := List.length_pos_iff.mpr hb
    obtain ⟨hle, hbefore, hat⟩ :=
      scan_spec isBoundary limit (limit - k).toNat k (by omega)
    rw [dispatch]
    generalize scan isBoundary limit (limit - k).toNat k = j at hle hbefore hat
    by_cases hlt : (j : Int) < limit
    · obtain ⟨hpacket, hend⟩ := hfinds.isPacket hb hle hbefore hlt (hat hlt)
      have hcut := @take_append_drop_from buffer k (j + b.length) (by omega)
      have hadd : k + (j + b.length - k) = j + b.length := by omega
      simp only [hlt, hat hlt, decide_true, Bool.and_self, if_true, handleRequest, hzero, ne_eq,
        not_true_eq_false, if_false, hbuf, hadd]
      by_cases hmore : ((j + b.length : Nat) : Int) < limit
      · rw [if_pos hmore]
        obtain ⟨packets, rest, heq, hsplit⟩ := ih
          { sock with handled := sock.handled ++ [(buffer.drop k).take (j + b.length - k)] }
          (j + b.length) hbuf (by omega) (by omega)
        refine ⟨(buffer.drop k).take (j + b.length - k) :: packets, rest, ?_, ?_⟩
        · rw [← hbuf] at heq ⊢
          rw [heq]
          simp [sockAfter]
        · have hcons := hsplit.cons hpacket
          rwa [hcut] at hcons
      · rw [if_neg hmore]
        -- fewer bytes than a boundary are left
        have hrest := @Finds.isSplit_none _ _ _ _ (j + b.length) (j + b.length) hfinds
          (fun i hi hi' => absurd hi' (Nat.not_lt.mpr hi)) (Int.not_lt.mp hmore)
        refine ⟨[(buffer.drop k).take (j + b.length - k)], buffer.drop (j + b.length), ?_, ?_⟩
        · simp [sockAfter, svzSockReduceRecv]
        · have hcons := hrest.cons hpacket
          rwa [hcut] at hcons
    · refine ⟨[], buffer.drop k, ?_, hfinds.isSplit_none hbefore (Int.not_lt.mp hlt)⟩
      simp [hlt, sockAfter, svzSockReduceRecv, hbuf]

/-! ## The routines -/

/-- The socket cuts its stream at the boundary `b`. -/
structure CutsAt (b : List UInt8) (sock : Sock) : Prop where
  boundary : sock.boundary = some b
  size : sock.boundarySize = b.length

theorem finds_general {b : List UInt8} (hb : b ≠ []) {sock : Sock} (h : CutsAt b sock) :
    Finds b sock.recvBuffer (isBoundaryAt sock b)
      (sock.recvBuffer.length - sock.boundarySize + 1) where
  below := by
    intro p hp
    unfold isBoundaryAt OccursAt
    rw [h.size, Int.toNat_natCast, List.take_length, beq_iff_eq, List.prefix_iff_eq_take]
    exact eq_comm
  above := by
    intro p hp hocc
    have hle := hocc.le hb
    rw [h.size] at hp
    omega

theorem splitPacketAndDispatch_spec {h : List UInt8 → Int} (hzero : ∀ packet, h packet = 0)
    {b : List UInt8} (hb : b ≠ []) {sock : Sock} (hcuts : CutsAt b sock) :
    ∃ packets rest,
      splitPacketAndDispatch (some h) sock b = some (sockAfter sock packets rest, 0) ∧
      IsSplit b sock.recvBuffer packets rest := by
  unfold splitPacketAndDispatch
  obtain ⟨packets, rest, heq, hsplit⟩ := dispatch_spec hzero hb (finds_general hb hcuts)
    (sock.recvBuffer.length + 1) sock 0 rfl (Nat.zero_le _) (by omega)
  refine ⟨packets, rest, ?_, hsplit⟩
  rw [← heq, hcuts.size, Int.toNat_natCast]

theorem isByteAt_eq_isBoundaryAt {sock : Sock} (hsize : sock.boundarySize = 1) (c : UInt8) :
    isByteAt sock [c] = isBoundaryAt sock [c] := by
  ext p
  unfold isByteAt isBoundaryAt
  rw [hsize, ← List.head?_drop]
  cases sock.recvBuffer.drop p with
  | nil => rfl
  | cons x rest =>
    show (some x == some c) = ([x] == [c])
    simp

/-- The fast routine for a boundary of one byte does what the general routine does. -/
theorem unibyte_eq_general (handler : Handler) {sock : Sock} (hsize : sock.boundarySize = 1)
    (c : UInt8) :
    splitPacketUnibyteAndDispatch handler sock [c] = splitPacketAndDispatch handler sock [c] := by
  unfold splitPacketUnibyteAndDispatch splitPacketAndDispatch
  rw [isByteAt_eq_isBoundaryAt hsize, hsize, Int.sub_add_cancel]
  rfl

/-! ## Reads -/

/-- The routine is the one for the boundary, or it is still to be chosen. -/
structure Reads (b : List UInt8) (sock : Sock) : Prop extends CutsAt b sock where
  routine : sock.checkRequest = .svzSockCheckRequest ∨ sock.checkRequest = chooseRoutine sock

theorem callRoutine_spec {h : List UInt8 → Int} (hzero : ∀ packet, h packet = 0)
    {b : List UInt8} (hb : b ≠ []) {sock : Sock} (hcuts : CutsAt b sock) :
    ∃ packets rest,
      callRoutine (some h) sock (chooseRoutine sock) = some (sockAfter sock packets rest, 0) ∧
      IsSplit b sock.recvBuffer packets rest := by
  obtain ⟨packets, rest, heq, hsplit⟩ := splitPacketAndDispatch_spec hzero hb hcuts
  refine ⟨packets, rest, ?_, hsplit⟩
  have hpos := List.length_pos_iff.mpr hb
  unfold chooseRoutine
  rw [hcuts.boundary]
  by_cases hlong : sock.boundarySize > 1
  · simp only [hlong, if_true, callRoutine, hcuts.boundary, Option.bind_some]
    exact heq
  · have hone : b.length = 1 := by
      have hsize := hcuts.size
      omega
    obtain ⟨c, rfl⟩ := List.length_eq_one_iff.mp hone
    simp only [hlong, if_false, callRoutine, hcuts.boundary, Option.bind_some]
    rw [unibyte_eq_general (some h) hcuts.size, heq]

theorem checkRequest_spec {h : List UInt8 → Int} (hzero : ∀ packet, h packet = 0)
    {b : List UInt8} (hb : b ≠ []) {sock : Sock} (hreads : Reads b sock) :
    ∃ sock' packets rest, checkRequest (some h) sock = some (sock', 0) ∧ Reads b sock' ∧
      sock'.handled = sock.handled ++ packets ∧ sock'.recvBuffer = rest ∧
      IsSplit b sock.recvBuffer packets rest := by
  have hpos := List.length_pos_iff.mpr hb
  have hsize : ¬ sock.boundarySize ≤ 0 := by
    have hsize := hreads.size
    omega
  -- the same socket with the routine chosen
  have hcuts : CutsAt b { sock with checkRequest := chooseRoutine sock } :=
    ⟨hreads.boundary, hreads.size⟩
  obtain ⟨packets, rest, heq, hsplit⟩ := callRoutine_spec hzero hb hcuts
  refine ⟨sockAfter { sock with checkRequest := chooseRoutine sock } packets rest, packets, rest,
    ?_, ⟨⟨hreads.boundary, hreads.size⟩, Or.inr rfl⟩, rfl, rfl, hsplit⟩
  rw [← heq]
  unfold checkRequest
  rcases hreads.routine with hdefault | hchosen
  · rw [hdefault]
    simp only [svzSockCheckRequest, hsize, if_false]
    rfl
  · have hsame : { sock with checkRequest := chooseRoutine sock } = sock := by
      rw [← hchosen]
    rw [hsame, hchosen]
    unfold chooseRoutine
    rw [hreads.boundary]
    by_cases hlong : sock.boundarySize > 1
    · simp only [hlong, if_true]
    · simp only [hlong, if_false]

theorem receiveAll_spec {h : List UInt8 → Int} (hzero : ∀ packet, h packet = 0)
    {b : List UInt8} (hb : b ≠ []) :
    ∀ (chunks : List (List UInt8)) (stream : List UInt8) (sock : Sock), Reads b sock →
      IsSplit b stream sock.handled sock.recvBuffer →
      ∃ sock', receiveAll (some h) sock chunks = some (sock', 0) ∧ Reads b sock' ∧
        IsSplit b (stream ++ chunks.flatten) sock'.handled sock'.recvBuffer := by
  intro chunks
  induction chunks with
  | nil =>
    intro stream sock hreads hsplit
    refine ⟨sock, rfl, hreads, ?_⟩
    rw [List.flatten_nil, List.append_nil]
    exact hsplit
  | cons bytes chunks ih =>
    intro stream sock hreads hsplit
    have hreads' : Reads b { sock with recvBuffer := sock.recvBuffer ++ bytes } :=
      ⟨⟨hreads.boundary, hreads.size⟩, hreads.routine⟩
    obtain ⟨next, packets, rest, heq, hnext, hhandled, hrest, hmore⟩ :=
      checkRequest_spec hzero hb hreads'
    have hstep : IsSplit b (stream ++ bytes) next.handled next.recvBuffer := by
      rw [hhandled, hrest]
      exact hsplit.append hmore
    obtain ⟨sock', hall, hreads'', hsplit'⟩ := ih (stream ++ bytes) next hnext hstep
    refine ⟨sock', ?_, hreads'', ?_⟩
    · rw [receiveAll, receive, heq]
      exact hall
    · rw [List.flatten_cons, ← List.append_assoc]
      exact hsplit'

/-- **Framing.** However a stream is cut into reads, with a callback that returns zero the
packets handled so far and the receive buffer are the one split of the stream at the boundary;
and the routine for boundaries of one byte does the same as the general routine. -/
theorem receiveAll_isSplit (b : List UInt8) (hb : b ≠ []) (h : List UInt8 → Int)
    (hzero : ∀ packet, h packet = 0) (chunks : List (List UInt8)) :
    (∃ sock, receiveAll (some h) (newSock b) chunks = some (sock, 0) ∧
      ∀ packets rest, IsSplit b chunks.flatten packets rest ↔
        packets = sock.handled ∧ rest = sock.recvBuffer) ∧
    ∀ (handler : Handler) (c : UInt8) (sock : Sock), sock.boundarySize = 1 →
      splitPacketUnibyteAndDispatch handler sock [c] =
        splitPacketAndDispatch handler sock [c] := by
  refine ⟨?_, fun handler c sock hsize => unibyte_eq_general handler hsize c⟩
  have hnew : Reads b (newSock b) := ⟨⟨rfl, rfl⟩, Or.inl rfl⟩
  have hempty : IsSplit b [] (newSock b).handled (newSock b).recvBuffer := by
    refine IsSplit.none fun i hi => ?_
    have hle := hi.le hb
    have hpos := List.length_pos_iff.mpr hb
    rw [List.length_nil] at hle
    omega
  obtain ⟨sock, hall, -, hsplit⟩ := receiveAll_spec hzero hb chunks [] (newSock b) hnew hempty
  rw [List.nil_append] at hsplit
  refine ⟨sock, hall, fun packets rest => ⟨fun h' => h'.unique hsplit, ?_⟩⟩
  intro heq
  rw [heq.1, heq.2]
  exact hsplit

/-- A boundary of two bytes that arrives in two reads. -/
theorem receiveAll_isSplit_crlf :
    IsSplit [13, 10] ([[65, 13], [10, 66]] : List (List UInt8)).flatten [[65, 13, 10]] [66] := by
  obtain ⟨⟨sock, hall, hsplit⟩, -⟩ := receiveAll_isSplit [13, 10] (by decide) (fun _ => 0)
    (fun _ => rfl) [[65, 13], [10, 66]]
  have hrun : receiveAll (some fun _ => 0) (newSock [13, 10]) [[65, 13], [10, 66]] =
      some (⟨[66], some [13, 10], 2, .splitPacketAndDispatch, [[65, 13, 10]]⟩, 0) := by
    decide +kernel
  rw [hrun] at hall
  cases hall
  exact (hsplit _ _).mpr ⟨rfl, rfl⟩

end Serveez.Recv
