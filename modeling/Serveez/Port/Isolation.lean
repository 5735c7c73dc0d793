import Mathlib.Data.List.TakeDrop
import Serveez.Port.Datagram
import Serveez.Lib.Runs

/-!
# Isolation of datagrams

The readers append a datagram to the receive buffer before they check the access lists, and
return without clearing it when the sender is denied. So the bytes of a denied datagram stand
in front of the next one. A UDP datagram that does not fit is cut, and an ICMP packet that is
shorter than its headers makes the reader copy a negative number of bytes.

* `udpReadSocket_isolated_iff`, `icmpReadPacket_isolated_iff`: when one read keeps datagrams
  apart.
* `isolated_run_iff`: the runs in which each callback gets one allowed datagram, whole and
  alone.
-/

namespace Serveez.Port

open Lib

/-! ## The callbacks -/

theorem offer_eq_nil_iff (handles : Handles) (bindings : List Binding) :
    offer handles bindings = [] ↔
      ∀ binding ∈ bindings, binding.server.handleRequest = false := by
  induction bindings with
  | nil => simp [offer]
  | cons binding rest ih =>
    rw [offer, List.forall_mem_cons]
    cases hd : binding.server.handleRequest with
    | false => simpa using ih
    | true =>
      simp only [Bool.not_true, Bool.false_eq_true, if_false]
      split <;> simp

/-- There is a `handle_request` callback for the datagrams of the socket. -/
def Reaches (sock : DgramSock) : Prop :=
  sock.handleRequest = true ∨
    ∃ binding ∈ svzBindingFilter sock.bindings sock.localInfo,
      binding.server.handleRequest = true

theorem checkDatagram_calls_eq_nil_iff (handles : Handles) (sock : DgramSock) :
    (checkDatagram handles sock).2.2 = [] ↔ ¬ Reaches sock := by
  unfold checkDatagram Reaches
  cases hh : sock.handleRequest with
  | true =>
    simp only [Bool.not_true, Bool.and_false, Bool.false_eq_true, if_false, if_true]
    split <;> simp
  | false =>
    cases hb : sock.bindings with
    | none =>
      have hnil : svzBindingFilter none sock.localInfo = [] := by
        cases sock.localInfo <;> rfl
      simp [hnil]
    | some bindings => simp [offer_eq_nil_iff]

theorem checkDatagram_port (handles : Handles) (sock : DgramSock) :
    (checkDatagram handles sock).1.port = sock.port := by
  unfold checkDatagram
  split
  · rfl
  · split
    · split <;> rfl
    · rfl

/-- A callback gets one datagram, whole and alone, and its sender is allowed. -/
def Delivery.Isolated (port : Option PortCfg) (d : Delivery) : Prop :=
  d.leftover = [] ∧ d.bytes = d.payload ∧ ¬ svzSockCheckAccess port d.sender < 0

theorem forall_deliveries_iff {before sock : DgramSock} {payload : List UInt8}
    {called : List (Option Nat)} {port : Option PortCfg} :
    (∀ d ∈ deliveries before sock payload called, d.Isolated port) ↔
      (called ≠ [] → before.recvBuffer = [] ∧ sock.recvBuffer = payload ∧
        ¬ svzSockCheckAccess port sock.remoteAddr < 0) := by
  unfold deliveries
  rw [List.forall_mem_map]
  constructor
  · intro hall hne
    obtain ⟨server, rest, rfl⟩ := List.exists_cons_of_ne_nil hne
    exact hall server List.mem_cons_self
  · intro hgood server hmem
    exact hgood (List.ne_nil_of_mem hmem)

/-! ## UDP -/

/-- A datagram of an allowed sender for which there is a callback finds the buffer empty and
large enough. -/
def UdpSeparate (sock : DgramSock) (datagram : Datagram) : Prop :=
  sock.recvBuffer.length < sock.recvBufferSize → datagram.payload ≠ [] →
    ¬ svzSockCheckAccess sock.port datagram.sender < 0 → Reaches sock →
    sock.recvBuffer = [] ∧ datagram.payload.length ≤ sock.recvBufferSize

/-- The empty buffer that takes all of the datagram. -/
theorem append_take_eq_iff {buffer payload : List UInt8} {size : Nat} :
    buffer = [] ∧ buffer ++ payload.take (size - buffer.length) = payload ↔
      buffer = [] ∧ payload.length ≤ size := by
  refine and_congr_right ?_
  rintro rfl
  rw [List.nil_append, List.length_nil, Nat.sub_zero, List.take_eq_self_iff]

section Udp

variable {handles : Handles} {sock : DgramSock} {datagram : Datagram}

theorem udpReadSocket_full (hfull : sock.recvBufferSize ≤ sock.recvBuffer.length) :
    udpReadSocket handles sock datagram = (sock, -1, []) := if_pos hfull

theorem udpReadSocket_empty (hroom : sock.recvBuffer.length < sock.recvBufferSize)
    (hnil : datagram.payload = []) :
    udpReadSocket handles sock datagram = (sock, if datagram.unavailable then 0 else -1, []) := by
  unfold udpReadSocket
  rw [if_neg (Nat.not_le.mpr hroom)]
  simp only [hnil, List.take_nil, if_true]

/-- The socket with the datagram in its buffer. -/
def udpRead (sock : DgramSock) (datagram : Datagram) : DgramSock :=
  { sock with
    recvBuffer := sock.recvBuffer ++
      datagram.payload.take (sock.recvBufferSize - sock.recvBuffer.length)
    remotePort := datagram.senderPort
    remoteAddr := datagram.sender }

theorem udpReadSocket_read (hroom : sock.recvBuffer.length < sock.recvBufferSize)
    (hne : datagram.payload ≠ []) :
    udpReadSocket handles sock datagram =
      if svzSockCheckAccess sock.port datagram.sender < 0 then (udpRead sock datagram, 0, [])
      else
        ((svzUdpCheckRequest handles (udpRead sock datagram)).1,
          if (svzUdpCheckRequest handles (udpRead sock datagram)).2.1 ≠ 0 then -1 else 0,
          deliveries sock (udpRead sock datagram) datagram.payload
            (svzUdpCheckRequest handles (udpRead sock datagram)).2.2) := by
  have hbytes :
      datagram.payload.take (sock.recvBufferSize - sock.recvBuffer.length) ≠ [] := by
    intro hnil
    rcases List.take_eq_nil_iff.mp hnil with hzero | hnil
    · omega
    · exact hne hnil
  unfold udpReadSocket
  rw [if_neg (Nat.not_le.mpr hroom)]
  simp only [hbytes, if_false]
  rfl

end Udp

theorem udpReadSocket_isolated_iff (handles : Handles) (sock : DgramSock) (datagram : Datagram) :
    (udpReadSocket handles sock datagram).1.port = sock.port ∧
      ((∀ d ∈ (udpReadSocket handles sock datagram).2.2, d.Isolated sock.port) ↔
        UdpSeparate sock datagram) := by
  by_cases hroom : sock.recvBuffer.length < sock.recvBufferSize
  swap
  · rw [udpReadSocket_full (Nat.not_lt.mp hroom)]
    exact ⟨rfl, iff_of_true (by simp) (fun hroom' => absurd hroom' hroom)⟩
  by_cases hnil : datagram.payload = []
  · rw [udpReadSocket_empty hroom hnil]
    exact ⟨rfl, iff_of_true (by simp) (fun _ hne => absurd hnil hne)⟩
  rw [udpReadSocket_read hroom hnil]
  by_cases hdeny : svzSockCheckAccess sock.port datagram.sender < 0
  · rw [if_pos hdeny]
    exact ⟨rfl, iff_of_true (by simp) (fun _ _ hallow => absurd hdeny hallow)⟩
  rw [if_neg hdeny]
  refine ⟨checkDatagram_port handles _, forall_deliveries_iff.trans ?_⟩
  have hcalls : (svzUdpCheckRequest handles (udpRead sock datagram)).2.2 ≠ [] ↔ Reaches sock :=
    (not_congr (checkDatagram_calls_eq_nil_iff handles (udpRead sock datagram))).trans not_not
  rw [hcalls]
  constructor
  · intro hgood _ _ _ hreach
    obtain ⟨hleft, hbytes, -⟩ := hgood hreach
    exact append_take_eq_iff.mp ⟨hleft, hbytes⟩
  · intro hsep hreach
    obtain ⟨hleft, hbytes⟩ := append_take_eq_iff.mpr (hsep hroom hnil hdeny hreach)
    exact ⟨hleft, hbytes, hdeny⟩

/-! ## ICMP -/

theorem checkPacket_sock (sock : DgramSock) (buffer : List UInt8) (len : Nat) :
    ∃ remotePort, (checkPacket sock buffer len).1 = { sock with remotePort } := by
  unfold checkPacket
  simp only
  split_ifs
  all_goals exact ⟨_, rfl⟩

theorem svzRawCheckIpHeader_eq {data : List UInt8} {len : Nat}
    (h : svzRawCheckIpHeader data len ≠ -1) : svzRawCheckIpHeader data len = ipHdrLength data := by
  unfold svzRawCheckIpHeader at h ⊢
  split_ifs at h ⊢
  all_goals first | exact absurd rfl h | rfl

theorem checkPacket_trunc {sock : DgramSock} {buffer : List UInt8} {len : Nat}
    (h : 0 ≤ (checkPacket sock buffer len).2) :
    (checkPacket sock buffer len).2 = ((ipHdrLength buffer + icmpHeaderSize : Nat) : Int) := by
  unfold checkPacket icmpError icmpDisconnect at h ⊢
  simp only at h ⊢
  split_ifs at h ⊢ with hlen
  · exact absurd (show (0 : Int) ≤ -1 from h) (by decide)
  · exact absurd (show (0 : Int) ≤ -1 from h) (by decide)
  · exact absurd (show (0 : Int) ≤ -1 from h) (by decide)
  · exact absurd (show (0 : Int) ≤ -1 from h) (by decide)
  · exact absurd (show (0 : Int) ≤ -1 from h) (by decide)
  · exact absurd (show (0 : Int) ≤ -2 from h) (by decide)
  · show svzRawCheckIpHeader buffer len + icmpHeaderSize = _
    rw [svzRawCheckIpHeader_eq hlen, Int.natCast_add]

section Icmp

variable {handles : Handles} {sock : DgramSock} {packet : IpPacket} {stale : List UInt8}

theorem IpPacket.ne_nil (packet : IpPacket) : packet.bytes ≠ [] := by
  intro hnil
  have hheader := packet.header
  rw [hnil] at hheader
  exact absurd hheader (by decide)

theorem ipHdrLength_icmpBuffer (packet : IpPacket) (stale : List UInt8) :
    ipHdrLength (icmpBuffer packet stale) = ipHdrLength packet.bytes := by
  obtain ⟨byte, bytes, hbytes⟩ := List.exists_cons_of_ne_nil packet.ne_nil
  unfold icmpBuffer
  rw [hbytes]
  rfl

theorem icmpBuffer_payload (packet : IpPacket) (stale : List UInt8) :
    ((rejectChecksum (icmpBuffer packet stale)).drop
        (ipHdrLength packet.bytes + icmpHeaderSize)).take
        (packet.bytes.length - (ipHdrLength packet.bytes + icmpHeaderSize)) =
      packet.payload := by
  have hheader := packet.header
  have hofs : 11 < ipHdrLength packet.bytes + icmpHeaderSize := by
    unfold ipHdrLength byteAt icmpHeaderSize
    omega
  unfold rejectChecksum icmpBuffer IpPacket.payload
  rw [List.drop_set, if_pos hofs, List.drop_set, if_pos (by omega)]
  rcases Nat.le_total (ipHdrLength packet.bytes + icmpHeaderSize) packet.bytes.length with hle | hle
  · rw [List.drop_append_of_le_length hle, List.take_left' List.length_drop]
  · rw [Nat.sub_eq_zero_of_le hle, List.take_zero, List.drop_eq_nil_of_le hle]

/-- What `check_packet` says of the packet. -/
def truncOf (sock : DgramSock) (packet : IpPacket) (stale : List UInt8) : Int :=
  (checkPacket { sock with remoteAddr := packet.sender } (icmpBuffer packet stale)
    packet.bytes.length).2

theorem icmpReadPacket_rejected (hneg : truncOf sock packet stale < 0) :
    ∃ remotePort ret, icmpReadPacket handles sock packet stale =
      .ok ({ sock with remoteAddr := packet.sender, remotePort }, ret, []) := by
  obtain ⟨remotePort, hsock⟩ := checkPacket_sock { sock with remoteAddr := packet.sender }
    (icmpBuffer packet stale) packet.bytes.length
  unfold truncOf at hneg
  unfold icmpReadPacket
  simp only [hsock, hneg, if_true]
  split
  · exact ⟨remotePort, -1, rfl⟩
  · exact ⟨remotePort, 0, rfl⟩

/-- The rest of the reader, for a packet that `check_packet` lets pass. -/
theorem icmpReadPacket_passed (hpos : 0 ≤ truncOf sock packet stale) :
    ∃ remotePort, icmpReadPacket handles sock packet stale =
      if packet.bytes.length - truncOf sock packet stale >
          (sock.recvBufferSize : Int) - sock.recvBuffer.length then
        .ok ({ sock with remoteAddr := packet.sender, remotePort }, -1, [])
      else if (packet.bytes.length : Int) < truncOf sock packet stale then .error .negativeCopy
      else
        let read : DgramSock := { sock with
          remoteAddr := packet.sender
          remotePort
          recvBuffer := sock.recvBuffer ++ packet.payload }
        if svzSockCheckAccess sock.port packet.sender < 0 then .ok (read, 0, [])
        else
          .ok ((svzIcmpCheckRequest handles read).1, 0,
            deliveries sock read packet.payload (svzIcmpCheckRequest handles read).2.2) := by
  obtain ⟨remotePort, hsock⟩ := checkPacket_sock { sock with remoteAddr := packet.sender }
    (icmpBuffer packet stale) packet.bytes.length
  have htrunc := checkPacket_trunc hpos
  rw [ipHdrLength_icmpBuffer] at htrunc
  refine ⟨remotePort, ?_⟩
  have hno : ¬ (((ipHdrLength packet.bytes + icmpHeaderSize : Nat) : Int) = icmpDisconnect) := by
    unfold icmpDisconnect
    omega
  have hno' : ¬ (((ipHdrLength packet.bytes + icmpHeaderSize : Nat) : Int) < 0) := by omega
  have hsub : ((packet.bytes.length : Int) -
      ((ipHdrLength packet.bytes + icmpHeaderSize : Nat) : Int)).toNat =
        packet.bytes.length - (ipHdrLength packet.bytes + icmpHeaderSize) := by omega
  have hneg : ((packet.bytes.length : Int) -
      ((ipHdrLength packet.bytes + icmpHeaderSize : Nat) : Int) < 0) ↔
        (packet.bytes.length : Int) <
          ((ipHdrLength packet.bytes + icmpHeaderSize : Nat) : Int) := by
    omega
  unfold icmpReadPacket truncOf
  simp only [hsock, htrunc, hno, hno', if_false, hneg, hsub, Int.toNat_natCast,
    icmpBuffer_payload]

/-- A packet that passes the check and fits is as long as its headers, and it finds the buffer
empty if its sender is allowed and there is a callback. -/
def IcmpSeparate (sock : DgramSock) (packet : IpPacket) (stale : List UInt8) : Prop :=
  0 ≤ truncOf sock packet stale →
    packet.bytes.length - truncOf sock packet stale ≤
      (sock.recvBufferSize : Int) - sock.recvBuffer.length →
    truncOf sock packet stale ≤ packet.bytes.length ∧
      (¬ svzSockCheckAccess sock.port packet.sender < 0 → Reaches sock → sock.recvBuffer = [])

/-- A read that ends and keeps datagrams apart. -/
def ReadsApart (sock : DgramSock)
    (result : Except Fault (DgramSock × Int × List Delivery)) : Prop :=
  ∃ read, result = .ok read ∧ ∀ d ∈ read.2.2, d.Isolated sock.port

theorem icmpReadPacket_isolated_iff (handles : Handles) (sock : DgramSock) (packet : IpPacket)
    (stale : List UInt8) :
    ReadsApart sock (icmpReadPacket handles sock packet stale) ↔
      IcmpSeparate sock packet stale := by
  unfold IcmpSeparate
  by_cases hpos : 0 ≤ truncOf sock packet stale
  swap
  · obtain ⟨remotePort, ret, heq⟩ :=
      @icmpReadPacket_rejected handles sock packet stale (Int.not_le.mp hpos)
    rw [heq]
    exact iff_of_true ⟨_, rfl, by simp⟩ (fun hpos' => absurd hpos' hpos)
  obtain ⟨remotePort, heq⟩ := @icmpReadPacket_passed handles sock packet stale hpos
  rw [heq]
  by_cases hfits : packet.bytes.length - truncOf sock packet stale >
      (sock.recvBufferSize : Int) - sock.recvBuffer.length
  · rw [if_pos hfits]
    exact iff_of_true ⟨_, rfl, by simp⟩ (fun _ hle => absurd hle (Int.not_le.mpr hfits))
  rw [if_neg hfits]
  by_cases hshort : (packet.bytes.length : Int) < truncOf sock packet stale
  · rw [if_pos hshort]
    refine iff_of_false ?_ ?_
    · intro hread
      obtain ⟨read, hok, -⟩ := hread
      cases hok
    · intro hsep
      exact absurd (hsep hpos (Int.not_lt.mp hfits)).1 (Int.not_le.mpr hshort)
  rw [if_neg hshort]
  by_cases hdeny : svzSockCheckAccess sock.port packet.sender < 0
  · simp only [hdeny, if_true]
    refine iff_of_true ⟨_, rfl, by simp⟩ ?_
    exact fun _ _ => ⟨Int.not_lt.mp hshort, fun hallow => absurd trivial hallow⟩
  simp only [hdeny, if_false]
  generalize hread : ({ sock with
    remoteAddr := packet.sender
    remotePort
    recvBuffer := sock.recvBuffer ++ packet.payload } : DgramSock) = read
  have hcalls : (svzIcmpCheckRequest handles read).2.2 ≠ [] ↔ Reaches sock := by
    subst hread
    exact (not_congr (checkDatagram_calls_eq_nil_iff handles _)).trans not_not
  have hall : (∀ d ∈ deliveries sock read packet.payload (svzIcmpCheckRequest handles read).2.2,
      d.Isolated sock.port) ↔ (Reaches sock → sock.recvBuffer = []) := by
    rw [forall_deliveries_iff, hcalls]
    subst hread
    refine imp_congr_right fun _ => ⟨fun h => h.1, fun hnil => ⟨hnil, ?_, hdeny⟩⟩
    show sock.recvBuffer ++ packet.payload = packet.payload
    rw [hnil, List.nil_append]
  constructor
  · intro happart _ _
    obtain ⟨z, hz, hgood⟩ := happart
    cases hz
    exact ⟨Int.not_lt.mp hshort, fun _ => hall.mp hgood⟩
  · intro hsep
    exact ⟨_, rfl, hall.mpr ((hsep hpos (Int.not_lt.mp hfits)).2 not_false)⟩

theorem icmpReadPacket_port {read : DgramSock × Int × List Delivery}
    (hok : icmpReadPacket handles sock packet stale = .ok read) : read.1.port = sock.port := by
  by_cases hpos : 0 ≤ truncOf sock packet stale
  · obtain ⟨remotePort, heq⟩ := @icmpReadPacket_passed handles sock packet stale hpos
    rw [heq] at hok
    simp only at hok
    split_ifs at hok
    · cases hok
      rfl
    · cases hok
      rfl
    · cases hok
      exact checkDatagram_port handles _
  · obtain ⟨remotePort, ret, heq⟩ :=
      @icmpReadPacket_rejected handles sock packet stale (Int.not_le.mp hpos)
    rw [heq] at hok
    cases hok
    rfl

end Icmp

/-! ## Runs -/

/-- Every callback so far got one allowed datagram, whole and alone. -/
def Isolated (s : Station) : Prop := ∀ d ∈ s.delivered, d.Isolated s.sock.port

def DgramOp.Separate (sock : DgramSock) : DgramOp → Prop
  | .udp datagram _ => sock.killed = false → UdpSeparate sock datagram
  | .icmp (.packet packet stale) _ => sock.killed = false → IcmpSeparate sock packet stale
  | .icmp (.failed _) _ | .addServer _ => True

theorem isolated_read_iff {s : Station} (h : Isolated s)
    {result : Except Fault (DgramSock × Int × List Delivery)}
    (hport : ∀ read, result = .ok read → read.1.port = s.sock.port) :
    (∃ s', result.map (afterRead s) = .ok s' ∧ Isolated s') ↔ ReadsApart s.sock result := by
  cases result with
  | error fault =>
    refine iff_of_false ?_ ?_
    · intro hex
      obtain ⟨s', heq, -⟩ := hex
      cases heq
    · intro hex
      obtain ⟨read, heq, -⟩ := hex
      cases heq
  | ok read =>
    have hiff : Isolated (afterRead s read) ↔ ∀ d ∈ read.2.2, d.Isolated s.sock.port := by
      show (∀ d ∈ s.delivered ++ read.2.2, d.Isolated read.1.port) ↔ _
      rw [hport read rfl, List.forall_mem_append]
      exact and_iff_right h
    constructor
    · intro hex
      obtain ⟨s', heq, hgood⟩ := hex
      cases heq
      exact ⟨read, rfl, hiff.mp hgood⟩
    · intro hex
      obtain ⟨read', heq, hgood⟩ := hex
      cases heq
      exact ⟨_, rfl, hiff.mpr hgood⟩

theorem apply_udp {s : Station} (hk : s.sock.killed = false) (datagram : Datagram)
    (handles : Handles) :
    (DgramOp.udp datagram handles).apply s =
      Except.map (afterRead s) (.ok (udpReadSocket handles s.sock datagram)) := by
  unfold DgramOp.apply
  rw [hk]
  rfl

theorem apply_icmp {s : Station} (hk : s.sock.killed = false) (received : Received)
    (handles : Handles) :
    (DgramOp.icmp received handles).apply s =
      (icmpReadSocket handles s.sock received).map (afterRead s) := by
  unfold DgramOp.apply
  rw [hk]
  rfl

/-- A killed socket is not read from. -/
theorem apply_killed {s : Station} (hk : s.sock.killed = true) (handles : Handles) :
    (∀ datagram, (DgramOp.udp datagram handles).apply s = .ok s) ∧
      ∀ received, (DgramOp.icmp received handles).apply s = .ok s := by
  unfold DgramOp.apply
  rw [hk]
  exact ⟨fun _ => rfl, fun _ => rfl⟩

/-- The step lemma. -/
theorem isolated_apply_iff {s : Station} (h : Isolated s) (op : DgramOp) :
    (∃ s', op.apply s = .ok s' ∧ Isolated s') ↔ op.Separate s.sock := by
  have hdead : s.sock.killed = true → ¬ s.sock.killed = false := by
    intro hk
    rw [hk]
    exact nofun
  cases op with
  | udp datagram handles =>
    cases hk : s.sock.killed with
    | true =>
      rw [(apply_killed hk handles).1]
      exact iff_of_true ⟨s, rfl, h⟩ (fun halive => absurd halive (hdead hk))
    | false =>
      obtain ⟨hport, hiff⟩ := udpReadSocket_isolated_iff handles s.sock datagram
      rw [apply_udp hk, isolated_read_iff h]
      · show ReadsApart _ _ ↔ (s.sock.killed = false → UdpSeparate s.sock datagram)
        rw [← hiff, hk]
        simp [ReadsApart]
      · intro read heq
        cases heq
        exact hport
  | icmp received handles =>
    cases hk : s.sock.killed with
    | true =>
      rw [(apply_killed hk handles).2]
      refine iff_of_true ⟨s, rfl, h⟩ ?_
      cases received with
      | packet packet stale => exact fun halive => absurd halive (hdead hk)
      | failed unavailable => exact trivial
    | false =>
      cases received with
      | packet packet stale =>
        have hport : ∀ read, icmpReadSocket handles s.sock (.packet packet stale) = .ok read →
            read.1.port = s.sock.port := fun read => icmpReadPacket_port
        rw [apply_icmp hk, isolated_read_iff h hport]
        show ReadsApart _ (icmpReadPacket handles s.sock packet stale) ↔
          (s.sock.killed = false → IcmpSeparate s.sock packet stale)
        rw [icmpReadPacket_isolated_iff]
        exact ⟨fun hsep _ => hsep, fun hsep => hsep hk⟩
      | failed unavailable =>
        rw [apply_icmp hk, isolated_read_iff h]
        · exact iff_of_true ⟨_, rfl, by simp⟩ trivial
        · intro read heq
          cases heq
          rfl
  | addServer binding => exact iff_of_true ⟨_, rfl, h⟩ trivial

/-- **Isolation.** In every state of a run of a UDP or an ICMP listener, each callback has got
the payload of one datagram of an allowed sender, with no bytes of an earlier one before it,
exactly if each datagram that reaches a callback finds the receive buffer empty and large
enough, and no ICMP packet that passes the check is shorter than its headers. -/
theorem isolated_run_iff (sock : DgramSock) (ops : List DgramOp) :
    (∀ pre, pre <+: ops → ∃ s, dgramRun (.ok ⟨sock, []⟩) pre = .ok s ∧ Isolated s) ↔
      ∀ pre op, pre ++ [op] <+: ops →
        ∀ s, dgramRun (.ok ⟨sock, []⟩) pre = .ok s → op.Separate s.sock := by
  unfold dgramRun
  refine forall_prefix_iff dgramStep (fun state => ∃ s, state = .ok s ∧ Isolated s)
    (fun state op => ∀ s, state = .ok s → op.Separate s.sock) ⟨_, rfl, by simp [Isolated]⟩ ?_
  intro pre op hpre hstate
  obtain ⟨s, hs, h⟩ := hstate
  rw [hs]
  refine (isolated_apply_iff h op).trans ⟨?_, fun hop => hop s rfl⟩
  intro hop s' hs'
  cases hs'
  exact hop

/-- A UDP listener that denies one address, with a server on port 53. -/
def dgramListener : DgramSock where
  recvBuffer := []
  recvBufferSize := 512
  port := some ⟨some ["10.0.0.1"], none, 100, 16, 0, 53, true, false⟩
  remoteAddr := ""
  remotePort := 0
  handleRequest := false
  bindings := some [⟨⟨7, false, false, true⟩, ⟨none, none, 100, 16, 0, 53, true, false⟩⟩]
  localInfo := some (0, 53)
  listening := true
  itype := 0
  ident := 0
  killed := false

/-- The server gets the byte of the denied sender in front of the allowed datagram. -/
theorem not_isolated_after_denied :
    ¬ ∀ pre, pre <+: [DgramOp.udp ⟨"10.0.0.1", 1234, [1], false⟩ (fun _ => 0),
        DgramOp.udp ⟨"10.0.0.2", 1234, [2], false⟩ (fun _ => 0)] →
      ∃ s, dgramRun (.ok ⟨dgramListener, []⟩) pre = .ok s ∧ Isolated s := by
  intro hall
  obtain ⟨s, hs, hgood⟩ := hall _ (List.prefix_refl _)
  have hrun : dgramRun (.ok ⟨dgramListener, []⟩)
      [DgramOp.udp ⟨"10.0.0.1", 1234, [1], false⟩ (fun _ => 0),
        DgramOp.udp ⟨"10.0.0.2", 1234, [2], false⟩ (fun _ => 0)] =
      .ok ⟨{ dgramListener with remoteAddr := "10.0.0.2", remotePort := 1234 },
        [⟨some 7, [1, 2], "10.0.0.2", [2], [1]⟩]⟩ := by decide +kernel
  rw [hrun] at hs
  cases hs
  exact absurd (hgood _ (List.mem_singleton_self _)).1 (by decide)

end Serveez.Port
