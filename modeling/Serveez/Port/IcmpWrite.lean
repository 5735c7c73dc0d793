import Serveez.Port.Datagram
import Mathlib.Data.List.Forall2

/-!
# Writing ICMP packets

* `checkPacket_packHeader`: what `check_packet` makes of a packed header behind an IPv4 header.
* `icmpWriteLoop_spec`: the packets written bring the buffer, cut into pieces.
* `roundTrip_iff`: the peer takes the buffer and the socket itself refuses it if and only if
  the buffer fits into one IP packet, the identifier fits into 16 bits and is not the peer's.

`svz_sock_write` is an input: the values that it returns, one for each packet. The length, the
address and the port that the send buffer keeps in front of a packet are not sent and are left
out here.
-/

namespace Serveez.Port

/-- A socket with the process that it lives in. -/
structure IcmpSock extends DgramSock where
  /-- `getpid ()`. -/
  pid : Nat
  id : Nat
  sendSeq : UInt16
  ident_eq : ident = (pid + id : Nat)
  itype_lt : itype < 2 ^ 8
  remotePort_lt : remotePort < 2 ^ 16

/-- `svz_icmp_header_t`. -/
structure IcmpHeader where
  type : UInt8
  code : UInt8
  checksum : UInt16
  ident : UInt16
  sequence : UInt16
  port : UInt16

/-- A number of two bytes after `htons`, the high byte first. -/
def networkBytes (n : UInt16) : List UInt8 :=
  [UInt8.ofNat (n.toNat / 256), UInt8.ofNat (n.toNat % 256)]

/-- `pack_header`. The port is in network byte order all the time. -/
def packHeader (hdr : IcmpHeader) : List UInt8 :=
  [hdr.type, hdr.code] ++ networkBytes hdr.checksum ++ networkBytes hdr.ident ++
    networkBytes hdr.sequence ++
    [UInt8.ofNat (hdr.port.toNat % 256), UInt8.ofNat (hdr.port.toNat / 256)]

/-- `ICMP_MSG_SIZE`. -/
def icmpMsgSize : Nat := 64 * 1024

/-- `SVZ_ICMP_SERVEEZ_DATA`. -/
def svzIcmpServeezData : UInt8 := 0

/-- The header that `svz_icmp_write` puts in front of `load`. -/
def icmpHeader (sock : IcmpSock) (sequence : UInt16) (load : List UInt8) : IcmpHeader where
  type := UInt8.ofNat sock.itype
  code := svzIcmpServeezData
  checksum := UInt16.ofNat (svzRawIpChecksum load)
  ident := UInt16.ofNat (sock.pid + sock.id)
  sequence
  port := UInt16.ofNat sock.remotePort

/-- The socket afterwards, the packets that `svz_sock_write` took, and the return value. -/
structure Written where
  sock : IcmpSock
  packets : List (List UInt8)
  ret : Int

/-- The loop of `svz_icmp_write`. -/
def icmpWriteLoop (sock : IcmpSock) (buf : List UInt8) (answers : List Int) (ret : Int) :
    Written :=
  if buf = [] then ⟨sock, [], ret⟩
  else
    let load := buf.take icmpMsgSize
    let packet := packHeader (icmpHeader sock sock.sendSeq load) ++ load
    let sock := { sock with sendSeq := sock.sendSeq + 1 }
    let ret := answers.headD 0
    if ret = -1 then ⟨{ sock with killed := true }, [], ret⟩
    else
      let rest := icmpWriteLoop sock (buf.drop icmpMsgSize) answers.tail ret
      { rest with packets := packet :: rest.packets }
termination_by buf.length
decreasing_by
  have hpos := List.length_pos_iff.mpr ‹buf ≠ []›
  rw [List.length_drop, icmpMsgSize]
  omega

def svzIcmpWrite (sock : IcmpSock) (buf : List UInt8) (answers : List Int) : Written :=
  if sock.killed then ⟨sock, [], 0⟩ else icmpWriteLoop sock buf answers 0

/-! ## Bytes -/

theorem byteAt_append_right (a b : List UInt8) (i : Nat) :
    byteAt (a ++ b) (a.length + i) = byteAt b i := by
  unfold byteAt
  rw [List.getD_eq_getElem?_getD, List.getElem?_append_right (Nat.le_add_right _ _),
    Nat.add_sub_cancel_left, List.getD_eq_getElem?_getD]

theorem byteAt_append_left {a b : List UInt8} {i : Nat} (h : i < a.length) :
    byteAt (a ++ b) i = byteAt a i := by
  unfold byteAt
  rw [List.getD_eq_getElem?_getD, List.getElem?_append_left h, List.getD_eq_getElem?_getD]

theorem wordAt_append_right (a b : List UInt8) (i : Nat) :
    wordAt (a ++ b) (a.length + i) = wordAt b i := by
  unfold wordAt
  rw [byteAt_append_right, Nat.add_assoc, byteAt_append_right]

theorem rejectChecksum_append {a b : List UInt8} (h : 12 ≤ a.length) :
    rejectChecksum (a ++ b) = rejectChecksum a ++ b := by
  unfold rejectChecksum
  have hset : 11 < (a.set 10 0).length := by
    rw [List.length_set]
    omega
  rw [List.set_append_left 10 0 (by omega), List.set_append_left 11 0 hset]

theorem length_rejectChecksum (a : List UInt8) : (rejectChecksum a).length = a.length := by
  unfold rejectChecksum
  rw [List.length_set, List.length_set]

theorem svzRawIpChecksum_lt (data : List UInt8) : svzRawIpChecksum data < 2 ^ 16 := by
  unfold svzRawIpChecksum
  generalize foldChecksum 3 (sumWords data % 2 ^ 32) = sum
  dsimp only
  omega

theorem length_packHeader (hdr : IcmpHeader) : (packHeader hdr).length = icmpHeaderSize := rfl

/-- The two bytes of a number give it back. -/
theorem bytes_toNat (n : UInt16) :
    (UInt8.ofNat (n.toNat / 256)).toNat * 256 + (UInt8.ofNat (n.toNat % 256)).toNat = n.toNat := by
  have hn : n.toNat < 2 ^ 16 := n.toNat_lt
  rw [UInt8.toNat_ofNat', UInt8.toNat_ofNat']
  omega

section Unpack

variable (hdr : IcmpHeader) (load : List UInt8)

theorem byteAt_type : byteAt (packHeader hdr ++ load) 0 = hdr.type.toNat := rfl

theorem byteAt_code : byteAt (packHeader hdr ++ load) 1 = hdr.code.toNat := rfl

theorem wordAt_checksum : wordAt (packHeader hdr ++ load) 2 = hdr.checksum.toNat :=
  bytes_toNat hdr.checksum

theorem wordAt_ident : wordAt (packHeader hdr ++ load) 4 = hdr.ident.toNat :=
  bytes_toNat hdr.ident

theorem bytes_port :
    byteAt (packHeader hdr ++ load) 8 + byteAt (packHeader hdr ++ load) 9 * 256 =
      hdr.port.toNat := by
  rw [Nat.add_comm]
  exact bytes_toNat hdr.port

end Unpack

/-! ## A packet behind an IPv4 header -/

/-- A well-formed IPv4 header, options included, for the ICMP packet `packet`. -/
structure Ipv4Header (packet : List UInt8) where
  bytes : List UInt8
  version : byteAt bytes 0 / 16 = 4
  length_eq : bytes.length = ipHdrLength bytes
  le_length : 20 ≤ bytes.length
  /-- The total length. -/
  total : wordAt bytes 2 = bytes.length + packet.length
  /-- ICMP. -/
  protocol : byteAt bytes 9 = 1
  checksum : wordAt bytes 10 = svzRawIpChecksum (rejectChecksum bytes)

namespace Ipv4Header

variable {packet : List UInt8} (header : Ipv4Header packet)

/-- What arrives. -/
def datagram : List UInt8 := header.bytes ++ packet

theorem ipHdrLength_datagram : ipHdrLength header.datagram = header.bytes.length := by
  have hlen := header.le_length
  rw [header.length_eq, datagram, ipHdrLength, ipHdrLength, byteAt_append_left (by omega)]

theorem svzRawCheckIpHeader_datagram :
    svzRawCheckIpHeader header.datagram header.datagram.length = header.bytes.length := by
  have hlen := header.le_length
  have htotal : wordAt header.datagram 2 = header.datagram.length := by
    rw [datagram, List.length_append, ← header.total, wordAt, wordAt,
      byteAt_append_left (by omega), byteAt_append_left (by omega)]
  have hversion : ¬ byteAt header.datagram 0 / 16 ≠ 4 := by
    rw [datagram, byteAt_append_left (by omega)]
    exact not_not.mpr header.version
  have hprotocol : ¬ byteAt header.datagram 9 ≠ 1 := by
    rw [datagram, byteAt_append_left (by omega)]
    exact not_not.mpr header.protocol
  have hfits : ¬ header.bytes.length > header.datagram.length := by
    rw [datagram, List.length_append]
    omega
  unfold svzRawCheckIpHeader
  rw [if_neg hversion, header.ipHdrLength_datagram, if_neg hfits, if_neg (by omega),
    if_neg hprotocol]

theorem length_le (header : Ipv4Header packet) : 20 + packet.length < 2 ^ 16 := by
  have htotal := header.total
  have hlen := header.le_length
  have hhigh : byteAt header.bytes 2 < 256 := UInt8.toNat_lt _
  have hlow : byteAt header.bytes (2 + 1) < 256 := UInt8.toNat_lt _
  rw [wordAt] at htotal
  omega

end Ipv4Header

/-- `check_packet` reads the header as it was packed. -/
theorem checkPacket_packHeader (sock : DgramSock) (hdr : IcmpHeader) (load : List UInt8)
    (header : Ipv4Header (packHeader hdr ++ load)) :
    checkPacket sock header.datagram header.datagram.length =
      if hdr.type.toNat ≠ sock.itype then (sock, icmpError)
      else if hdr.checksum.toNat ≠ svzRawIpChecksum load then (sock, icmpError)
      else if (hdr.ident.toNat : Int) = sock.ident then (sock, icmpError)
      else if hdr.port.toNat ≠ sock.remotePort && !sock.listening then (sock, icmpError)
      else
        ({ sock with remotePort := hdr.port.toNat },
          if hdr.code.toNat = svzIcmpServeezClose then icmpDisconnect
          else ((header.bytes.length + icmpHeaderSize : Nat) : Int)) := by
  have hlen := header.le_length
  have hok : ¬ ((header.bytes.length : Nat) : Int) = -1 := by omega
  have hdata : rejectChecksum header.datagram =
      rejectChecksum header.bytes ++ (packHeader hdr ++ load) :=
    rejectChecksum_append (by omega)
  have hload : (((rejectChecksum header.bytes ++ (packHeader hdr ++ load)).drop
      (header.bytes.length + icmpHeaderSize)).take
        (header.datagram.length - (header.bytes.length + icmpHeaderSize))) = load := by
    have htake : header.datagram.length - (header.bytes.length + icmpHeaderSize) =
        load.length := by
      rw [Ipv4Header.datagram, List.length_append, List.length_append, length_packHeader]
      omega
    have hdrop : (rejectChecksum header.bytes ++ packHeader hdr).length =
        header.bytes.length + icmpHeaderSize := by
      rw [List.length_append, length_rejectChecksum, length_packHeader]
    rw [htake, ← List.append_assoc, List.drop_left' hdrop, List.take_length]
  have hbyte (i : Nat) : byteAt (rejectChecksum header.bytes ++ (packHeader hdr ++ load))
      (header.bytes.length + i) = byteAt (packHeader hdr ++ load) i := by
    rw [← length_rejectChecksum header.bytes, byteAt_append_right]
  have hword (i : Nat) : wordAt (rejectChecksum header.bytes ++ (packHeader hdr ++ load))
      (header.bytes.length + i) = wordAt (packHeader hdr ++ load) i := by
    rw [← length_rejectChecksum header.bytes, wordAt_append_right]
  have hfirst := hbyte 0
  rw [Nat.add_zero, byteAt_type] at hfirst
  unfold checkPacket
  rw [header.svzRawCheckIpHeader_datagram, if_neg hok, header.ipHdrLength_datagram, hdata]
  simp only [hload, hfirst, hbyte, hword, byteAt_code, wordAt_checksum, wordAt_ident, bytes_port]
  split_ifs <;> rfl

/-! ## The packets of a buffer -/

/-- The pieces of a buffer, each as large as a message can be. -/
inductive Pieces : List UInt8 → List (List UInt8) → Prop
  | nil : Pieces [] []
  | cons {buf : List UInt8} {loads : List (List UInt8)} (hne : buf ≠ [])
      (hrest : Pieces (buf.drop icmpMsgSize) loads) : Pieces buf (buf.take icmpMsgSize :: loads)

theorem Pieces.flatten {buf : List UInt8} {loads : List (List UInt8)} (h : Pieces buf loads) :
    loads.flatten = buf := by
  induction h with
  | nil => rfl
  | cons _ _ ih => rw [List.flatten_cons, ih, List.take_append_drop]

/-- What of the socket goes into its packets. -/
structure SameLink (a b : IcmpSock) : Prop where
  itype : b.itype = a.itype
  pid : b.pid = a.pid
  id : b.id = a.id
  remotePort : b.remotePort = a.remotePort

theorem SameLink.icmpHeader_eq {a b : IcmpSock} (h : SameLink a b) (sequence : UInt16)
    (load : List UInt8) : icmpHeader b sequence load = icmpHeader a sequence load := by
  unfold icmpHeader
  rw [h.itype, h.pid, h.id, h.remotePort]

/-- A packet of the socket that brings `load`. -/
def Packed (sock : IcmpSock) (load packet : List UInt8) : Prop :=
  ∃ sequence, packet = packHeader (icmpHeader sock sequence load) ++ load

theorem SameLink.packed {a b : IcmpSock} (h : SameLink a b) {load packet : List UInt8}
    (hpacked : Packed b load packet) : Packed a load packet := by
  obtain ⟨sequence, rfl⟩ := hpacked
  exact ⟨sequence, by rw [h.icmpHeader_eq]⟩

theorem icmpWriteLoop_nil (sock : IcmpSock) (answers : List Int) (ret : Int) :
    icmpWriteLoop sock [] answers ret = ⟨sock, [], ret⟩ := by
  rw [icmpWriteLoop, if_pos rfl]

theorem icmpWriteLoop_spec (sock : IcmpSock) (buf : List UInt8) (answers : List Int) (ret : Int)
    (hret : (icmpWriteLoop sock buf answers ret).ret ≠ -1) :
    SameLink sock (icmpWriteLoop sock buf answers ret).sock ∧
      ∃ loads, Pieces buf loads ∧
        List.Forall₂ (Packed sock) loads (icmpWriteLoop sock buf answers ret).packets := by
  induction sock, buf, answers, ret using icmpWriteLoop.induct with
  | case1 sock answers ret =>
    unfold icmpWriteLoop
    exact ⟨⟨rfl, rfl, rfl, rfl⟩, [], .nil, .nil⟩
  | case2 sock buf answers ret hne ret' hfail =>
    unfold icmpWriteLoop at hret
    rw [if_neg hne] at hret
    simp only [ret'] at hfail
    simp only [hfail, if_true] at hret
    exact absurd rfl hret
  | case3 sock buf answers ret hne next ret' hgood ih =>
    unfold icmpWriteLoop at hret ⊢
    rw [if_neg hne] at hret ⊢
    simp only [ret'] at hgood
    simp only [if_neg hgood] at hret ⊢
    obtain ⟨hsame, loads, hpieces, hpacked⟩ := ih hret
    have hnext : SameLink sock next := ⟨rfl, rfl, rfl, rfl⟩
    refine ⟨⟨hsame.itype, hsame.pid, hsame.id, hsame.remotePort⟩, _ :: loads,
      .cons hne hpieces, .cons ⟨sock.sendSeq, rfl⟩ ?_⟩
    exact hpacked.imp fun _ _ h => hnext.packed h

/-! ## The packets at a socket -/

section Own

variable (sender : IcmpSock) {sequence : UInt16} {load : List UInt8}

/-- The type, the checksum and the port are right; the identifier decides. -/
theorem checkPacket_icmpHeader {sock : DgramSock} (hitype : sock.itype = sender.itype)
    (hport : sock.remotePort = sender.remotePort ∨ sock.listening = true)
    (header : Ipv4Header (packHeader (icmpHeader sender sequence load) ++ load)) :
    checkPacket sock header.datagram header.datagram.length =
      if (((sender.pid + sender.id) % 2 ^ 16 : Nat) : Int) = sock.ident then (sock, icmpError)
      else
        ({ sock with remotePort := sender.remotePort },
          ((header.bytes.length + icmpHeaderSize : Nat) : Int)) := by
  have htype : (icmpHeader sender sequence load).type.toNat = sock.itype := by
    rw [hitype, icmpHeader, UInt8.toNat_ofNat', Nat.mod_eq_of_lt sender.itype_lt]
  have hchecksum : (icmpHeader sender sequence load).checksum.toNat = svzRawIpChecksum load := by
    rw [icmpHeader, UInt16.toNat_ofNat', Nat.mod_eq_of_lt (svzRawIpChecksum_lt load)]
  have hident : (icmpHeader sender sequence load).ident.toNat =
      (sender.pid + sender.id) % 2 ^ 16 := by
    rw [icmpHeader, UInt16.toNat_ofNat']
  have hremote : (icmpHeader sender sequence load).port.toNat = sender.remotePort := by
    rw [icmpHeader, UInt16.toNat_ofNat', Nat.mod_eq_of_lt sender.remotePort_lt]
  have hmatch : ¬ (sender.remotePort ≠ sock.remotePort && !sock.listening) = true := by
    rcases hport with h | h
    · simp only [h, ne_eq, not_true_eq_false, decide_false, Bool.false_and, Bool.false_eq_true,
        not_false_iff]
    · simp only [h, Bool.not_true, Bool.and_false, Bool.false_eq_true, not_false_iff]
  have hcode : ¬ (icmpHeader sender sequence load).code.toNat = svzIcmpServeezClose := by
    have hdata : (icmpHeader sender sequence load).code = svzIcmpServeezData := rfl
    rw [hdata]
    decide
  rw [checkPacket_packHeader, htype, hchecksum, hident, hremote, if_neg (not_not.mpr rfl),
    if_neg (not_not.mpr rfl), if_neg hmatch, if_neg hcode]

theorem drop_datagram (header : Ipv4Header (packHeader (icmpHeader sender sequence load) ++ load)) :
    header.datagram.drop (header.bytes.length + icmpHeaderSize) = load := by
  have hlen : (header.bytes ++ packHeader (icmpHeader sender sequence load)).length =
      header.bytes.length + icmpHeaderSize := by
    rw [List.length_append, length_packHeader]
  rw [Ipv4Header.datagram, ← List.append_assoc, List.drop_left' hlen]

end Own

/-- An IPv4 header without options, with the given checksum. -/
def plainHeader (total checksum : UInt16) : List UInt8 :=
  [69, 0] ++ networkBytes total ++ [0, 0, 0, 0, 64, 1] ++ networkBytes checksum ++
    [127, 0, 0, 1, 127, 0, 0, 1]

theorem length_plainHeader (total checksum : UInt16) :
    (plainHeader total checksum).length = 20 := rfl

theorem byteAt_plainHeader (total checksum : UInt16) :
    byteAt (plainHeader total checksum) 0 = (69 : UInt8).toNat := rfl

theorem ipHdrLength_plainHeader (total checksum : UInt16) :
    ipHdrLength (plainHeader total checksum) = 20 := by
  rw [ipHdrLength, byteAt_plainHeader]
  decide

theorem exists_ipv4Header {packet : List UInt8} (h : 20 + packet.length < 2 ^ 16) :
    Nonempty (Ipv4Header packet) := by
  let total := UInt16.ofNat (20 + packet.length)
  let checksum := UInt16.ofNat (svzRawIpChecksum (plainHeader total 0))
  have htotal : total.toNat = 20 + packet.length := by
    rw [UInt16.toNat_ofNat', Nat.mod_eq_of_lt h]
  have hchecksum : checksum.toNat = svzRawIpChecksum (plainHeader total 0) := by
    rw [UInt16.toNat_ofNat', Nat.mod_eq_of_lt (svzRawIpChecksum_lt _)]
  exact ⟨{
    bytes := plainHeader total checksum
    version := by
      rw [byteAt_plainHeader]
      decide
    length_eq := (length_plainHeader _ _).trans (ipHdrLength_plainHeader _ _).symm
    le_length := Nat.le_refl 20
    total := (bytes_toNat total).trans htotal
    protocol := rfl
    checksum := (bytes_toNat checksum).trans hchecksum }⟩

/-! ## The round trip -/

/-- `check_packet` on one datagram after the other, with what is accepted of each. -/
def checkPackets (sock : DgramSock) : List (List UInt8) → List (Option (List UInt8))
  | [] => []
  | datagram :: rest =>
    let checked := checkPacket sock datagram datagram.length
    (if checked.2 < 0 then none else some (datagram.drop checked.2.toNat)) ::
      checkPackets checked.1 rest

/-- The datagrams are the packets, each behind a well-formed header. -/
def Carried (packets datagrams : List (List UInt8)) : Prop :=
  List.Forall₂ (fun packet datagram => ∃ header : Ipv4Header packet, datagram = header.datagram)
    packets datagrams

/-- The packets written can be sent, the peer accepts them and gets the buffer, and the socket
that sends them refuses them. -/
structure RoundTrip (sender peer : IcmpSock) (buf : List UInt8) (answers : List Int) : Prop where
  carried : ∃ datagrams, Carried (svzIcmpWrite sender buf answers).packets datagrams
  accepted : ∀ datagrams, Carried (svzIcmpWrite sender buf answers).packets datagrams →
    ∃ loads : List (List UInt8),
      checkPackets peer.toDgramSock datagrams = loads.map some ∧ loads.flatten = buf
  native : ∀ datagrams, Carried (svzIcmpWrite sender buf answers).packets datagrams →
    ∀ datagram ∈ datagrams,
      (checkPacket (svzIcmpWrite sender buf answers).sock.toDgramSock datagram
        datagram.length).2 = icmpError

theorem checkPackets_carried {sender : IcmpSock} {loads packets : List (List UInt8)}
    (hpacked : List.Forall₂ (Packed sender) loads packets) (sock : DgramSock)
    (hitype : sock.itype = sender.itype)
    (hport : sock.remotePort = sender.remotePort ∨ sock.listening = true)
    (hident : (((sender.pid + sender.id) % 2 ^ 16 : Nat) : Int) ≠ sock.ident)
    {datagrams : List (List UInt8)} (hcarried : Carried packets datagrams) :
    checkPackets sock datagrams = loads.map some := by
  induction hpacked generalizing sock datagrams with
  | nil =>
    cases hcarried
    rfl
  | cons hfirst _ ih =>
    obtain ⟨sequence, rfl⟩ := hfirst
    cases hcarried with
    | cons hheader hrest =>
      obtain ⟨header, rfl⟩ := hheader
      have hpos : ¬ ((header.bytes.length + icmpHeaderSize : Nat) : Int) < 0 := by omega
      have hnext := ih { sock with remotePort := sender.remotePort } hitype (.inl rfl) hident hrest
      rw [checkPackets, checkPacket_icmpHeader sender hitype hport, if_neg hident]
      simp only [if_neg hpos, Int.toNat_natCast, drop_datagram, hnext, List.map_cons]

theorem mem_carried {sender : IcmpSock} {loads packets datagrams : List (List UInt8)}
    (hpacked : List.Forall₂ (Packed sender) loads packets) (hcarried : Carried packets datagrams)
    {datagram : List UInt8} (hmem : datagram ∈ datagrams) :
    ∃ sequence load, ∃ header : Ipv4Header (packHeader (icmpHeader sender sequence load) ++ load),
      datagram = header.datagram := by
  induction hpacked generalizing datagrams with
  | nil =>
    cases hcarried
    exact absurd hmem List.not_mem_nil
  | cons hfirst _ ih =>
    obtain ⟨sequence, rfl⟩ := hfirst
    cases hcarried with
    | cons hheader hrest =>
      rcases List.mem_cons.mp hmem with rfl | hmem
      · exact ⟨sequence, _, hheader⟩
      · exact ih hrest hmem

theorem exists_carried {sender : IcmpSock} {loads packets : List (List UInt8)}
    (hpacked : List.Forall₂ (Packed sender) loads packets)
    (hfits : ∀ load ∈ loads, load.length < 2 ^ 16 - 20 - icmpHeaderSize) :
    ∃ datagrams, Carried packets datagrams := by
  induction hpacked with
  | nil => exact ⟨[], .nil⟩
  | @cons load packet loads packets hfirst _ ih =>
    obtain ⟨sequence, rfl⟩ := hfirst
    obtain ⟨datagrams, hrest⟩ := ih fun load hmem => hfits load (List.mem_cons_of_mem _ hmem)
    have hload : load.length < 2 ^ 16 - 20 - icmpHeaderSize := hfits load List.mem_cons_self
    have hlen : 20 + (packHeader (icmpHeader sender sequence load) ++ load).length < 2 ^ 16 := by
      rw [List.length_append, length_packHeader]
      omega
    obtain ⟨header⟩ := exists_ipv4Header hlen
    exact ⟨header.datagram :: datagrams, .cons ⟨header, rfl⟩ hrest⟩

theorem Pieces.length_le {buf : List UInt8} {loads : List (List UInt8)} (h : Pieces buf loads) :
    ∀ load ∈ loads, load.length ≤ buf.length := by
  intro load hmem
  rw [← h.flatten]
  exact (List.sublist_flatten_of_mem hmem).length_le

/-- Of a buffer that is not empty the first packet alone decides: it has to fit into an IP
packet, and the identifier in it has to be the sender's whole one and not the peer's. -/
theorem roundTrip_iff (sender peer : IcmpSock) (buf : List UInt8) (answers : List Int)
    (hitype : peer.itype = sender.itype)
    (hport : peer.remotePort = sender.remotePort ∨ peer.listening = true)
    (hlive : sender.killed = false) (hret : (svzIcmpWrite sender buf answers).ret ≠ -1) :
    RoundTrip sender peer buf answers ↔
      buf = [] ∨ (buf.length < 2 ^ 16 - 20 - icmpHeaderSize ∧ sender.pid + sender.id < 2 ^ 16 ∧
        sender.pid + sender.id ≠ peer.pid + peer.id) := by
  have hlive' : ¬ sender.killed = true := by
    rw [hlive]
    exact Bool.false_ne_true
  have hwrite : svzIcmpWrite sender buf answers = icmpWriteLoop sender buf answers 0 :=
    if_neg hlive'
  rw [hwrite] at hret
  obtain ⟨hsame, loads, hpieces, hpacked⟩ := icmpWriteLoop_spec sender buf answers 0 hret
  rw [← hwrite] at hsame hpacked
  have hown : (svzIcmpWrite sender buf answers).sock.ident = (sender.pid + sender.id : Nat) := by
    rw [IcmpSock.ident_eq, hsame.pid, hsame.id]
  have hpeer := peer.ident_eq
  constructor
  · rintro ⟨⟨datagrams, hcarried⟩, haccepted, hnative⟩
    have hrefused := hnative datagrams hcarried
    have htaken := haccepted datagrams hcarried
    revert hpacked hcarried
    generalize (svzIcmpWrite sender buf answers).packets = packets
    intro hpacked hcarried
    cases hpieces with
    | nil => exact .inl rfl
    | cons hne hrest =>
      cases hpacked with
      | cons hfirst _ =>
        obtain ⟨sequence, rfl⟩ := hfirst
        cases hcarried with
        | cons hheader _ =>
          obtain ⟨header, rfl⟩ := hheader
          have hlen := header.length_le
          rw [List.length_append, length_packHeader, List.length_take, icmpMsgSize] at hlen
          have hsmall : sender.pid + sender.id < 2 ^ 16 := by
            have hself := hrefused _ List.mem_cons_self
            rw [checkPacket_icmpHeader sender hsame.itype (.inl hsame.remotePort), hown] at hself
            split at hself
            · omega
            · simp only [icmpError] at hself
              omega
          refine .inr ⟨by omega, hsmall, fun hequal => ?_⟩
          obtain ⟨parts, hparts, -⟩ := htaken
          have hident : (((sender.pid + sender.id) % 2 ^ 16 : Nat) : Int) = peer.ident := by
            rw [hpeer, Nat.mod_eq_of_lt hsmall, hequal]
          rw [checkPackets, checkPacket_icmpHeader sender hitype hport, if_pos hident] at hparts
          have hnone : none ∈ parts.map some := hparts ▸ List.mem_cons_self
          obtain ⟨_, -, hsome⟩ := List.mem_map.mp hnone
          exact Option.some_ne_none _ hsome
  · rintro (rfl | ⟨hlen, hsmall, hother⟩)
    · have hnone : loads = [] := by
        cases hpieces with
        | nil => rfl
        | cons hne _ => exact absurd rfl hne
      rw [hnone, List.forall₂_nil_left_iff] at hpacked
      have hempty {datagrams : List (List UInt8)} (h : Carried [] datagrams) : datagrams = [] :=
        List.forall₂_nil_left_iff.mp h
      constructor <;> rw [hpacked]
      · exact ⟨[], .nil⟩
      · intro datagrams hcarried
        exact ⟨[], by rw [hempty hcarried, checkPackets, List.map_nil], rfl⟩
      · intro datagrams hcarried datagram hmem
        rw [hempty hcarried] at hmem
        exact absurd hmem List.not_mem_nil
    · have hwhole : (sender.pid + sender.id) % 2 ^ 16 = sender.pid + sender.id :=
        Nat.mod_eq_of_lt hsmall
      constructor
      · exact exists_carried hpacked fun load hmem =>
          Nat.lt_of_le_of_lt (hpieces.length_le load hmem) hlen
      · intro datagrams hcarried
        have hident : (((sender.pid + sender.id) % 2 ^ 16 : Nat) : Int) ≠ peer.ident := by
          rw [hwhole, hpeer]
          exact_mod_cast hother
        exact ⟨loads, checkPackets_carried hpacked peer.toDgramSock hitype hport hident hcarried,
          hpieces.flatten⟩
      · intro datagrams hcarried datagram hmem
        obtain ⟨sequence, load, header, rfl⟩ := mem_carried hpacked hcarried hmem
        rw [checkPacket_icmpHeader sender hsame.itype (.inl hsame.remotePort), hown, hwhole,
          if_pos rfl]

/-- A socket for echo requests with the port 7. -/
def echoSock (pid id : Nat) : IcmpSock where
  recvBuffer := []
  recvBufferSize := 1024
  port := none
  remoteAddr := "127.0.0.1"
  remotePort := 7
  handleRequest := true
  bindings := none
  localInfo := none
  listening := false
  itype := 8
  ident := (pid + id : Nat)
  killed := false
  pid
  id
  sendSeq := 0
  ident_eq := rfl
  itype_lt := by decide
  remotePort_lt := by decide

theorem svzIcmpWrite_one (pid id : Nat) (byte : UInt8) :
    (svzIcmpWrite (echoSock pid id) [byte] []).ret = 0 ∧
      (svzIcmpWrite (echoSock pid id) [byte] []).packets =
        [packHeader (icmpHeader (echoSock pid id) 0 [byte]) ++ [byte]] ∧
      (svzIcmpWrite (echoSock pid id) [byte] []).sock.toDgramSock =
        (echoSock pid id).toDgramSock := by
  unfold svzIcmpWrite
  rw [if_neg (show ¬ (echoSock pid id).killed = true from Bool.false_ne_true), icmpWriteLoop,
    if_neg (List.cons_ne_nil _ _)]
  simp only [List.headD_nil, icmpMsgSize, List.take_succ_cons, List.take_nil,
    List.drop_succ_cons, List.drop_nil, icmpWriteLoop_nil]
  exact ⟨rfl, rfl, rfl⟩

theorem roundTrip_echo : RoundTrip (echoSock 100 1) (echoSock 200 2) [1] [] :=
  (roundTrip_iff (echoSock 100 1) (echoSock 200 2) [1] [] rfl (.inl rfl) rfl
    (by rw [(svzIcmpWrite_one 100 1 1).1]; decide)).mpr (.inr (by decide))

/-- In a process with a large number a socket takes its own packets. -/
theorem roundTrip_large_pid : ¬ RoundTrip (echoSock 70000 1) (echoSock 200 2) [1] [] := by
  rintro ⟨-, -, hnative⟩
  obtain ⟨-, hpackets, hsock⟩ := svzIcmpWrite_one 70000 1 1
  rw [hpackets, hsock] at hnative
  have hlen : 20 + (packHeader (icmpHeader (echoSock 70000 1) 0 [1]) ++ [1]).length < 2 ^ 16 := by
    decide
  obtain ⟨header⟩ := exists_ipv4Header hlen
  have hself := hnative [header.datagram] (.cons ⟨header, rfl⟩ .nil) _ List.mem_cons_self
  have hother : ¬ (((70000 + 1) % 2 ^ 16 : Nat) : Int) = ((70000 + 1 : Nat) : Int) := by decide
  rw [checkPacket_icmpHeader (echoSock 70000 1) rfl (.inl rfl)] at hself
  have hpass := (congrArg Prod.snd (if_neg hother)).symm.trans hself
  simp only [icmpError] at hpass
  omega

end Serveez.Port
