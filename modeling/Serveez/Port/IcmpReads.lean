import Serveez.Lib.LittleEndian
import Serveez.Lib.Traced
import Serveez.Port.IcmpWrite
import Serveez.Port.Isolation

/-!
# What an ICMP socket reads of a datagram

The checks of `raw-socket.c` and `icmp-socket.c` with the offsets that they read, for a datagram
of any content. Behind the datagram the static buffer holds what was there before.

* `value_checkPacketReads`: the result is the one of `checkPacket`.
* `within_checkPacketReads`: when `check_packet` stays inside the datagram.
* `datagramSafe_iff`: it does, and `read_socket` copies no negative number of bytes, if and only
  if both headers are there whole.
-/

namespace Serveez.Port

open Lib

/-! ## The reads -/

def readByte (data : List UInt8) (i : Nat) : Traced UInt8 := Traced.readAt 0 data i

/-- Two bytes after `ntohs`. -/
def readWord (data : List UInt8) (i : Nat) : Traced UInt16 := do
  let high ← readByte data i
  let low ← readByte data (i + 1)
  pure (UInt16.ofNat (high.toNat * 256 + low.toNat))

/-- Four bytes as they are in memory. -/
def readLong (data : List UInt8) (i : Nat) : Traced UInt32 := do
  let first ← readByte data i
  let second ← readByte data (i + 1)
  let third ← readByte data (i + 2)
  let fourth ← readByte data (i + 3)
  pure (UInt32.ofNat (ofBytes [first, second, third, fourth]))

/-- `svz_ip_header_t`. -/
structure IpHeader where
  versionLength : UInt8
  tos : UInt8
  length : UInt16
  ident : UInt16
  fragOffset : UInt16
  ttl : UInt8
  protocol : UInt8
  checksum : UInt16
  src : UInt32
  dst : UInt32

/-- `unpack_header` of `raw-socket.c`. -/
def unpackIpHeader (data : List UInt8) : Traced IpHeader := do
  let versionLength ← readByte data 0
  let tos ← readByte data 1
  let length ← readWord data 2
  let ident ← readWord data 4
  let fragOffset ← readWord data 6
  let ttl ← readByte data 8
  let protocol ← readByte data 9
  let checksum ← readWord data 10
  let src ← readLong data 12
  let dst ← readLong data 16
  pure { versionLength, tos, length, ident, fragOffset, ttl, protocol, checksum, src, dst }

/-- The loop of `svz_raw_ip_checksum` over `len` bytes from `offset` on. -/
def sumWordsReads (data : List UInt8) : Nat → Nat → Traced Nat
  | _, 0 => pure 0
  | offset, 1 => do
    let last ← readByte data offset
    pure last.toNat
  | offset, len + 2 => do
    let low ← readByte data offset
    let high ← readByte data (offset + 1)
    let rest ← sumWordsReads data (offset + 2) len
    pure (low.toNat + high.toNat * 256 + rest)

/-- A length that is negative reads nothing. -/
def svzRawIpChecksumReads (data : List UInt8) (offset : Nat) (len : Int) : Traced Nat := do
  let total ← sumWordsReads data offset len.toNat
  let sum := foldChecksum 3 (total % 2 ^ 32)
  let checksum := 2 ^ 16 - 1 - sum % 2 ^ 16
  pure (checksum % 256 * 256 + checksum / 256)

/-- `IP_HDR_LENGTH`. -/
def IpHeader.hdrLength (header : IpHeader) : Nat := header.versionLength.toNat % 16 * 4

def svzRawCheckIpHeaderReads (data : List UInt8) (len : Nat) : Traced Int := do
  let header ← unpackIpHeader data
  if header.versionLength.toNat / 16 ≠ 4 then pure (-1)
  else if header.hdrLength > len then pure (-1)
  else if header.length.toNat < len then pure (-1)
  else if header.protocol.toNat ≠ 1 then pure (-1)
  else do
    -- the comparison with the checksum in the header is only reported
    let _ ← svzRawIpChecksumReads (rejectChecksum data) 0 header.hdrLength
    pure (header.hdrLength : Int)

/-- `unpack_header` of `icmp-socket.c`, at `offset`. -/
def unpackIcmpHeader (data : List UInt8) (offset : Nat) : Traced IcmpHeader := do
  let type ← readByte data offset
  let code ← readByte data (offset + 1)
  let checksum ← readWord data (offset + 2)
  let ident ← readWord data (offset + 4)
  let sequence ← readWord data (offset + 6)
  let low ← readByte data (offset + 8)
  let high ← readByte data (offset + 9)
  pure { type, code, checksum, ident, sequence
         port := UInt16.ofNat (low.toNat + high.toNat * 256) }

/-- What `check_packet` does with the header, given the checksum of the data. -/
def judgePacket (sock : DgramSock) (header : IcmpHeader) (length : Int) (checksum : Nat) :
    DgramSock × Int :=
  if header.checksum.toNat ≠ checksum then (sock, icmpError)
  else if (header.ident.toNat : Int) = sock.ident then (sock, icmpError)
  else if header.port.toNat ≠ sock.remotePort && !sock.listening then (sock, icmpError)
  else
    let sock := { sock with remotePort := header.port.toNat }
    if header.code.toNat = svzIcmpServeezClose then (sock, icmpDisconnect)
    else (sock, length + icmpHeaderSize)

def checkPacketReads (sock : DgramSock) (buffer : List UInt8) (len : Nat) :
    Traced (DgramSock × Int) := do
  let length ← svzRawCheckIpHeaderReads buffer len
  if length = -1 then pure (sock, icmpError)
  else do
    let data := rejectChecksum buffer
    let header ← unpackIcmpHeader data length.toNat
    if header.type.toNat ≠ sock.itype then pure (sock, icmpError)
    else do
      let checksum ← svzRawIpChecksumReads data (length.toNat + icmpHeaderSize)
        (len - (length + icmpHeaderSize))
      pure (judgePacket sock header length checksum)

/-! ## Which bytes are read -/

section Within

variable (data : List UInt8) (n : Nat)

theorem within_readByte (i : Nat) : (readByte data i).Within n ↔ i < n :=
  Traced.within_readAt 0 data i n

theorem within_readWord (i : Nat) : (readWord data i).Within n ↔ i + 1 < n := by
  unfold readWord
  simp only [Traced.within_bind, within_readByte, Traced.within_pure, and_true]
  omega

theorem within_readLong (i : Nat) : (readLong data i).Within n ↔ i + 3 < n := by
  unfold readLong
  simp only [Traced.within_bind, within_readByte, Traced.within_pure, and_true]
  omega

theorem within_unpackIpHeader : (unpackIpHeader data).Within n ↔ 20 ≤ n := by
  unfold unpackIpHeader
  simp only [Traced.within_bind, within_readByte, within_readWord, within_readLong,
    Traced.within_pure, and_true]
  omega

theorem within_unpackIcmpHeader (offset : Nat) :
    (unpackIcmpHeader data offset).Within n ↔ offset + icmpHeaderSize ≤ n := by
  unfold unpackIcmpHeader icmpHeaderSize
  simp only [Traced.within_bind, within_readByte, within_readWord, Traced.within_pure, and_true]
  omega

theorem within_sumWordsReads (offset len : Nat) :
    (sumWordsReads data offset len).Within n ↔ len = 0 ∨ offset + len ≤ n := by
  induction offset, len using sumWordsReads.induct with
  | case1 offset => exact iff_of_true (Traced.within_pure _ _) (.inl rfl)
  | case2 offset =>
    rw [sumWordsReads, Traced.within_bind, within_readByte]
    simp only [Traced.within_pure, and_true]
    omega
  | case3 offset len ih =>
    rw [sumWordsReads]
    simp only [Traced.within_bind, within_readByte, Traced.within_pure, and_true, ih]
    omega

theorem within_svzRawIpChecksumReads (offset : Nat) (len : Int) :
    (svzRawIpChecksumReads data offset len).Within n ↔ len ≤ 0 ∨ offset + len ≤ n := by
  unfold svzRawIpChecksumReads
  simp only [Traced.within_bind, within_sumWordsReads, Traced.within_pure, and_true]
  omega

end Within

/-! ## What the reads give -/

section Value

variable (data : List UInt8)

theorem value_readByte (i : Nat) : (readByte data i).value.toNat = byteAt data i := rfl

theorem value_readWord (i : Nat) : (readWord data i).value.toNat = wordAt data i := by
  have hhigh : byteAt data i < 256 := UInt8.toNat_lt _
  have hlow : byteAt data (i + 1) < 256 := UInt8.toNat_lt _
  have hsmall : byteAt data i * 256 + byteAt data (i + 1) < 2 ^ 16 := by omega
  unfold readWord
  rw [Traced.value_bind, Traced.value_bind, Traced.value_pure, value_readByte, value_readByte,
    UInt16.toNat_ofNat', Nat.mod_eq_of_lt hsmall, wordAt]

theorem byteAt_drop (offset i : Nat) : byteAt (data.drop offset) i = byteAt data (offset + i) := by
  unfold byteAt
  rw [List.getD_eq_getElem?_getD, List.getElem?_drop, List.getD_eq_getElem?_getD]

/-- Behind the end there are zeros, which add nothing. -/
theorem sumWords_take_succ (len : Nat) :
    sumWords (data.take (len + 2)) =
      byteAt data 0 + byteAt data 1 * 256 + sumWords ((data.drop 2).take len) := by
  match data with
  | [] =>
    rw [List.take_nil, List.drop_nil, List.take_nil]
    rfl
  | [a] =>
    have hfirst : byteAt [a] 0 = a.toNat := rfl
    have hsecond : byteAt [a] 1 = 0 := rfl
    rw [List.take_succ_cons, List.take_nil, List.drop_succ_cons, List.drop_nil, List.take_nil,
      sumWords, sumWords, hfirst, hsecond]
    omega
  | a :: b :: rest =>
    rw [List.take_succ_cons, List.take_succ_cons, List.drop_succ_cons, List.drop_succ_cons,
      List.drop_zero, sumWords]
    rfl

theorem value_sumWordsReads (offset len : Nat) :
    (sumWordsReads data offset len).value = sumWords ((data.drop offset).take len) := by
  induction offset, len using sumWordsReads.induct with
  | case1 offset => rfl
  | case2 offset =>
    have hfirst : byteAt (data.drop offset) 0 = byteAt data offset := byteAt_drop data offset 0
    rw [sumWordsReads, Traced.value_bind, Traced.value_pure, value_readByte, ← hfirst]
    cases data.drop offset with
    | nil => rfl
    | cons a rest => rfl
  | case3 offset len ih =>
    rw [sumWordsReads]
    simp only [Traced.value_bind, Traced.value_pure, value_readByte]
    rw [ih, sumWords_take_succ, List.drop_drop, byteAt_drop, byteAt_drop]
    rfl

theorem value_svzRawIpChecksumReads (offset : Nat) (len : Int) :
    (svzRawIpChecksumReads data offset len).value =
      svzRawIpChecksum ((data.drop offset).take len.toNat) := by
  unfold svzRawIpChecksumReads
  rw [Traced.value_bind, value_sumWordsReads]
  rfl

/-- The result is the one of the check without the trace. -/
theorem value_svzRawCheckIpHeaderReads (len : Nat) :
    (svzRawCheckIpHeaderReads data len).value = svzRawCheckIpHeader data len := by
  have hversion : (unpackIpHeader data).value.versionLength.toNat = byteAt data 0 := rfl
  have hlength : (unpackIpHeader data).value.length.toNat = wordAt data 2 := value_readWord data 2
  have hprotocol : (unpackIpHeader data).value.protocol.toNat = byteAt data 9 := rfl
  have hhdr : (unpackIpHeader data).value.hdrLength = ipHdrLength data := rfl
  unfold svzRawCheckIpHeaderReads svzRawCheckIpHeader
  rw [Traced.value_bind, hversion, hlength, hprotocol, hhdr]
  split_ifs <;> rfl

end Value

/-- `check_packet` on what `unpack_header` gives. -/
theorem value_unpackIcmpHeader (data : List UInt8) (offset : Nat) :
    (unpackIcmpHeader data offset).value.type.toNat = byteAt data offset ∧
      (unpackIcmpHeader data offset).value.code.toNat = byteAt data (offset + 1) ∧
      (unpackIcmpHeader data offset).value.checksum.toNat = wordAt data (offset + 2) ∧
      (unpackIcmpHeader data offset).value.ident.toNat = wordAt data (offset + 4) ∧
      (unpackIcmpHeader data offset).value.port.toNat =
        byteAt data (offset + 8) + byteAt data (offset + 9) * 256 := by
  have hlow : byteAt data (offset + 8) < 256 := UInt8.toNat_lt _
  have hhigh : byteAt data (offset + 9) < 256 := UInt8.toNat_lt _
  have hsmall : byteAt data (offset + 8) + byteAt data (offset + 9) * 256 < 2 ^ 16 := by omega
  refine ⟨rfl, rfl, value_readWord data (offset + 2), value_readWord data (offset + 4), ?_⟩
  simp only [unpackIcmpHeader, Traced.value_bind, Traced.value_pure, value_readByte]
  rw [UInt16.toNat_ofNat', Nat.mod_eq_of_lt hsmall]

theorem value_checkPacketReads (sock : DgramSock) (buffer : List UInt8) (len : Nat) :
    (checkPacketReads sock buffer len).value = checkPacket sock buffer len := by
  unfold checkPacketReads checkPacket
  rw [Traced.value_bind, value_svzRawCheckIpHeaderReads]
  by_cases hreject : svzRawCheckIpHeader buffer len = -1
  · simp only [if_pos hreject, Traced.value_pure]
  · have hhdr := svzRawCheckIpHeader_eq hreject
    obtain ⟨htype, hcode, hchecksum, hident, hport⟩ :=
      value_unpackIcmpHeader (rejectChecksum buffer) (ipHdrLength buffer)
    have hlen : ((len : Int) - ((ipHdrLength buffer : Int) + icmpHeaderSize)).toNat =
        len - (ipHdrLength buffer + icmpHeaderSize) := by omega
    rw [hhdr] at hreject ⊢
    simp only [if_neg hreject, Traced.value_bind, Int.toNat_natCast, htype]
    split
    · rfl
    · rw [Traced.value_bind, value_svzRawIpChecksumReads, hlen, Traced.value_pure, judgePacket,
        hcode, hchecksum, hident, hport]

/-! ## Inside the datagram -/

/-- The fields of the IP header are such that `svz_raw_check_ip_header` accepts it. -/
def HeaderValid (data : List UInt8) (len : Nat) : Prop :=
  byteAt data 0 / 16 = 4 ∧ ipHdrLength data ≤ len ∧ len ≤ wordAt data 2 ∧ byteAt data 9 = 1

theorem svzRawCheckIpHeader_ne_iff (data : List UInt8) (len : Nat) :
    svzRawCheckIpHeader data len ≠ -1 ↔ HeaderValid data len := by
  unfold svzRawCheckIpHeader HeaderValid
  split_ifs <;> omega

theorem within_svzRawCheckIpHeaderReads (data : List UInt8) (len : Nat) :
    (svzRawCheckIpHeaderReads data len).Within len ↔ 20 ≤ len := by
  unfold svzRawCheckIpHeaderReads
  rw [Traced.within_bind, within_unpackIpHeader]
  refine and_iff_left ?_
  split_ifs with hversion hfits htotal hprotocol
  · exact Traced.within_pure _ _
  · exact Traced.within_pure _ _
  · exact Traced.within_pure _ _
  · exact Traced.within_pure _ _
  · rw [Traced.within_bind, within_svzRawIpChecksumReads]
    exact ⟨.inr (by omega), Traced.within_pure _ _⟩

theorem within_checkPacketReads (sock : DgramSock) (buffer : List UInt8) (len : Nat) :
    (checkPacketReads sock buffer len).Within len ↔
      20 ≤ len ∧ (HeaderValid buffer len → ipHdrLength buffer + icmpHeaderSize ≤ len) := by
  unfold checkPacketReads
  rw [Traced.within_bind, within_svzRawCheckIpHeaderReads, value_svzRawCheckIpHeaderReads]
  refine and_congr_right fun _ => ?_
  by_cases hreject : svzRawCheckIpHeader buffer len = -1
  · have hinvalid : ¬ HeaderValid buffer len :=
      fun hvalid => (svzRawCheckIpHeader_ne_iff buffer len).mpr hvalid hreject
    rw [if_pos hreject]
    exact iff_of_true (Traced.within_pure _ _) (fun hvalid => absurd hvalid hinvalid)
  · have hvalid := (svzRawCheckIpHeader_ne_iff buffer len).mp hreject
    rw [if_neg hreject, Traced.within_bind, within_unpackIcmpHeader,
      svzRawCheckIpHeader_eq hreject, Int.toNat_natCast]
    constructor
    · exact fun h _ => h.1
    · intro h
      refine ⟨h hvalid, ?_⟩
      split
      · exact Traced.within_pure _ _
      · have hfits := h hvalid
        rw [Traced.within_bind, within_svzRawIpChecksumReads]
        exact ⟨.inr (by omega), Traced.within_pure _ _⟩

theorem checkPacket_le {sock : DgramSock} {buffer : List UInt8} {len : Nat}
    (h : HeaderValid buffer len → ipHdrLength buffer + icmpHeaderSize ≤ len) :
    (checkPacket sock buffer len).2 ≤ len := by
  rcases Int.lt_or_le (checkPacket sock buffer len).2 0 with hneg | hpos
  · omega
  · have haccept : svzRawCheckIpHeader buffer len ≠ -1 := by
      intro hreject
      have herror : (checkPacket sock buffer len).2 = icmpError := by
        simp only [checkPacket, hreject, if_true]
      rw [herror] at hpos
      exact absurd hpos (by decide)
    have hle := h ((svzRawCheckIpHeader_ne_iff buffer len).mp haccept)
    rw [checkPacket_trunc hpos]
    omega

/-! ## Reading a datagram -/

/-- The static buffer with the datagram at its start. -/
def staticBuffer (datagram stale : List UInt8) : List UInt8 :=
  datagram ++ stale.drop datagram.length

/-- `read_socket` after a datagram has arrived. -/
def icmpReadDatagram (handles : Handles) (sock : DgramSock) (sender : String)
    (datagram stale : List UInt8) : Except Fault (DgramSock × Int) :=
  let buffer := staticBuffer datagram stale
  let checked := checkPacket { sock with remoteAddr := sender } buffer datagram.length
  let trunc := checked.2
  if trunc = icmpDisconnect then .ok (checked.1, -1)
  else if trunc < 0 then .ok (checked.1, 0)
  else
    let numRead : Int := datagram.length - trunc
    if numRead > (sock.recvBufferSize : Int) - sock.recvBuffer.length then .ok (checked.1, -1)
    else if numRead < 0 then .error .negativeCopy
    else
      let bytes := ((rejectChecksum buffer).drop trunc.toNat).take numRead.toNat
      let read := { checked.1 with recvBuffer := sock.recvBuffer ++ bytes }
      if svzSockCheckAccess read.port read.remoteAddr < 0 then .ok (read, 0)
      else .ok ((svzIcmpCheckRequest handles read).1, 0)

/-- For a packet with an IP header it is the reader of `Serveez.Port.Datagram`. -/
theorem icmpReadPacket_eq (handles : Handles) (sock : DgramSock) (packet : IpPacket)
    (stale : List UInt8) :
    (icmpReadPacket handles sock packet stale).map (fun r => (r.1, r.2.1)) =
      icmpReadDatagram handles sock packet.sender packet.bytes stale := by
  have hbuffer : staticBuffer packet.bytes stale = icmpBuffer packet stale := rfl
  unfold icmpReadPacket icmpReadDatagram
  rw [hbuffer]
  simp only
  split_ifs <;> rfl

/-- A datagram that is checked and copied without leaving it, and without leaving the receive
buffer. -/
structure DatagramSafe (handles : Handles) (sock : DgramSock) (sender : String)
    (datagram stale : List UInt8) : Prop where
  ipHeader : (svzRawCheckIpHeaderReads (staticBuffer datagram stale) datagram.length).Within
    datagram.length
  packet : (checkPacketReads { sock with remoteAddr := sender } (staticBuffer datagram stale)
    datagram.length).Within datagram.length
  trunc_le : (checkPacket { sock with remoteAddr := sender } (staticBuffer datagram stale)
    datagram.length).2 ≤ datagram.length
  read : ∃ sock' ret, icmpReadDatagram handles sock sender datagram stale = .ok (sock', ret) ∧
    (sock.recvBuffer.length ≤ sock.recvBufferSize →
      sock'.recvBuffer.length ≤ sock'.recvBufferSize)

/-- Both headers are there. -/
def BothHeaders (datagram : List UInt8) : Prop :=
  20 ≤ datagram.length ∧ (HeaderValid datagram datagram.length →
    ipHdrLength datagram + icmpHeaderSize ≤ datagram.length)

theorem byteAt_staticBuffer {datagram : List UInt8} (stale : List UInt8) {i : Nat}
    (h : i < datagram.length) : byteAt (staticBuffer datagram stale) i = byteAt datagram i :=
  byteAt_append_left h

theorem headerValid_staticBuffer {datagram : List UInt8} (stale : List UInt8)
    (h : 20 ≤ datagram.length) :
    ipHdrLength (staticBuffer datagram stale) = ipHdrLength datagram ∧
      (HeaderValid (staticBuffer datagram stale) datagram.length ↔
        HeaderValid datagram datagram.length) := by
  have hhdr : ipHdrLength (staticBuffer datagram stale) = ipHdrLength datagram := by
    rw [ipHdrLength, ipHdrLength, byteAt_staticBuffer stale (by omega)]
  refine ⟨hhdr, ?_⟩
  unfold HeaderValid wordAt
  rw [hhdr, byteAt_staticBuffer stale (by omega), byteAt_staticBuffer stale (by omega),
    byteAt_staticBuffer stale (by omega), byteAt_staticBuffer stale (by omega)]

/-- The request is taken out of the buffer or left there. -/
theorem checkDatagram_buffer (handles : Handles) (sock : DgramSock) :
    (checkDatagram handles sock).1.recvBufferSize = sock.recvBufferSize ∧
      (checkDatagram handles sock).1.recvBuffer.length ≤ sock.recvBuffer.length := by
  unfold checkDatagram
  split
  · exact ⟨rfl, Nat.le_refl _⟩
  · split
    · split
      · exact ⟨rfl, Nat.le_refl _⟩
      · exact ⟨rfl, Nat.zero_le _⟩
    · exact ⟨rfl, Nat.zero_le _⟩

/-- An offset inside the datagram leads to a copy that fits. -/
theorem icmpReadDatagram_ok {handles : Handles} {sock : DgramSock} {sender : String}
    {datagram stale : List UInt8}
    (htrunc : (checkPacket { sock with remoteAddr := sender } (staticBuffer datagram stale)
      datagram.length).2 ≤ datagram.length) :
    ∃ sock' ret, icmpReadDatagram handles sock sender datagram stale = .ok (sock', ret) ∧
      (sock.recvBuffer.length ≤ sock.recvBufferSize →
        sock'.recvBuffer.length ≤ sock'.recvBufferSize) := by
  obtain ⟨remotePort, hsock⟩ := checkPacket_sock { sock with remoteAddr := sender }
    (staticBuffer datagram stale) datagram.length
  unfold icmpReadDatagram
  simp only
  split_ifs with hclose herror hroom hneg hdeny
  · exact ⟨_, _, rfl, by rw [hsock]; exact id⟩
  · exact ⟨_, _, rfl, by rw [hsock]; exact id⟩
  · exact ⟨_, _, rfl, by rw [hsock]; exact id⟩
  · omega
  · refine ⟨_, _, rfl, fun hfill => ?_⟩
    rw [hsock]
    simp only [List.length_append, List.length_take]
    omega
  · refine ⟨_, _, rfl, fun hfill => ?_⟩
    have hserved := checkDatagram_buffer handles { sock with
      remoteAddr := sender
      remotePort
      recvBuffer := sock.recvBuffer ++
        ((rejectChecksum (staticBuffer datagram stale)).drop
          (checkPacket { sock with remoteAddr := sender } (staticBuffer datagram stale)
            datagram.length).2.toNat).take
          ((datagram.length : Int) - (checkPacket { sock with remoteAddr := sender }
            (staticBuffer datagram stale) datagram.length).2).toNat }
    simp only [List.length_append, List.length_take] at hserved
    rw [hsock, svzIcmpCheckRequest, hserved.1]
    exact le_trans hserved.2 (by omega)

/-- A datagram is safe if and only if the IP header is there whole and, where it is accepted,
the ICMP header, too. -/
theorem datagramSafe_iff (handles : Handles) (sock : DgramSock) (sender : String)
    (datagram stale : List UInt8) :
    DatagramSafe handles sock sender datagram stale ↔ BothHeaders datagram := by
  have hpacket := within_checkPacketReads { sock with remoteAddr := sender }
    (staticBuffer datagram stale) datagram.length
  constructor
  · intro h
    obtain ⟨hlen, hicmp⟩ := hpacket.mp h.packet
    obtain ⟨hhdr, hvalid⟩ := headerValid_staticBuffer stale hlen
    rw [hhdr, hvalid] at hicmp
    exact ⟨hlen, hicmp⟩
  · rintro ⟨hlen, hicmp⟩
    obtain ⟨hhdr, hvalid⟩ := headerValid_staticBuffer stale hlen
    have hicmp' : HeaderValid (staticBuffer datagram stale) datagram.length →
        ipHdrLength (staticBuffer datagram stale) + icmpHeaderSize ≤ datagram.length := by
      rw [hhdr, hvalid]
      exact hicmp
    have htrunc : (checkPacket { sock with remoteAddr := sender }
        (staticBuffer datagram stale) datagram.length).2 ≤ datagram.length :=
      checkPacket_le hicmp'
    exact ⟨(within_svzRawCheckIpHeaderReads _ _).mpr hlen, hpacket.mpr ⟨hlen, hicmp'⟩, htrunc,
      icmpReadDatagram_ok htrunc⟩

/-- An echo request without data, as long as ICMP has it; the port is missing. -/
def barePing : List UInt8 :=
  [69, 0, 0, 28, 0, 0, 0, 0, 64, 1, 0, 0, 127, 0, 0, 1, 127, 0, 0, 1, 8, 0, 255, 255, 0, 0, 0, 0]

/-- The port comes from an earlier packet, and the reader copies minus two bytes. -/
theorem barePing_not_safe (handles : Handles) :
    icmpReadDatagram handles (echoSock 100 1).toDgramSock "127.0.0.1" barePing
        (List.replicate 28 0 ++ [7, 0]) = .error .negativeCopy := rfl

theorem not_datagramSafe_barePing :
    ¬ DatagramSafe (fun _ => 0) (echoSock 100 1).toDgramSock "127.0.0.1" barePing
      (List.replicate 28 0 ++ [7, 0]) := by
  rintro ⟨-, -, -, sock, ret, hread, -⟩
  rw [barePing_not_safe] at hread
  cases hread

end Serveez.Port
