import Serveez.Lib.FixedCodec
import Serveez.Nut.Records

/-!
# The packet structures as bytes

For each structure of a packet `nut-core.c` has a function that reads it out of the bytes of the
packet and one that writes it into a static buffer. Numbers are stored with the low byte first,
ports are swapped into the order of the network and addresses are copied as they are, so on
hosts of both byte orders the same bytes stand for the same structure.

* `nutCodecs_invert`: reading and writing undo each other.
* `nutGetHeader_eq`, `nutGetRecord_eq`: what the model of the packets reads.
-/

namespace Serveez.Nut.Codecs

open Lib

/-! ## Byte order conversion macros -/

def ltons (x : UInt16) : UInt16 := bswap16 x

def ntols (x : UInt16) : UInt16 := bswap16 x

def ltohs (order : ByteOrder) (x : UInt16) : UInt16 :=
  match order with
  | .little => x
  | .big => bswap16 x

def htols (order : ByteOrder) (x : UInt16) : UInt16 := ltohs order x

def ltohl (order : ByteOrder) (x : UInt32) : UInt32 :=
  match order with
  | .little => x
  | .big => bswap32 x

def htoll (order : ByteOrder) (x : UInt32) : UInt32 := ltohl order x

/-- `memcpy (&uint16, data, SIZEOF_UINT16)` -/
def copy16 (order : ByteOrder) (data : List UInt8) : UInt16 :=
  UInt16.ofNat (order.load (data.take 2))

/-- `memcpy (&uint32, data, SIZEOF_UINT32)` -/
def copy32 (order : ByteOrder) (data : List UInt8) : UInt32 :=
  UInt32.ofNat (order.load (data.take 4))

/-- The bytes that `memcpy (data, &uint16, SIZEOF_UINT16)` copies. -/
def bytes16 (order : ByteOrder) (x : UInt16) : List UInt8 := order.store 2 x.toNat

/-- The bytes that `memcpy (data, &uint32, SIZEOF_UINT32)` copies. -/
def bytes32 (order : ByteOrder) (x : UInt32) : List UInt8 := order.store 4 x.toNat

/-! ## The structures -/

abbrev Guid := { id : List UInt8 // id.length = nutGuidSize }

structure NutHeader where
  id : Guid
  function : UInt8
  ttl : UInt8
  hop : UInt8
  length : UInt32

structure NutPong where
  port : UInt16
  ip : UInt32
  files : UInt32
  size : UInt32

structure NutQuery where
  speed : UInt16

structure NutRecord where
  index : UInt32
  size : UInt32

structure NutReply where
  records : UInt8
  port : UInt16
  ip : UInt32
  speed : UInt16

structure NutPush where
  id : Guid
  index : UInt32
  ip : UInt32
  port : UInt16

def nutGetHeader (order : ByteOrder) (data : List UInt8) : NutHeader where
  id := takeBytes nutGuidSize data
  function := (data.drop nutGuidSize).getD 0 0
  ttl := ((data.drop nutGuidSize).drop 1).getD 0 0
  hop := (((data.drop nutGuidSize).drop 1).drop 1).getD 0 0
  length := ltohl order (copy32 order ((((data.drop nutGuidSize).drop 1).drop 1).drop 1))

def headerBytes (order : ByteOrder) (hdr : NutHeader) : List UInt8 :=
  hdr.id.val ++ ([hdr.function] ++ ([hdr.ttl] ++ ([hdr.hop] ++
    bytes32 order (htoll order hdr.length))))

def nutPutHeader (order : ByteOrder) (buffer : List UInt8) (hdr : NutHeader) : List UInt8 :=
  overwrite buffer (headerBytes order hdr)

def nutGetPong (order : ByteOrder) (data : List UInt8) : NutPong where
  port := ltons (copy16 order data)
  ip := copy32 order (data.drop 2)
  files := ltohl order (copy32 order ((data.drop 2).drop 4))
  size := ltohl order (copy32 order (((data.drop 2).drop 4).drop 4))

def pongBytes (order : ByteOrder) (reply : NutPong) : List UInt8 :=
  bytes16 order (ntols reply.port) ++ (bytes32 order reply.ip ++
    (bytes32 order (htoll order reply.files) ++ bytes32 order (htoll order reply.size)))

def nutPutPong (order : ByteOrder) (buffer : List UInt8) (reply : NutPong) : List UInt8 :=
  overwrite buffer (pongBytes order reply)

def nutGetQuery (order : ByteOrder) (data : List UInt8) : NutQuery where
  speed := ltohs order (copy16 order data)

def queryBytes (order : ByteOrder) (query : NutQuery) : List UInt8 :=
  bytes16 order (htols order query.speed)

def nutPutQuery (order : ByteOrder) (buffer : List UInt8) (query : NutQuery) : List UInt8 :=
  overwrite buffer (queryBytes order query)

def nutGetRecord (order : ByteOrder) (data : List UInt8) : NutRecord where
  index := ltohl order (copy32 order data)
  size := ltohl order (copy32 order (data.drop 4))

def recordBytes (order : ByteOrder) (record : NutRecord) : List UInt8 :=
  bytes32 order (htoll order record.index) ++ bytes32 order (htoll order record.size)

def nutPutRecord (order : ByteOrder) (buffer : List UInt8) (record : NutRecord) : List UInt8 :=
  overwrite buffer (recordBytes order record)

def nutGetReply (order : ByteOrder) (data : List UInt8) : NutReply where
  records := data.getD 0 0
  port := ltons (copy16 order (data.drop 1))
  ip := copy32 order ((data.drop 1).drop 2)
  speed := ltohs order (copy16 order (((data.drop 1).drop 2).drop 4))

def replyBytes (order : ByteOrder) (reply : NutReply) : List UInt8 :=
  [reply.records] ++ (bytes16 order (ntols reply.port) ++ (bytes32 order reply.ip ++
    bytes16 order (htols order reply.speed)))

/-- Two bytes of the buffer are not written. -/
def nutPutReply (order : ByteOrder) (buffer : List UInt8) (reply : NutReply) : List UInt8 :=
  overwrite buffer (replyBytes order reply)

def nutGetPush (order : ByteOrder) (data : List UInt8) : NutPush where
  id := takeBytes nutGuidSize data
  index := ltohl order (copy32 order (data.drop nutGuidSize))
  ip := copy32 order ((data.drop nutGuidSize).drop 4)
  port := ltons (copy16 order (((data.drop nutGuidSize).drop 4).drop 4))

def pushBytes (order : ByteOrder) (push : NutPush) : List UInt8 :=
  push.id.val ++ (bytes32 order (htoll order push.index) ++ (bytes32 order push.ip ++
    bytes16 order (ntols push.port)))

def nutPutPush (order : ByteOrder) (buffer : List UInt8) (push : NutPush) : List UInt8 :=
  overwrite buffer (pushBytes order push)

/-! ## The fields -/

theorem inverse_raw (order : ByteOrder) : Inverse 4 (copy32 order) (bytes32 order) :=
  inverse_load32 order

theorem inverse_port (order : ByteOrder) :
    Inverse 2 (fun data => ltons (copy16 order data)) (fun x => bytes16 order (ntols x)) :=
  (inverse_load16 order).map ltons ntols bswap16_bswap16 bswap16_bswap16

theorem ltohs_ltohs (order : ByteOrder) (x : UInt16) : ltohs order (ltohs order x) = x := by
  cases order with
  | little => rfl
  | big => exact bswap16_bswap16 x

theorem ltohl_ltohl (order : ByteOrder) (x : UInt32) : ltohl order (ltohl order x) = x := by
  cases order with
  | little => rfl
  | big => exact bswap32_bswap32 x

theorem inverse_short (order : ByteOrder) :
    Inverse 2 (fun data => ltohs order (copy16 order data))
      (fun x => bytes16 order (htols order x)) :=
  (inverse_load16 order).map (ltohs order) (htols order) (ltohs_ltohs order) (ltohs_ltohs order)

theorem inverse_long (order : ByteOrder) :
    Inverse 4 (fun data => ltohl order (copy32 order data))
      (fun x => bytes32 order (htoll order x)) :=
  (inverse_load32 order).map (ltohl order) (htoll order) (ltohl_ltohl order) (ltohl_ltohl order)

/-! ## The structures field by field -/

theorem inverse_header (order : ByteOrder) :
    Inverse sizeofNutHeader (nutGetHeader order) (headerBytes order) := by
  have fields := (inverse_bytes nutGuidSize).seq (inverse_byte.seq (inverse_byte.seq
    (inverse_byte.seq (inverse_long order))))
  exact fields.map
    (fun x => (⟨x.1, x.2.1, x.2.2.1, x.2.2.2.1, x.2.2.2.2⟩ : NutHeader))
    (fun hdr : NutHeader => (hdr.id, hdr.function, hdr.ttl, hdr.hop, hdr.length))
    (fun _ => rfl) (fun _ => rfl)

theorem inverse_pong (order : ByteOrder) :
    Inverse sizeofNutPong (nutGetPong order) (pongBytes order) := by
  have fields := (inverse_port order).seq ((inverse_raw order).seq
    ((inverse_long order).seq (inverse_long order)))
  exact fields.map
    (fun x => (⟨x.1, x.2.1, x.2.2.1, x.2.2.2⟩ : NutPong))
    (fun reply : NutPong => (reply.port, reply.ip, reply.files, reply.size))
    (fun _ => rfl) (fun _ => rfl)

theorem inverse_query (order : ByteOrder) :
    Inverse sizeofNutQuery (nutGetQuery order) (queryBytes order) := by
  have fields := inverse_short order
  exact fields.map
    (fun x => (⟨x⟩ : NutQuery))
    (fun query : NutQuery => (query.speed))
    (fun _ => rfl) (fun _ => rfl)

theorem inverse_record (order : ByteOrder) :
    Inverse sizeofNutRecord (nutGetRecord order) (recordBytes order) := by
  have fields := (inverse_long order).seq (inverse_long order)
  exact fields.map
    (fun x => (⟨x.1, x.2⟩ : NutRecord))
    (fun record : NutRecord => (record.index, record.size))
    (fun _ => rfl) (fun _ => rfl)

theorem inverse_reply (order : ByteOrder) :
    Inverse (sizeofNutReply - 2) (nutGetReply order) (replyBytes order) := by
  have fields := inverse_byte.seq ((inverse_port order).seq ((inverse_raw order).seq
    (inverse_short order)))
  exact fields.map
    (fun x => (⟨x.1, x.2.1, x.2.2.1, x.2.2.2⟩ : NutReply))
    (fun reply : NutReply => (reply.records, reply.port, reply.ip, reply.speed))
    (fun _ => rfl) (fun _ => rfl)

theorem inverse_push (order : ByteOrder) :
    Inverse sizeofNutPush (nutGetPush order) (pushBytes order) := by
  have fields := (inverse_bytes nutGuidSize).seq ((inverse_long order).seq
    ((inverse_raw order).seq (inverse_port order)))
  exact fields.map
    (fun x => (⟨x.1, x.2.1, x.2.2.1, x.2.2.2⟩ : NutPush))
    (fun push : NutPush => (push.id, push.index, push.ip, push.port))
    (fun _ => rfl) (fun _ => rfl)

/-! ## Reading and writing -/

/-- After any calls of `put`: reading what it returns gives the structure, it returns `size` bytes,
and writing what was read gives the bytes, but for the last `padding` of them, which are zero. -/
def Invert {α : Type} (size padding : Nat) (get : List UInt8 → α)
    (put : List UInt8 → α → List UInt8) : Prop :=
  ∀ calls : List α,
    (∀ x, get (put (afterCalls size put calls) x) = x) ∧
      (∀ x, (put (afterCalls size put calls) x).length = size) ∧
      ∀ bytes, bytes.length = size →
        put (afterCalls size put calls) (get bytes) =
          bytes.take (size - padding) ++ List.replicate padding 0

theorem invert_of_inverse {α : Type} {n : Nat} (padding : Nat) {get : List UInt8 → α}
    {put : α → List UInt8} (h : Inverse n get put) :
    Invert (n + padding) padding get (fun buffer x => overwrite buffer (put x)) := by
  intro calls
  have hbuffer := @afterCalls_overwrite _ n padding put h.length_put calls
  refine ⟨?_, ?_, ?_⟩
  · intro x
    dsimp only
    rw [hbuffer, h.get_put]
  · intro x
    dsimp only
    rw [hbuffer, List.length_append, h.length_put, List.length_replicate]
  · intro bytes hbytes
    dsimp only
    rw [hbuffer, h.put_get bytes (by omega), Nat.add_sub_cancel]

/-- The functions for each structure undo each other, on hosts of both byte orders. -/
theorem nutCodecs_invert (order : ByteOrder) :
    Invert sizeofNutHeader 0 (nutGetHeader order) (nutPutHeader order) ∧
      Invert sizeofNutPong 0 (nutGetPong order) (nutPutPong order) ∧
      Invert sizeofNutQuery 0 (nutGetQuery order) (nutPutQuery order) ∧
      Invert sizeofNutRecord 0 (nutGetRecord order) (nutPutRecord order) ∧
      Invert sizeofNutReply 2 (nutGetReply order) (nutPutReply order) ∧
      Invert sizeofNutPush 0 (nutGetPush order) (nutPutPush order) :=
  ⟨invert_of_inverse 0 (inverse_header order), invert_of_inverse 0 (inverse_pong order),
    invert_of_inverse 0 (inverse_query order), invert_of_inverse 0 (inverse_record order),
    invert_of_inverse 2 (inverse_reply order), invert_of_inverse 0 (inverse_push order)⟩

/-! ## What the packets are read with -/

theorem bytes32_htoll (order : ByteOrder) (x : UInt32) :
    bytes32 order (htoll order x) = toBytes 4 x.toNat := by
  cases order with
  | little => rfl
  | big =>
    have hswap := toBytes_bswap32 x
    change (toBytes 4 (bswap32 x).toNat).reverse = toBytes 4 x.toNat
    rw [hswap, List.reverse_reverse]

/-- A number is read with its low byte first on every host. -/
theorem ltohl_copy32 (order : ByteOrder) {data : List UInt8} (hdata : 4 ≤ data.length) :
    ltohl order (copy32 order data) = getUInt32 data := by
  have hput := (inverse_long order).put_get data hdata
  have hget := (inverse_long .little).get_put (ltohl order (copy32 order data)) (data.drop 4)
  rw [bytes32_htoll] at hput hget
  rw [hput, List.take_append_drop] at hget
  exact hget.symm

theorem nutGetHeader_eq (order : ByteOrder) {data : List UInt8}
    (hdata : sizeofNutHeader ≤ data.length) :
    let hdr := nutGetHeader order data
    Nut.nutGetHeader data = ⟨hdr.id.val, hdr.function, hdr.ttl, hdr.hop, hdr.length⟩ := by
  intro hdr
  have hsize : sizeofNutHeader = nutGuidSize + 7 := rfl
  have hid : hdr.id.val = data.take nutGuidSize := List.takeD_eq_take 0 (by omega)
  have hlength : hdr.length = getUInt32 (data.drop (nutGuidSize + 3)) := by
    have hlong : 4 ≤ (data.drop (nutGuidSize + 3)).length := by
      rw [List.length_drop]
      omega
    have hcopy := ltohl_copy32 order hlong
    simpa only [hdr, nutGetHeader, List.drop_drop] using hcopy
  have hbyte : ∀ k, (data.drop k).getD 0 0 = data.getD k 0 := by
    intro k
    rw [List.getD_eq_getElem?_getD, List.getElem?_drop, Nat.add_zero, List.getD_eq_getElem?_getD]
  rw [hid, hlength]
  simp only [hdr, nutGetHeader, List.drop_drop, hbyte]
  rfl

theorem nutGetRecord_eq (order : ByteOrder) {data : List UInt8}
    (hdata : sizeofNutRecord ≤ data.length) :
    (nutGetRecord order data).index = getUInt32 data ∧
      (nutGetRecord order data).size = getUInt32 (data.drop 4) := by
  have hsize : sizeofNutRecord = 8 := rfl
  have hrest : 4 ≤ (data.drop 4).length := by
    rw [List.length_drop]
    omega
  exact ⟨ltohl_copy32 order (by omega), ltohl_copy32 order hrest⟩

end Serveez.Nut.Codecs
