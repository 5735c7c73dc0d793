import Serveez.Nut.Confined
import Serveez.Nut.Regex

/-!
# Query hits, written and read back

`nut_query` answers a query with the files of the database that match its text, at most as many
as the configuration allows and at most 256. `nut_reply` reads the records of such a packet. The
number of the records is one byte, the size of a file four, and what is read of a name is made
printable. `svz_sock_write` gets the length of the answer as an `int`; lengths from `2 ^ 31` on are
not modelled.

* `nutRecords_putRecords`: what the loop reads of the records that `nut_query` writes.
* `roundTrips_iff`: which answers are read back as they were found.
* `queryHits_iff`: this together with what the loop does with any payload at all.
-/

namespace Serveez.Nut

open Lib

/-- An entry of the database of shared files. -/
structure NutFile where
  index : UInt32
  size : Nat
  file : List UInt8
  noZero : 0 ∉ file
  deriving DecidableEq

/-- What `nut_query` reads of the configuration; `ip` and `port` are those that it answers with. -/
structure QueryConfig where
  database : List NutFile
  searchLimit : Int
  ip : UInt32
  port : UInt16
  speed : UInt16
  guid : List UInt8
  guidSize : guid.length = nutGuidSize

/-- The next file that matches, and the files behind it. -/
def nutFindDatabase (search : List UInt8) : List NutFile → Option (NutFile × List NutFile)
  | [] => none
  | entry :: rest =>
    if nutStringRegex entry.file search then some (entry, rest) else nutFindDatabase search rest

def nutPutRecord (index : UInt32) (size : UInt32) : List UInt8 :=
  toBytes 4 index.toNat ++ toBytes 4 size.toNat

/-- The bytes of a file in the buffer of records. -/
def putRecord (entry : NutFile) : List UInt8 :=
  nutPutRecord entry.index (UInt32.ofNat entry.size) ++ (entry.file ++ [0, 0])

/-- The loop over the database for at most `k` files: the number of records and the buffer. Its
size is an `unsigned int`; a buffer whose size has wrapped around cannot take the record. -/
def buildRecords (search : List UInt8) : Nat → List NutFile → Nat → List UInt8 →
    Option (Nat × List UInt8)
  | 0, _, n, buffer => some (n, buffer)
  | k + 1, database, n, buffer =>
    match nutFindDatabase search database with
    | none => some (n, buffer)
    | some (entry, rest) =>
      let size := buffer.length + (sizeofNutRecord + (entry.file.length + 2))
      if size < 2 ^ 32 then buildRecords search k rest (n + 1) (buffer ++ putRecord entry)
      else none

def nutPutReply (records : UInt8) (cfg : QueryConfig) : List UInt8 :=
  [records] ++ toBytes 2 cfg.port.toNat ++ toBytes 4 cfg.ip.toNat ++ toBytes 2 cfg.speed.toNat ++
    [0, 0]

/-- What `nut_query` writes for a search text: a header and the payload, or nothing if no file
matches. -/
def nutQueryHits (cfg : QueryConfig) (hdr : NutHeader) (search : List UInt8) :
    Option (Option (NutHeader × List UInt8)) :=
  (buildRecords search (min 256 cfg.searchLimit.toNat) cfg.database 0 []).map fun (n, buffer) =>
    if n = 0 then none
    else
      some ({ hdr with
          function := nutSearchAck
          length := UInt32.ofNat (sizeofNutReply + buffer.length + nutGuidSize)
          ttl := hdr.hop, hop := 0 },
        nutPutReply (UInt8.ofNat n) cfg ++ (buffer ++ cfg.guid))

/-- The index, the size and the name of a file. -/
def NutFile.triple (entry : NutFile) : Nat × Nat × List UInt8 :=
  (entry.index.toNat, entry.size, entry.file)

def NutRecord.triple (record : NutRecord) : Nat × Nat × List UInt8 :=
  (record.index.toNat, record.size.toNat, record.file)

/-- The files that match, as many as the configuration allows and at most 256. -/
def hitsOf (cfg : QueryConfig) (search : List UInt8) : List NutFile :=
  (cfg.database.filter (fun entry => nutStringRegex entry.file search)).take
    (min 256 cfg.searchLimit.toNat)

/-- The packet that is written has the length that its header says, and is read back as the files
found and nothing else. -/
def RoundTrips (cfg : QueryConfig) (hdr : NutHeader) (search : List UInt8) : Prop :=
  ∃ written, nutQueryHits cfg hdr search = some written ∧
    ∀ hdr' payload, written = some (hdr', payload) →
      hdr'.length.toNat = payload.length ∧
        ∃ records, replyRecords payload = some (records, true) ∧
          records.map NutRecord.triple = (hitsOf cfg search).map NutFile.triple

/-- The answer fits its format: less than 256 files, with sizes of 32 bits and printable names, and
a payload whose length has 32 bits. -/
def Fits (cfg : QueryConfig) (search : List UInt8) : Prop :=
  (hitsOf cfg search).length ≤ 255 ∧
    (∀ entry ∈ hitsOf cfg search, entry.size < 2 ^ 32 ∧ ∀ c ∈ entry.file, isPrint c = true) ∧
    sizeofNutReply + ((hitsOf cfg search).flatMap putRecord).length + nutGuidSize < 2 ^ 32

/-! ## Writing -/

theorem length_nutPutRecord (index size : UInt32) :
    (nutPutRecord index size).length = sizeofNutRecord := by
  rw [nutPutRecord, List.length_append, length_toBytes, length_toBytes]
  rfl

theorem length_putRecord (entry : NutFile) :
    (putRecord entry).length = sizeofNutRecord + (entry.file.length + 2) := by
  rw [putRecord, List.length_append, length_nutPutRecord, List.length_append]
  rfl

theorem length_nutPutReply (records : UInt8) (cfg : QueryConfig) :
    (nutPutReply records cfg).length = sizeofNutReply := by
  simp only [nutPutReply, List.length_append, length_toBytes]
  rfl

theorem nutFindDatabase_none {search : List UInt8} {database : List NutFile}
    (h : nutFindDatabase search database = none) :
    database.filter (fun entry => nutStringRegex entry.file search) = [] := by
  induction database with
  | nil => rfl
  | cons entry database ih =>
    rw [nutFindDatabase] at h
    split at h
    · exact nomatch h
    · next hno => simpa only [List.filter_cons, if_neg hno] using ih h

theorem nutFindDatabase_some {search : List UInt8} {database rest : List NutFile} {entry : NutFile}
    (h : nutFindDatabase search database = some (entry, rest)) :
    database.filter (fun entry => nutStringRegex entry.file search) =
      entry :: rest.filter (fun entry => nutStringRegex entry.file search) := by
  induction database with
  | nil => exact nomatch h
  | cons first database ih =>
    rw [nutFindDatabase] at h
    split at h
    · next hyes =>
      obtain ⟨rfl, rfl⟩ := Prod.mk.inj (Option.some.inj h)
      simp only [List.filter_cons, if_pos hyes]
    · next hno => simpa only [List.filter_cons, if_neg hno] using ih h

/-- The records are those of the files that match, unless they do not fit in the buffer. -/
theorem buildRecords_eq (search : List UInt8) (k : Nat) (database : List NutFile) (n : Nat)
    (buffer : List UInt8) (hbuffer : buffer.length < 2 ^ 32) :
    let hits := (database.filter (fun entry => nutStringRegex entry.file search)).take k
    buildRecords search k database n buffer =
      if buffer.length + (hits.flatMap putRecord).length < 2 ^ 32 then
        some (n + hits.length, buffer ++ hits.flatMap putRecord)
      else none := by
  induction k generalizing database n buffer with
  | zero =>
    dsimp only
    rw [List.take_zero, List.flatMap_nil, List.length_nil, if_pos (by simpa using hbuffer),
      List.append_nil]
    rfl
  | succ k ih =>
    dsimp only
    rw [buildRecords]
    cases hfind : nutFindDatabase search database with
    | none =>
      rw [nutFindDatabase_none hfind, List.take_nil, List.flatMap_nil, List.length_nil,
        if_pos (by simpa using hbuffer), List.append_nil]
      rfl
    | some found =>
      obtain ⟨entry, rest⟩ := found
      rw [nutFindDatabase_some hfind, List.take_succ_cons, List.flatMap_cons, List.length_append,
        length_putRecord]
      dsimp only
      by_cases hfits : buffer.length + (sizeofNutRecord + (entry.file.length + 2)) < 2 ^ 32
      · have hlen : (buffer ++ putRecord entry).length =
            buffer.length + (sizeofNutRecord + (entry.file.length + 2)) := by
          rw [List.length_append, length_putRecord]
        rw [if_pos hfits, ih rest (n + 1) (buffer ++ putRecord entry) (by omega), hlen,
          List.append_assoc, List.length_cons, Nat.add_assoc n 1, Nat.add_comm 1,
          Nat.add_assoc buffer.length]
      · rw [if_neg hfits, if_neg (by omega)]

/-! ## Reading back -/

theorem getUInt32_nutPutRecord (index size : UInt32) :
    getUInt32 (nutPutRecord index size) = index ∧
      getUInt32 ((nutPutRecord index size).drop 4) = size := by
  have hback : ∀ n : UInt32, UInt32.ofNat (ofBytes (toBytes 4 n.toNat)) = n := by
    intro n
    rw [ofBytes_toBytes n.toNat_lt]
    exact UInt32.ofNat_toNat
  unfold getUInt32 nutPutRecord
  rw [List.take_left' (length_toBytes 4 _), List.drop_left' (length_toBytes 4 _),
    List.take_of_length_le (Nat.le_of_eq (length_toBytes 4 _))]
  exact ⟨hback index, hback size⟩

/-- What is read of the record of a file. -/
def NutFile.readBack (entry : NutFile) : Nat × Nat × List UInt8 :=
  (entry.index.toNat, entry.size % 2 ^ 32, nutCanonizeFile entry.file)

/-- The loop reads the records that were written, as many as the packet announces. -/
theorem nutRecords_putRecords (entries : List NutFile) (n : Nat) (guid : List UInt8) :
    ∃ records, nutRecords n (entries.flatMap putRecord).length
        (entries.flatMap putRecord ++ guid) = some (records, true) ∧
      records.map NutRecord.triple = (entries.take n).map NutFile.readBack := by
  induction entries generalizing n with
  | nil =>
    refine ⟨[], ?_, by rw [List.take_nil]; rfl⟩
    cases n with
    | zero => rfl
    | succ n => rfl
  | cons entry entries ih =>
    cases n with
    | zero => exact ⟨[], rfl, rfl⟩
    | succ n =>
      obtain ⟨records, hrecords, hmap⟩ := ih n
      have hdata := length_nutPutRecord entry.index (UInt32.ofNat entry.size)
      have hbytes : (entry :: entries).flatMap putRecord ++ guid =
          nutPutRecord entry.index (UInt32.ofNat entry.size) ++
            (entry.file ++ 0 :: 0 :: (entries.flatMap putRecord ++ guid)) := by
        simp [putRecord]
      have hlen : ((entry :: entries).flatMap putRecord).length =
          sizeofNutRecord + (entry.file.length + 2) + (entries.flatMap putRecord).length := by
        rw [List.flatMap_cons, List.length_append, length_putRecord]
      have hleft : (((entry :: entries).flatMap putRecord).length : Int) - sizeofNutRecord -
          (entry.file.length + 2 : Nat) = (entries.flatMap putRecord).length := by omega
      rw [hbytes, nutRecords_record hdata entry.noZero (by omega), hleft, hrecords]
      refine ⟨_, rfl, ?_⟩
      rw [List.map_cons, hmap, List.take_succ_cons, List.map_cons]
      congr 1
      obtain ⟨hindex, hsize⟩ := getUInt32_nutPutRecord entry.index (UInt32.ofNat entry.size)
      unfold NutRecord.triple NutFile.readBack
      rw [hindex, hsize]
      rfl

theorem nutCanonizeFile_eq_iff (file : List UInt8) :
    nutCanonizeFile file = file ↔ ∀ c ∈ file, isPrint c = true := by
  have hchar : ∀ c : UInt8, (if isPrint c then c else 95) = id c ↔ isPrint c = true := by
    intro c
    by_cases hc : isPrint c = true
    · rw [if_pos hc]
      exact ⟨fun _ => hc, fun _ => rfl⟩
    · rw [if_neg hc]
      refine ⟨fun h => absurd ?_ hc, fun h => absurd h hc⟩
      rw [← show 95 = c from h]
      rfl
  unfold nutCanonizeFile
  nth_rewrite 2 [← List.map_id file]
  rw [List.map_inj_left]
  exact forall_congr' (fun c => imp_congr_right (fun _ => hchar c))

theorem readBack_eq_triple_iff (entry : NutFile) :
    entry.readBack = entry.triple ↔
      entry.size < 2 ^ 32 ∧ ∀ c ∈ entry.file, isPrint c = true := by
  have hname := nutCanonizeFile_eq_iff entry.file
  unfold NutFile.readBack NutFile.triple
  rw [Prod.mk.injEq, Prod.mk.injEq, hname]
  constructor
  · exact fun h => ⟨by have := h.2.1; omega, h.2.2⟩
  · exact fun h => ⟨rfl, by have := h.1; omega, h.2⟩

theorem length_hitsOf_le (cfg : QueryConfig) (search : List UInt8) :
    (hitsOf cfg search).length ≤ 256 :=
  Nat.le_trans (List.length_take_le _ _) (Nat.min_le_left _ _)

/-- What is written for the files found. -/
theorem nutQueryHits_eq (cfg : QueryConfig) (hdr : NutHeader) (search : List UInt8) :
    nutQueryHits cfg hdr search =
      if ((hitsOf cfg search).flatMap putRecord).length < 2 ^ 32 then
        some (if (hitsOf cfg search).length = 0 then none
          else some ({ hdr with
              function := nutSearchAck
              length := UInt32.ofNat (sizeofNutReply +
                ((hitsOf cfg search).flatMap putRecord).length + nutGuidSize)
              ttl := hdr.hop, hop := 0 },
            nutPutReply (UInt8.ofNat (hitsOf cfg search).length) cfg ++
              ((hitsOf cfg search).flatMap putRecord ++ cfg.guid)))
      else none := by
  have hbuild := buildRecords_eq search (min 256 cfg.searchLimit.toNat) cfg.database 0 []
    (by rw [List.length_nil]; omega)
  dsimp only at hbuild
  rw [List.length_nil, Nat.zero_add, Nat.zero_add, List.nil_append] at hbuild
  unfold nutQueryHits
  rw [hbuild]
  unfold hitsOf
  split
  · rfl
  · rfl

/-- An answer is read back as it was found exactly if it fits its format. -/
theorem roundTrips_iff (cfg : QueryConfig) (hdr : NutHeader) (search : List UInt8) :
    RoundTrips cfg hdr search ↔ Fits cfg search := by
  have hsizes : sizeofNutReply = 11 ∧ nutGuidSize = 16 := ⟨rfl, rfl⟩
  have hmax := length_hitsOf_le cfg search
  unfold RoundTrips Fits
  rw [nutQueryHits_eq]
  generalize hitsOf cfg search = hits at *
  by_cases hbuffer : (hits.flatMap putRecord).length < 2 ^ 32
  swap
  · rw [if_neg hbuffer]
    constructor
    · rintro ⟨written, hwritten, -⟩
      exact nomatch hwritten
    · rintro ⟨-, -, h⟩
      omega
  rw [if_pos hbuffer]
  by_cases hnone : hits.length = 0
  · rw [if_pos hnone]
    obtain rfl := List.length_eq_zero_iff.mp hnone
    constructor
    · intro _
      refine ⟨Nat.zero_le _, ?_, ?_⟩
      · intro entry hentry
        exact nomatch hentry
      · rw [List.flatMap_nil, List.length_nil]
        omega
    · intro _
      refine ⟨none, rfl, fun _ _ h => nomatch h⟩
  rw [if_neg hnone]
  -- the number of the records is their byte
  have hpayload : (nutPutReply (UInt8.ofNat hits.length) cfg ++
      (hits.flatMap putRecord ++ cfg.guid)).length =
      sizeofNutReply + (hits.flatMap putRecord).length + nutGuidSize := by
    rw [List.length_append, length_nutPutReply, List.length_append, cfg.guidSize, Nat.add_assoc]
  obtain ⟨records, hrecords, hmap⟩ :=
    nutRecords_putRecords hits (UInt8.ofNat hits.length).toNat cfg.guid
  have hreply : replyRecords (nutPutReply (UInt8.ofNat hits.length) cfg ++
      (hits.flatMap putRecord ++ cfg.guid)) = some (records, true) := by
    unfold replyRecords
    rw [hpayload, List.drop_left' (length_nutPutReply _ cfg)]
    have hleft : sizeofNutReply + (hits.flatMap putRecord).length + nutGuidSize - sizeofNutReply -
        nutGuidSize = (hits.flatMap putRecord).length := by omega
    rw [hleft]
    exact hrecords
  have hcount : (UInt8.ofNat hits.length).toNat = hits.length % 256 := UInt8.toNat_ofNat'
  rw [hcount] at hmap
  have hsame : records.map NutRecord.triple = hits.map NutFile.triple ↔
      hits.length ≤ 255 ∧
        ∀ entry ∈ hits, entry.size < 2 ^ 32 ∧ ∀ c ∈ entry.file, isPrint c = true := by
    rw [hmap]
    constructor
    · intro heq
      have hlen := congrArg List.length heq
      rw [List.length_map, List.length_map, List.length_take] at hlen
      rw [List.take_of_length_le (by omega)] at heq
      refine ⟨by omega, fun entry hentry => ?_⟩
      exact (readBack_eq_triple_iff entry).mp (List.map_inj_left.mp heq entry hentry)
    · rintro ⟨hlen, hall⟩
      rw [Nat.mod_eq_of_lt (by omega), List.take_length]
      exact List.map_inj_left.mpr
        (fun entry hentry => (readBack_eq_triple_iff entry).mpr (hall entry hentry))
  have hlength : (UInt32.ofNat (sizeofNutReply + (hits.flatMap putRecord).length +
      nutGuidSize)).toNat = (sizeofNutReply + (hits.flatMap putRecord).length + nutGuidSize) %
        2 ^ 32 := UInt32.toNat_ofNat'
  constructor
  · rintro ⟨written, hwritten, h⟩
    obtain ⟨hlen, records', hrecords', heq⟩ := h _ _ (Option.some.inj hwritten).symm
    rw [hpayload, hlength] at hlen
    rw [hreply] at hrecords'
    obtain ⟨rfl, -⟩ := Prod.mk.inj (Option.some.inj hrecords')
    obtain ⟨hfew, hall⟩ := hsame.mp heq
    exact ⟨hfew, hall, by omega⟩
  · rintro ⟨hfew, hall, hfits⟩
    refine ⟨_, rfl, fun hdr' payload h => ?_⟩
    obtain ⟨rfl, rfl⟩ := Prod.mk.inj (Option.some.inj h)
    refine ⟨?_, records, hreply, hsame.mpr ⟨hfew, hall⟩⟩
    rw [hpayload, hlength, Nat.mod_eq_of_lt hfits]

/-- When the answer to a query is read back as it was found, and when the records accepted of any
payload end before the GUID. -/
theorem queryHits_iff (cfg : QueryConfig) (hdr : NutHeader) (search payload : List UInt8) :
    (RoundTrips cfg hdr search ↔ Fits cfg search) ∧
      (RecordsConfined payload ↔ EndsClean payload) :=
  ⟨roundTrips_iff cfg hdr search, recordsConfined_iff payload⟩

/-! ## A name that is not printable -/

/-- A database with one file, whose name is the letter e with an acute in two bytes. -/
def acuteFile : QueryConfig where
  database := [⟨0, 1000, [195, 169], by decide⟩]
  searchLimit := 20
  ip := 0x0100007f
  port := 6346
  speed := 28
  guid := List.replicate 16 9
  guidSize := rfl

/-- Query hits with one record, which consists of two bytes and the GUID behind them. -/
def shortRecord : List UInt8 :=
  [1, 0, 0, 0, 0, 0, 0, 0, 0, 0, 0] ++ [0, 0] ++ List.replicate 16 0

/-- The name is read back as two underscores, and the short record is accepted. -/
theorem queryHits_fail :
    ¬ RoundTrips acuteFile ⟨List.replicate 16 7, nutSearchReq, 5, 2, 3⟩ [195, 169] ∧
      ¬ RecordsConfined shortRecord := by
  constructor
  · rw [roundTrips_iff]
    rintro ⟨-, hall, -⟩
    exact absurd ((hall ⟨0, 1000, [195, 169], by decide⟩ (by decide)).2 195 (by decide)) (by decide)
  · intro h
    obtain ⟨records, valid, hrun, hbehind⟩ := h (by decide)
    have haccepted : replyRecords shortRecord = some ([⟨0, 0, [], -8⟩], true) := by decide
    rw [hrun] at haccepted
    rw [(Prod.mk.inj (Option.some.inj haccepted)).1] at hbehind
    exact absurd (hbehind _ List.mem_cons_self) (by decide)

end Serveez.Nut
