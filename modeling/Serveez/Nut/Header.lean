import Serveez.Lib.LittleEndian
import Serveez.Lib.LengthFraming

/-!
# Gnutella headers

A packet is a header of 23 bytes and as many bytes as the header's length field says. The
numbers of a header are stored with the lowest byte first.

* `isSize_frameSize`: the size that a header announces cuts a stream into frames.
-/

namespace Serveez.Nut

open Lib

def nutGuidSize : Nat := 16

def sizeofNutHeader : Nat := nutGuidSize + 7

structure NutHeader where
  id : List UInt8
  function : UInt8
  ttl : UInt8
  hop : UInt8
  length : UInt32

def nutGetHeader (data : List UInt8) : NutHeader where
  id := data.take nutGuidSize
  function := data.getD nutGuidSize 0
  ttl := data.getD (nutGuidSize + 1) 0
  hop := data.getD (nutGuidSize + 2) 0
  length := UInt32.ofNat (ofBytes ((data.drop (nutGuidSize + 3)).take 4))

def nutPutHeader (hdr : NutHeader) : List UInt8 :=
  hdr.id.take nutGuidSize ++ [hdr.function, hdr.ttl, hdr.hop] ++ toBytes 4 hdr.length.toNat

/-- The size of the frame that begins with `data`, header included. -/
def frameSize (data : List UInt8) : Option Nat :=
  if sizeofNutHeader ≤ data.length then
    some (sizeofNutHeader + (nutGetHeader data).length.toNat)
  else none

theorem frameSize_eq_some_iff {data : List UInt8} {n : Nat} :
    frameSize data = some n ↔ sizeofNutHeader ≤ data.length ∧
      sizeofNutHeader + (nutGetHeader data).length.toNat = n := by
  unfold frameSize
  by_cases hlen : sizeofNutHeader ≤ data.length
  · rw [if_pos hlen, Option.some_inj, and_iff_right hlen]
  · rw [if_neg hlen]
    exact ⟨nofun, fun h => absurd h.1 hlen⟩

theorem nutGetHeader_take (data : List UInt8) {n : Nat} (hn : sizeofNutHeader ≤ n) :
    nutGetHeader (data.take n) = nutGetHeader data := by
  have hsize : sizeofNutHeader = nutGuidSize + 7 := rfl
  have hget : ∀ k, k < n → (data.take n).getD k 0 = data.getD k 0 := by
    intro k hk
    rw [List.getD_eq_getElem?_getD, List.getD_eq_getElem?_getD, List.getElem?_take_of_lt hk]
  have hlen : ((data.take n).drop (nutGuidSize + 3)).take 4 =
      (data.drop (nutGuidSize + 3)).take 4 := by
    rw [List.drop_take, List.take_take, Nat.min_eq_left (by omega)]
  unfold nutGetHeader
  rw [List.take_take, Nat.min_eq_left (by omega), hget _ (by omega), hget _ (by omega),
    hget _ (by omega), hlen]

theorem nutGetHeader_append {data : List UInt8} (h : sizeofNutHeader ≤ data.length)
    (rest : List UInt8) : nutGetHeader (data ++ rest) = nutGetHeader data := by
  have htake := nutGetHeader_take (data ++ rest) h
  rw [List.take_left] at htake
  exact htake.symm

theorem isSize_frameSize : IsSize frameSize where
  append := by
    intro s n t h
    obtain ⟨hlen, hn⟩ := frameSize_eq_some_iff.mp h
    refine frameSize_eq_some_iff.mpr ⟨?_, ?_⟩
    · rw [List.length_append]
      omega
    · rw [nutGetHeader_append hlen, hn]
  pos := by
    intro s n h
    have hn := (frameSize_eq_some_iff.mp h).2
    have hpos : 0 < sizeofNutHeader := by decide
    omega
  frame := by
    intro s n h hle
    obtain ⟨hlen, hn⟩ := frameSize_eq_some_iff.mp h
    refine frameSize_eq_some_iff.mpr ⟨?_, ?_⟩
    · rw [List.length_take_of_le hle]
      omega
    · rw [nutGetHeader_take _ (by omega), hn]

end Serveez.Nut
