import Serveez.Lib.ByteOrder
import Serveez.Lib.OnesComplement
import Serveez.Port.Datagram

/-!
# The checksum of IP packets

`svz_raw_ip_checksum` adds the words of two bytes with the low byte first, on every host, and hands
the result to `htons`, which swaps the bytes on a little-endian host only. The checksum of the
internet protocols (`internetChecksum`) is defined on words with the high byte first. On a
little-endian host the two agree (`svzRawIpChecksum_internet`) because swapping the bytes is
multiplication by `256` for sums with end-around carry; `checksumRight_iff` says when they do.

`Datagram.lean` has the function for a little-endian host.
-/

namespace Serveez.Port

open Lib

/-- `svz_raw_ip_checksum` on a host of a byte order. -/
def svzRawIpChecksumOn (order : ByteOrder) (data : List UInt8) : Nat :=
  let sum := foldChecksum 3 (sumWords data % 2 ^ 32)
  let checksum := 2 ^ 16 - 1 - sum % 2 ^ 16
  match order with
  | .little => checksum % 256 * 256 + checksum / 256
  | .big => checksum

theorem svzRawIpChecksumOn_little (data : List UInt8) :
    svzRawIpChecksumOn .little data = svzRawIpChecksum data := rfl

/-! ## The definition of the protocol -/

/-- The words in network byte order, the last one filled up with a zero byte. -/
def networkWords : List UInt8 → List Nat
  | [] => []
  | [a] => [a.toNat * 256]
  | a :: b :: rest => (a.toNat * 256 + b.toNat) :: networkWords rest

/-- The one's complement of the one's complement sum of the words. -/
def internetChecksum (data : List UInt8) : Nat :=
  2 ^ 16 - 1 - carrySum (2 ^ 16 - 1) (networkWords data)

/-! ## The accumulator -/

/-- The two loops over the data, in the 32 bits of `checksum`. -/
def sumLoop (checksum : UInt32) : List UInt8 → UInt32
  | [] => checksum
  | [a] => checksum + a.toUInt32
  | a :: b :: rest => sumLoop (checksum + (a.toUInt32 ||| b.toUInt32 <<< 8)) rest

/-- The values that `checksum` would get without a bound. -/
def accumulators (checksum : Nat) : List UInt8 → List Nat
  | [] => []
  | [a] => [checksum + a.toNat]
  | a :: b :: rest =>
    let next := checksum + (a.toNat + b.toNat * 256)
    next :: accumulators next rest

theorem toNat_word (a b : UInt8) :
    (a.toUInt32 ||| b.toUInt32 <<< 8).toNat = a.toNat + b.toNat * 256 := by
  have ha := a.toNat_lt
  have hb := b.toNat_lt
  have hshift : (b.toUInt32 <<< 8).toNat = b.toNat * 2 ^ 8 := by
    simp only [UInt32.toNat_shiftLeft, UInt8.toNat_toUInt32, Nat.shiftLeft_eq]
    exact Nat.mod_eq_of_lt (by simp; omega)
  have hor : 2 ^ 8 * b.toNat + a.toNat = 2 ^ 8 * b.toNat ||| a.toNat :=
    Nat.two_pow_add_eq_or_of_lt (by omega) _
  rw [UInt32.toNat_or, hshift, UInt8.toNat_toUInt32, Nat.or_comm, Nat.mul_comm, ← hor]
  omega

theorem toNat_sumLoop (checksum : UInt32) (data : List UInt8) :
    (sumLoop checksum data).toNat = (checksum.toNat + sumWords data) % 2 ^ 32 := by
  fun_induction sumLoop checksum data with
  | case1 checksum =>
    have h := checksum.toNat_lt
    rw [sumWords, Nat.add_zero, Nat.mod_eq_of_lt h]
  | case2 checksum a => rw [UInt32.toNat_add, UInt8.toNat_toUInt32, sumWords]
  | case3 checksum a b rest ih =>
    rw [ih, UInt32.toNat_add, toNat_word, sumWords]
    omega

theorem sumWords_le (data : List UInt8) : sumWords data ≤ (data.length + 1) / 2 * 65535 := by
  fun_induction sumWords data with
  | case1 => simp
  | case2 a =>
    have ha := a.toNat_lt
    simp only [List.length_singleton]
    omega
  | case3 a b rest ih =>
    have ha := a.toNat_lt
    have hb := b.toNat_lt
    simp only [List.length_cons]
    omega

theorem accumulators_le (checksum : Nat) (data : List UInt8) :
    ∀ value ∈ accumulators checksum data, value ≤ checksum + sumWords data := by
  fun_induction accumulators checksum data with
  | case1 => simp
  | case2 => simp [sumWords]
  | case3 checksum a b rest next ih =>
    intro value hvalue
    rw [sumWords]
    rcases List.mem_cons.mp hvalue with rfl | hrest
    · omega
    · have := ih value hrest
      omega

/-! ## The fold -/

theorem foldChecksum_represents (fuel sum : Nat) :
    foldChecksum fuel sum ≡ sum [MOD 2 ^ 16 - 1] ∧ (foldChecksum fuel sum = 0 ↔ sum = 0) := by
  fun_induction foldChecksum fuel sum with
  | case1 sum => exact ⟨rfl, Iff.rfl⟩
  | case2 fuel sum hsum => exact ⟨rfl, Iff.rfl⟩
  | case3 fuel sum hsum ih =>
    have hround : sum % 2 ^ 16 + sum / 2 ^ 16 ≡ sum [MOD 2 ^ 16 - 1] := by
      unfold Nat.ModEq
      omega
    refine ⟨ih.1.trans hround, ?_⟩
    rw [ih.2]
    omega

/-- Two rounds are enough for every number of 32 bits. -/
theorem foldChecksum_two {sum : Nat} (hsum : sum < 2 ^ 32) : foldChecksum 2 sum < 2 ^ 16 := by
  simp only [foldChecksum]
  split
  · omega
  · split <;> omega

/-- Once the sum fits into 16 bits there are no more rounds. -/
theorem foldChecksum_succ {fuel sum : Nat} (h : foldChecksum fuel sum < 2 ^ 16) :
    foldChecksum (fuel + 1) sum = foldChecksum fuel sum := by
  fun_induction foldChecksum fuel sum with
  | case1 sum =>
    rw [foldChecksum, if_pos (by omega)]
  | case2 fuel sum hsum => rw [foldChecksum, if_pos hsum]
  | case3 fuel sum hsum ih => rw [foldChecksum, if_neg hsum, ih h]

/-! ## The order of the bytes -/

theorem sumWords_swap (data : List UInt8) :
    256 * sumWords data ≡ (networkWords data).sum [MOD 2 ^ 16 - 1] ∧
      (256 * sumWords data = 0 ↔ (networkWords data).sum = 0) := by
  fun_induction networkWords data with
  | case1 => simp [sumWords, Nat.ModEq]
  | case2 a =>
    simp only [sumWords, List.sum_singleton, Nat.ModEq]
    omega
  | case3 a b rest ih =>
    simp only [sumWords, List.sum_cons, Nat.ModEq] at ih ⊢
    omega

theorem networkWords_le (data : List UInt8) : ∀ w ∈ networkWords data, w ≤ 2 ^ 16 - 1 := by
  fun_induction networkWords data with
  | case1 => simp
  | case2 a =>
    have ha := a.toNat_lt
    simp only [List.mem_singleton, forall_eq]
    omega
  | case3 a b rest ih =>
    have ha := a.toNat_lt
    have hb := b.toNat_lt
    intro w hw
    rcases List.mem_cons.mp hw with rfl | hrest
    · omega
    · exact ih w hrest

/-- Swapping the bytes of what is left is multiplying the sum by `256`. -/
theorem represents_swap {s x : Nat} (h : Represents (2 ^ 16 - 1) s x) :
    Represents (2 ^ 16 - 1) (256 * s) (x % 256 * 256 + x / 256) := by
  have hx := h.le
  have hmod := h.modEq
  have hzero := h.zero_iff
  unfold Nat.ModEq at hmod
  refine ⟨by omega, ?_, by omega⟩
  unfold Nat.ModEq
  omega

theorem complement_swap {x : Nat} (h : x < 2 ^ 16) :
    (2 ^ 16 - 1 - x % 2 ^ 16) % 256 * 256 + (2 ^ 16 - 1 - x % 2 ^ 16) / 256 =
      2 ^ 16 - 1 - (x % 256 * 256 + x / 256) := by
  omega

/-- What is left of the code's sum is the protocol's sum with its bytes swapped. -/
theorem foldChecksum_swap {data : List UInt8} (hsum : sumWords data < 2 ^ 32) :
    let x := foldChecksum 2 (sumWords data)
    x % 256 * 256 + x / 256 = carrySum (2 ^ 16 - 1) (networkWords data) := by
  intro x
  obtain ⟨hmod, hzero⟩ := foldChecksum_represents 2 (sumWords data)
  have htwo := foldChecksum_two hsum
  have hleft : Represents (2 ^ 16 - 1) (sumWords data) x := ⟨by omega, hmod, hzero⟩
  have hnetwork := (represents_swap hleft).congr (sumWords_swap data).1 (sumWords_swap data).2
  exact hnetwork.unique (represents_carrySum (networkWords data) (networkWords_le data))

/-! ## The checksum on all hosts -/

theorem sumWords_lt {data : List UInt8} (hlen : data.length ≤ 65535) :
    sumWords data < 2 ^ 32 := by
  have hle := sumWords_le data
  have hwords : (data.length + 1) / 2 ≤ 32768 := by omega
  have hmul : (data.length + 1) / 2 * 65535 ≤ 32768 * 65535 := Nat.mul_le_mul_right _ hwords
  omega

theorem toNat_sumLoop_zero {data : List UInt8} (hsum : sumWords data < 2 ^ 32) :
    (sumLoop 0 data).toNat = sumWords data := by
  rw [toNat_sumLoop, UInt32.toNat_zero, Nat.zero_add, Nat.mod_eq_of_lt hsum]

/-- On a big-endian host the bytes of the checksum are swapped. -/
theorem internetChecksum_swap {data : List UInt8} (hsum : sumWords data < 2 ^ 32) :
    let checksum := svzRawIpChecksumOn .big data
    checksum % 256 * 256 + checksum / 256 = internetChecksum data := by
  have hswap := foldChecksum_swap hsum
  have htwo := foldChecksum_two hsum
  unfold svzRawIpChecksumOn internetChecksum
  dsimp only
  rw [Nat.mod_eq_of_lt hsum, foldChecksum_succ htwo, ← hswap]
  generalize foldChecksum 2 (sumWords data) = x at htwo
  exact complement_swap htwo

theorem svzRawIpChecksum_internet {data : List UInt8} (hsum : sumWords data < 2 ^ 32) :
    svzRawIpChecksum data = internetChecksum data := internetChecksum_swap hsum

/-- A number of two bytes is not changed by their swap if it is a multiple of `257`. -/
theorem swap_eq_self_iff {x : Nat} (h : x < 2 ^ 16) : x = x % 256 * 256 + x / 256 ↔ 257 ∣ x := by
  omega

/-- The sum of the words tells whether the two bytes of the checksum are the same, as `257`
divides `2 ^ 16 - 1`. -/
theorem dvd_checksum_iff {data : List UInt8} (hsum : sumWords data < 2 ^ 32) :
    257 ∣ svzRawIpChecksumOn .big data ↔ 257 ∣ (networkWords data).sum := by
  have hdvd : 257 ∣ 2 ^ 16 - 1 := ⟨255, rfl⟩
  have hfold := (foldChecksum_represents 2 (sumWords data)).1.dvd_iff hdvd
  have hnetwork := (sumWords_swap data).1.dvd_iff hdvd
  have hcoprime : Nat.Coprime 257 256 := by decide
  have htwo := foldChecksum_two hsum
  rw [← hnetwork, hcoprime.dvd_mul_left, ← hfold]
  unfold svzRawIpChecksumOn
  dsimp only
  rw [Nat.mod_eq_of_lt hsum, foldChecksum_succ htwo, Nat.mod_eq_of_lt htwo]
  exact Nat.dvd_sub_iff_right (by omega) hdvd

/-- The result is the checksum of the protocol, the sum is what 32 bits hold all the time, and
after two rounds at most there is nothing left to fold. -/
structure ChecksumRight (order : ByteOrder) (data : List UInt8) : Prop where
  result : svzRawIpChecksumOn order data = internetChecksum data
  exact : (sumLoop 0 data).toNat = sumWords data
  fits : ∀ value ∈ accumulators 0 data, value < 2 ^ 32
  ends : foldChecksum 2 (sumLoop 0 data).toNat / 2 ^ 16 = 0

/-- The checksum is right on all little-endian hosts, and on the others for the strings whose words
have a sum that is a multiple of `257`. -/
theorem checksumRight_iff (order : ByteOrder) (data : List UInt8) (hlen : data.length ≤ 65535) :
    ChecksumRight order data ↔ order = .little ∨ 257 ∣ (networkWords data).sum := by
  have hsum := sumWords_lt hlen
  have hloop := toNat_sumLoop_zero hsum
  have hresult : svzRawIpChecksumOn order data = internetChecksum data ↔
      order = .little ∨ 257 ∣ (networkWords data).sum := by
    cases order with
    | little =>
      rw [svzRawIpChecksumOn_little]
      exact iff_of_true (svzRawIpChecksum_internet hsum) (Or.inl rfl)
    | big =>
      have hlt : svzRawIpChecksumOn .big data < 2 ^ 16 := by
        unfold svzRawIpChecksumOn
        dsimp only
        omega
      rw [← internetChecksum_swap hsum, swap_eq_self_iff hlt, dvd_checksum_iff hsum]
      simp
  refine ⟨fun h => hresult.mp h.result, fun h => ⟨hresult.mpr h, hloop, ?_, ?_⟩⟩
  · intro value hvalue
    have hle := accumulators_le 0 data value hvalue
    omega
  · have htwo := foldChecksum_two hsum
    rw [hloop]
    omega

theorem checksumRight_iff_odd :
    ChecksumRight .little [0x45, 0x00, 0xff] ↔
      ByteOrder.little = .little ∨ 257 ∣ (networkWords [0x45, 0x00, 0xff]).sum :=
  checksumRight_iff .little [0x45, 0x00, 0xff] (by decide)

/-- The first two bytes of a header, on a big-endian host. -/
theorem bigEndian_not_checksumRight :
    ¬ ∀ (order : ByteOrder) (data : List UInt8), data.length ≤ 65535 →
      ChecksumRight order data := by
  intro hall
  have hresult := (hall .big [0x45, 0x00] (by decide)).result
  simp [svzRawIpChecksumOn, internetChecksum, networkWords, carrySum, carryAdd, sumWords,
    foldChecksum] at hresult

end Serveez.Port
