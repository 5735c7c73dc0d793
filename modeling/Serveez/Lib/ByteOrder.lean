import Serveez.Lib.LittleEndian

/-!
# Byte orders

How a host keeps the numbers in its memory, and the swaps that turn one order into the other.
The swaps are written with shifts and masks, as macros in C are; `toBytes_bswap16` and
`toBytes_bswap32` say that they reverse the bytes.
-/

namespace Serveez.Lib

inductive ByteOrder
  | little
  | big

/-- The bytes of a number of `k` bytes in memory. -/
def ByteOrder.store : ByteOrder → Nat → Nat → List UInt8
  | .little, k, n => toBytes k n
  | .big, k, n => (toBytes k n).reverse

def ByteOrder.load : ByteOrder → List UInt8 → Nat
  | .little, bytes => ofBytes bytes
  | .big, bytes => ofBytes bytes.reverse

def bswap16 (x : UInt16) : UInt16 :=
  (x >>> 8 &&& (0x00ff : UInt16)) ||| (x <<< 8 &&& (0xff00 : UInt16))

def bswap32 (x : UInt32) : UInt32 :=
  (x &&& (0xff000000 : UInt32)) >>> 24 ||| (x &&& (0x000000ff : UInt32)) <<< 24 |||
    (x &&& (0x0000ff00 : UInt32)) <<< 8 ||| (x &&& (0x00ff0000 : UInt32)) >>> 8

/-! ## Memory -/

@[simp] theorem length_store (order : ByteOrder) (k n : Nat) : (order.store k n).length = k := by
  cases order with
  | little => simp [ByteOrder.store]
  | big => simp [ByteOrder.store]

theorem load_store (order : ByteOrder) {k n : Nat} (h : n < 256 ^ k) :
    order.load (order.store k n) = n := by
  cases order with
  | little => exact ofBytes_toBytes h
  | big =>
    rw [ByteOrder.store, ByteOrder.load, List.reverse_reverse]
    exact ofBytes_toBytes h

theorem ofBytes_lt (bytes : List UInt8) : ofBytes bytes < 256 ^ bytes.length := by
  induction bytes with
  | nil => simp [ofBytes]
  | cons byte bytes ih =>
    have hbyte := byte.toNat_lt
    rw [ofBytes, List.length_cons, Nat.pow_succ]
    omega

theorem toBytes_ofBytes {bytes : List UInt8} {k : Nat} (hk : bytes.length = k) :
    toBytes k (ofBytes bytes) = bytes := by
  induction bytes generalizing k with
  | nil =>
    subst hk
    rfl
  | cons byte bytes ih =>
    subst hk
    have hbyte := byte.toNat_lt
    have hfirst : UInt8.ofNat (ofBytes (byte :: bytes)) = byte := by
      apply UInt8.toNat_inj.mp
      rw [UInt8.toNat_ofNat', ofBytes]
      omega
    have hrest : ofBytes (byte :: bytes) / 256 = ofBytes bytes := by
      rw [ofBytes]
      omega
    rw [List.length_cons, toBytes, hfirst, hrest, ih rfl]

theorem load_lt (order : ByteOrder) {bytes : List UInt8} {k : Nat} (hk : bytes.length = k) :
    order.load bytes < 256 ^ k := by
  subst hk
  cases order with
  | little => exact ofBytes_lt bytes
  | big =>
    have h := ofBytes_lt bytes.reverse
    rwa [List.length_reverse] at h

theorem store_load (order : ByteOrder) {bytes : List UInt8} {k : Nat} (hk : bytes.length = k) :
    order.store k (order.load bytes) = bytes := by
  cases order with
  | little => exact toBytes_ofBytes hk
  | big =>
    have hback := @toBytes_ofBytes bytes.reverse k (by simpa using hk)
    rw [ByteOrder.load, ByteOrder.store, hback, List.reverse_reverse]

/-! ## The swaps -/

theorem and_byte (n k : Nat) : n &&& 255 <<< k = n / 2 ^ k % 256 * 2 ^ k := by
  have hmask : n / 2 ^ k % 256 = n >>> k &&& 255 := by
    rw [Nat.shiftRight_eq_div_pow]
    exact (Nat.and_two_pow_sub_one_eq_mod _ 8).symm
  rw [hmask, ← Nat.shiftLeft_eq]
  apply Nat.eq_of_testBit_eq
  intro i
  simp only [Nat.testBit_and, Nat.testBit_shiftLeft, Nat.testBit_shiftRight]
  by_cases h : k ≤ i
  · simp [h]
  · simp [h]

theorem or_eq_add {a b : Nat} (k : Nat) (h : b < 2 ^ k) : a * 2 ^ k ||| b = a * 2 ^ k + b := by
  rw [Nat.mul_comm, Nat.two_pow_add_eq_or_of_lt h]

theorem toNat_bswap16 (x : UInt16) :
    (bswap16 x).toNat = x.toNat % 256 * 256 + x.toNat / 256 := by
  have hx := x.toNat_lt
  have hlow : (x >>> 8 &&& (0x00ff : UInt16)).toNat = x.toNat / 256 := by
    have h := and_byte (x.toNat / 256) 0
    simp only [UInt16.toNat_and, UInt16.toNat_shiftRight]
    simp at h ⊢
    rw [Nat.shiftRight_eq_div_pow, h]
    omega
  have hhigh : (x <<< 8 &&& (0xff00 : UInt16)).toNat = x.toNat % 256 * 2 ^ 8 := by
    have h := and_byte (x.toNat * 256 % 65536) 8
    simp only [UInt16.toNat_and, UInt16.toNat_shiftLeft]
    simp [Nat.shiftLeft_eq] at h ⊢
    rw [h]
    omega
  unfold bswap16
  rw [UInt16.toNat_or, hlow, hhigh, Nat.or_comm, or_eq_add 8 (by omega)]
  omega

theorem toNat_bswap32 (x : UInt32) :
    (bswap32 x).toNat = x.toNat % 256 * 2 ^ 24 + (x.toNat / 2 ^ 8 % 256 * 2 ^ 16 +
      (x.toNat / 2 ^ 16 % 256 * 2 ^ 8 + x.toNat / 2 ^ 24)) := by
  have hx := x.toNat_lt
  have h0 : ((x &&& (0x000000ff : UInt32)) <<< 24).toNat = x.toNat % 256 * 2 ^ 24 := by
    have h := and_byte x.toNat 0
    simp only [UInt32.toNat_and, UInt32.toNat_shiftLeft]
    simp [Nat.shiftLeft_eq] at h ⊢
    rw [h]
    omega
  have h1 : ((x &&& (0x0000ff00 : UInt32)) <<< 8).toNat = x.toNat / 2 ^ 8 % 256 * 2 ^ 16 := by
    have h := and_byte x.toNat 8
    simp only [UInt32.toNat_and, UInt32.toNat_shiftLeft]
    simp [Nat.shiftLeft_eq] at h ⊢
    rw [h]
    omega
  have h2 : ((x &&& (0x00ff0000 : UInt32)) >>> 8).toNat = x.toNat / 2 ^ 16 % 256 * 2 ^ 8 := by
    have h := and_byte x.toNat 16
    simp only [UInt32.toNat_and, UInt32.toNat_shiftRight]
    simp [Nat.shiftLeft_eq, Nat.shiftRight_eq_div_pow] at h ⊢
    rw [h]
    omega
  have h3 : ((x &&& (0xff000000 : UInt32)) >>> 24).toNat = x.toNat / 2 ^ 24 := by
    have h := and_byte x.toNat 24
    simp only [UInt32.toNat_and, UInt32.toNat_shiftRight]
    simp [Nat.shiftLeft_eq, Nat.shiftRight_eq_div_pow] at h ⊢
    rw [h]
    omega
  have horder : ∀ a b c d : Nat, a ||| b ||| c ||| d = b ||| (c ||| (d ||| a)) := by
    intro a b c d
    ac_rfl
  unfold bswap32
  rw [UInt32.toNat_or, UInt32.toNat_or, UInt32.toNat_or, h0, h1, h2, h3, horder,
    or_eq_add 8 (by omega), or_eq_add 16 (by omega), or_eq_add 24 (by omega)]

theorem toBytes_two {a b : Nat} (ha : a < 256) (hb : b < 256) :
    toBytes 2 (b * 256 + a) = [UInt8.ofNat a, UInt8.ofNat b] := by
  have h := @toBytes_ofBytes [UInt8.ofNat a, UInt8.ofNat b] 2 rfl
  simp only [ofBytes, UInt8.toNat_ofNat'] at h
  rw [← h]
  congr 1
  omega

theorem toBytes_four {a b c d : Nat} (ha : a < 256) (hb : b < 256) (hc : c < 256) (hd : d < 256) :
    toBytes 4 (d * 2 ^ 24 + (c * 2 ^ 16 + (b * 2 ^ 8 + a))) =
      [UInt8.ofNat a, UInt8.ofNat b, UInt8.ofNat c, UInt8.ofNat d] := by
  have h := @toBytes_ofBytes
    [UInt8.ofNat a, UInt8.ofNat b, UInt8.ofNat c, UInt8.ofNat d] 4 rfl
  simp only [ofBytes, UInt8.toNat_ofNat'] at h
  rw [← h]
  congr 1
  omega

theorem toBytes_bswap16 (x : UInt16) :
    toBytes 2 (bswap16 x).toNat = (toBytes 2 x.toNat).reverse := by
  have hx := x.toNat_lt
  have hlow : x.toNat % 256 < 256 := Nat.mod_lt _ (by omega)
  have hhigh : x.toNat / 256 < 256 := by omega
  have hsplit : x.toNat = x.toNat / 256 * 256 + x.toNat % 256 := by omega
  have hback : toBytes 2 x.toNat = [UInt8.ofNat (x.toNat % 256), UInt8.ofNat (x.toNat / 256)] := by
    rw [← toBytes_two hlow hhigh, ← hsplit]
  rw [toNat_bswap16, toBytes_two hhigh hlow, hback]
  rfl

theorem toBytes_bswap32 (x : UInt32) :
    toBytes 4 (bswap32 x).toNat = (toBytes 4 x.toNat).reverse := by
  have hx := x.toNat_lt
  have ha : x.toNat % 256 < 256 := Nat.mod_lt _ (by omega)
  have hb : x.toNat / 2 ^ 8 % 256 < 256 := Nat.mod_lt _ (by omega)
  have hc : x.toNat / 2 ^ 16 % 256 < 256 := Nat.mod_lt _ (by omega)
  have hd : x.toNat / 2 ^ 24 < 256 := by omega
  have hsplit : x.toNat = x.toNat / 2 ^ 24 * 2 ^ 24 + (x.toNat / 2 ^ 16 % 256 * 2 ^ 16 +
      (x.toNat / 2 ^ 8 % 256 * 2 ^ 8 + x.toNat % 256)) := by
    omega
  have hback := toBytes_four ha hb hc hd
  rw [← hsplit] at hback
  rw [toNat_bswap32, toBytes_four hd hc hb ha, hback]
  rfl

theorem toBytes_injective {k m n : Nat} (hm : m < 256 ^ k) (hn : n < 256 ^ k)
    (h : toBytes k m = toBytes k n) : m = n := by
  rw [← ofBytes_toBytes hm, h, ofBytes_toBytes hn]

@[simp] theorem bswap16_bswap16 (x : UInt16) : bswap16 (bswap16 x) = x := by
  apply UInt16.toNat_inj.mp
  apply toBytes_injective (k := 2) (UInt16.toNat_lt _) (UInt16.toNat_lt _)
  rw [toBytes_bswap16, toBytes_bswap16, List.reverse_reverse]

@[simp] theorem bswap32_bswap32 (x : UInt32) : bswap32 (bswap32 x) = x := by
  apply UInt32.toNat_inj.mp
  apply toBytes_injective (k := 4) (UInt32.toNat_lt _) (UInt32.toNat_lt _)
  rw [toBytes_bswap32, toBytes_bswap32, List.reverse_reverse]

end Serveez.Lib
