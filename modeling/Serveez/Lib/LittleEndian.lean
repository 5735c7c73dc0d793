import Serveez.Lib.CInt

/-!
# Numbers as bytes

The bytes of a number in memory, the lowest first, and the number read back from them
(`ofBytes_toBytes`).
-/

namespace Serveez.Lib

/-- The lowest `k` bytes of `n`. -/
def toBytes : Nat → Nat → List UInt8
  | 0, _ => []
  | k + 1, n => UInt8.ofNat n :: toBytes k (n / 256)

def ofBytes : List UInt8 → Nat
  | [] => 0
  | byte :: bytes => byte.toNat + 256 * ofBytes bytes

@[simp] theorem length_toBytes (k n : Nat) : (toBytes k n).length = k := by
  induction k generalizing n with
  | zero => rfl
  | succ k ih => rw [toBytes, List.length_cons, ih]

theorem ofBytes_toBytes {k n : Nat} (h : n < 256 ^ k) : ofBytes (toBytes k n) = n := by
  induction k generalizing n with
  | zero =>
    rw [Nat.pow_zero] at h
    simp only [toBytes, ofBytes]
    omega
  | succ k ih =>
    rw [Nat.pow_succ] at h
    have hrest : ofBytes (toBytes k (n / 256)) = n / 256 := ih (by omega)
    have hbyte : (UInt8.ofNat n).toNat = n % 256 := UInt8.toNat_ofNat'
    rw [toBytes, ofBytes, hrest, hbyte]
    omega

end Serveez.Lib
