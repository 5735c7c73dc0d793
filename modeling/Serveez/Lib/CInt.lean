import Mathlib.Algebra.Group.Nat.Defs
import Mathlib.Algebra.Group.Int.Defs
import Mathlib.Data.Nat.Bits
import Mathlib.Data.Int.Basic

/-!
# The integers of C

An `int` is an `Int32`. Masking it with the complement of a power of two less one is a range
check (`maskOut_eq_zero_iff`).

Where the numbers are kept as natural ones, `wrapInt` is what becomes of a sum, and `foldl_mod`
says what becomes of a number that is read digit by digit.
-/

namespace Serveez.Lib

/-- The bits of `x` that a mask for numbers below `limit` leaves out, `x & ~(limit - 1)`. -/
def maskOut (x : Int32) (limit : Nat) : Int32 := x &&& ~~~ Int32.ofNat (limit - 1)

theorem testBit_ge_iff {x k : Nat} : (∀ i, k ≤ i → x.testBit i = false) ↔ x < 2 ^ k := by
  constructor
  · exact fun h => Nat.lt_pow_two_of_testBit x (fun i hi => h i hi)
  · intro h i hi
    exact Nat.testBit_lt_two_pow (Nat.lt_of_lt_of_le h (Nat.pow_le_pow_right Nat.two_pos hi))

theorem getLsbD_mask (k i : Nat) :
    (BitVec.ofNat 32 (2 ^ k - 1)).getLsbD i = (decide (i < 32) && decide (i < k)) := by
  rw [BitVec.getLsbD_ofNat, Nat.testBit_two_pow_sub_one]

theorem and_not_mask_eq_zero_iff (v : BitVec 32) (k : Nat) :
    v &&& ~~~ BitVec.ofNat 32 (2 ^ k - 1) = 0#32 ↔ v.toNat < 2 ^ k := by
  rw [← testBit_ge_iff]
  constructor
  · intro h i hi
    rw [BitVec.testBit_toNat]
    by_cases hlt : i < 32
    · have hbit := congrArg (fun w => w.getLsbD i) h
      simp only [BitVec.getLsbD_and, BitVec.getLsbD_not, getLsbD_mask, BitVec.getLsbD_zero] at hbit
      simpa [hlt, Nat.not_lt.mpr hi] using hbit
    · exact BitVec.getLsbD_of_ge v i (by omega)
  · intro h
    apply BitVec.eq_of_getLsbD_eq
    intro i hi
    simp only [BitVec.getLsbD_and, BitVec.getLsbD_not, getLsbD_mask, BitVec.getLsbD_zero]
    by_cases hik : i < k
    · simp [hi, hik]
    · have hbit := h i (by omega)
      rw [BitVec.testBit_toNat] at hbit
      simp [hbit]

/-- A negative number keeps its sign bit, so only `0 ≤ x < 2 ^ k` passes. -/
theorem maskOut_eq_zero_iff (x : Int32) {k : Nat} (hk : k ≤ 31) :
    maskOut x (2 ^ k) = 0 ↔ 0 ≤ x.toInt ∧ x.toInt < 2 ^ k := by
  have hpow : 2 ^ k ≤ 2 ^ 31 := Nat.pow_le_pow_right Nat.two_pos hk
  have hcast : ((2 ^ k : Nat) : Int) = 2 ^ k := by simp
  have hint : x.toInt = x.toBitVec.toInt := rfl
  unfold maskOut
  rw [← Int32.toBitVec_inj, Int32.toBitVec_and, Int32.toBitVec_not, Int32.toBitVec_ofNat',
    Int32.toBitVec_zero, and_not_mask_eq_zero_iff, hint, BitVec.toInt_eq_toNat_cond, ← hcast]
  have hlt := x.toBitVec.isLt
  generalize 2 ^ k = m at hpow
  split <;> omega

/-- The `int` that a sum wraps around to. -/
def wrapInt (n : Nat) : Int := (n : Int).bmod (2 ^ 32)

theorem wrapInt_eq {n : Nat} (hn : n < 2 ^ 31) : wrapInt n = n := by
  unfold wrapInt
  rw [Int.bmod_def]
  omega

theorem wrapInt_neg {n : Nat} (hn : 2 ^ 31 ≤ n) (hn' : n < 2 ^ 32) : wrapInt n < 0 := by
  unfold wrapInt
  rw [Int.bmod_def]
  omega

/-- Whether the size is taken off at each digit or once at the end, the value is the same. -/
theorem foldl_mod {α : Type*} (m : Nat) (value : α → Nat) (digits : List α) (v : Nat) :
    digits.foldl (fun v c => (v * 10 + value c) % m) (v % m) =
      digits.foldl (fun v c => v * 10 + value c) v % m := by
  induction digits generalizing v with
  | nil => rfl
  | cons c digits ih =>
    have hstep : (v % m * 10 + value c) % m = (v * 10 + value c) % m := by
      rw [Nat.add_mod, Nat.mul_mod, Nat.mod_mod, ← Nat.mul_mod, ← Nat.add_mod]
    rw [List.foldl_cons, List.foldl_cons, hstep, ih]

end Serveez.Lib
