import Mathlib.Algebra.Group.Nat.Defs
import Mathlib.Order.Basic

/-!
# Numbers printed into bytes

The texts that `%u` and `%d` stand for, as bytes, and the reading of decimal digits back
(`readDigits_decimalBytes`).
-/

namespace Serveez.Lib

/-- The bytes of a text. -/
def asciiBytes (text : List Char) : List UInt8 := text.map (fun c => UInt8.ofNat c.toNat)

/-- `%u` -/
def decimalBytes (n : Nat) : List UInt8 := asciiBytes (Nat.toDigits 10 n)

/-- `%d` -/
def signedBytes (i : Int) : List UInt8 := asciiBytes (toString i).toList

def IsDigitByte (c : UInt8) : Prop := 48 ≤ c ∧ c ≤ 57

instance (c : UInt8) : Decidable (IsDigitByte c) := inferInstanceAs (Decidable (_ ∧ _))

/-- The number that some digits stand for. -/
def readDigits (digits : List UInt8) : Nat :=
  digits.foldl (fun i c => i * 10 + (c.toNat - 48)) 0

/-! ## Digits -/

theorem toNat_ofChar {c : Char} (hc : c.isDigit = true) :
    (UInt8.ofNat c.toNat).toNat = c.toNat ∧ 48 ≤ c.toNat ∧ c.toNat ≤ 57 := by
  have h : 48 ≤ c.toNat ∧ c.toNat ≤ 57 := by
    simp only [Char.isDigit, Bool.and_eq_true, decide_eq_true_eq] at hc
    exact ⟨hc.1, hc.2⟩
  refine ⟨?_, h⟩
  rw [UInt8.toNat_ofNat']
  omega

theorem isDigitByte_of_mem {n : Nat} {c : UInt8} (hc : c ∈ decimalBytes n) : IsDigitByte c := by
  obtain ⟨d, hd, rfl⟩ := List.mem_map.mp hc
  have hdigit := Nat.isDigit_of_mem_toDigits (by omega) (by omega) hd
  obtain ⟨htoNat, hlow, hhigh⟩ := toNat_ofChar hdigit
  refine ⟨?_, ?_⟩
  · rw [UInt8.le_iff_toNat_le, htoNat]
    exact hlow
  · rw [UInt8.le_iff_toNat_le, htoNat]
    exact hhigh

theorem notMem_decimalBytes {n : Nat} {c : UInt8} (hc : ¬ IsDigitByte c) : c ∉ decimalBytes n :=
  fun hmem => hc (isDigitByte_of_mem hmem)

theorem length_decimalBytes_le {n k : Nat} (hk : 0 < k) (hn : n < 10 ^ k) :
    (decimalBytes n).length ≤ k := by
  unfold decimalBytes asciiBytes
  rw [List.length_map]
  exact (Nat.length_toDigits_le_iff (by omega) hk).mpr hn

theorem foldl_asciiBytes (digits : List Char) (hdigits : ∀ c ∈ digits, c.isDigit = true)
    (v : Nat) :
    (asciiBytes digits).foldl (fun i c => i * 10 + (c.toNat - 48)) v =
      Nat.ofDigitChars 10 digits v := by
  induction digits generalizing v with
  | nil => simp [asciiBytes]
  | cons c digits ih =>
    have hc := toNat_ofChar (hdigits c (by simp))
    have hstep : v * 10 + ((UInt8.ofNat c.toNat).toNat - 48) = 10 * v + (c.toNat - '0'.toNat) := by
      rw [hc.1, Nat.mul_comm]
      rfl
    rw [Nat.ofDigitChars_cons, ← hstep, ← ih (fun c hc => hdigits c (by simp [hc]))]
    rfl

@[simp] theorem readDigits_decimalBytes (n : Nat) : readDigits (decimalBytes n) = n := by
  unfold readDigits decimalBytes
  rw [foldl_asciiBytes _ (fun c hc => Nat.isDigit_of_mem_toDigits (by omega) (by omega) hc)]
  exact Nat.ofDigitChars_ten_toDigits

theorem decimalBytes_injective {m n : Nat} (h : decimalBytes m = decimalBytes n) : m = n := by
  rw [← readDigits_decimalBytes m, h, readDigits_decimalBytes]

/-! ## Signs -/

theorem signedBytes_of_nonneg {i : Int} (h : 0 ≤ i) : signedBytes i = decimalBytes i.toNat := by
  unfold signedBytes decimalBytes
  rw [Int.toString_eq_repr, Int.repr_eq_if, if_pos h, Nat.toList_repr]

theorem signedBytes_of_neg {i : Int} (h : i < 0) :
    signedBytes i = 45 :: decimalBytes (-i).toNat := by
  unfold signedBytes decimalBytes
  rw [Int.toString_eq_repr, Int.repr_eq_if, if_neg (by omega), String.toList_append,
    Nat.toList_repr]
  rfl

theorem notMem_signedBytes {i : Int} {c : UInt8} (hc : ¬ IsDigitByte c) (hminus : c ≠ 45) :
    c ∉ signedBytes i := by
  rcases Int.lt_or_le i 0 with h | h
  · rw [signedBytes_of_neg h, List.mem_cons, not_or]
    exact ⟨hminus, notMem_decimalBytes hc⟩
  · rw [signedBytes_of_nonneg h]
    exact notMem_decimalBytes hc

theorem signedBytes_injective {i j : Int} (h : signedBytes i = signedBytes j) : i = j := by
  have hminus : ∀ n, (45 : UInt8) ∉ decimalBytes n := fun n =>
    notMem_decimalBytes (by decide)
  rcases Int.lt_or_le i 0 with hi | hi
  · rcases Int.lt_or_le j 0 with hj | hj
    · rw [signedBytes_of_neg hi, signedBytes_of_neg hj] at h
      have habs := decimalBytes_injective (List.cons.inj h).2
      omega
    · rw [signedBytes_of_neg hi, signedBytes_of_nonneg hj] at h
      exact absurd (h ▸ List.mem_cons_self) (hminus _)
  · rcases Int.lt_or_le j 0 with hj | hj
    · rw [signedBytes_of_nonneg hi, signedBytes_of_neg hj] at h
      exact absurd (h ▸ List.mem_cons_self) (hminus _)
    · rw [signedBytes_of_nonneg hi, signedBytes_of_nonneg hj] at h
      have habs := decimalBytes_injective h
      omega

theorem length_signedBytes_le {i : Int} {k : Nat} (hk : 0 < k) (hi : i.natAbs < 10 ^ k) :
    (signedBytes i).length ≤ k + 1 := by
  rcases Int.lt_or_le i 0 with h | h
  · rw [signedBytes_of_neg h, List.length_cons]
    have hlen := length_decimalBytes_le hk (show (-i).toNat < 10 ^ k by omega)
    omega
  · rw [signedBytes_of_nonneg h]
    have hlen := length_decimalBytes_le hk (show i.toNat < 10 ^ k by omega)
    omega

end Serveez.Lib
