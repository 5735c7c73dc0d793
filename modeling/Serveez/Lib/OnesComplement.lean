import Mathlib.Data.Nat.ModEq

/-!
# One's complement sums

Numbers up to `m` with end-around carry. Both `0` and `m` stand for zero there, and a sum is
`0` only if nothing was added. `Represents m s r` says which of them the sum `s` ends at, and
`Represents.unique` that there is only one.
-/

namespace Serveez.Lib

/-- Addition up to `m`; what is carried out comes back as one. -/
def carryAdd (m a b : Nat) : Nat := if a + b ≤ m then a + b else a + b - m

def carrySum (m : Nat) (words : List Nat) : Nat := words.foldl (carryAdd m) 0

/-- The number `r` is what is left of `s` by end-around carry. -/
structure Represents (m s r : Nat) : Prop where
  le : r ≤ m
  modEq : r ≡ s [MOD m]
  zero_iff : r = 0 ↔ s = 0

theorem Represents.refl {m r : Nat} (h : r ≤ m) : Represents m r r := ⟨h, rfl, Iff.rfl⟩

theorem Represents.unique {m s r t : Nat} (hr : Represents m s r) (ht : Represents m s t) :
    r = t := by
  have hmod : r ≡ t [MOD m] := hr.modEq.trans ht.modEq.symm
  have hzero : r = 0 ↔ t = 0 := hr.zero_iff.trans ht.zero_iff.symm
  have hrm := hr.le
  have htm := ht.le
  rcases Nat.lt_or_ge r m with hr' | hr'
  · rcases Nat.lt_or_ge t m with ht' | ht'
    · exact hmod.eq_of_lt_of_lt hr' ht'
    · -- `t` is `m`, and then `r` would be zero without `t` being zero
      have htm' : t = m := by omega
      subst htm'
      have hr0 : r = 0 := (hmod.trans (Nat.modEq_zero_iff_dvd.mpr dvd_rfl)).eq_of_lt_of_lt hr'
        (by omega)
      omega
  · have hrm' : r = m := by omega
    subst hrm'
    rcases Nat.lt_or_ge t r with ht' | ht'
    · have ht0 : t = 0 := (hmod.symm.trans (Nat.modEq_zero_iff_dvd.mpr dvd_rfl)).eq_of_lt_of_lt
        ht' (by omega)
      omega
    · omega

theorem Represents.add {m a b r t : Nat} (ha : Represents m a r) (hb : Represents m b t) :
    Represents m (a + b) (carryAdd m r t) := by
  have hsum : r + t ≡ a + b [MOD m] := ha.modEq.add hb.modEq
  have har := ha.zero_iff
  have hbt := hb.zero_iff
  have hr := ha.le
  have ht := hb.le
  unfold carryAdd
  split
  · exact ⟨by omega, hsum, by omega⟩
  · refine ⟨by omega, ?_, by omega⟩
    have hback : r + t - m ≡ r + t [MOD m] := by
      have hself : r + t - m ≡ r + t - m + m [MOD m] := (Nat.add_mod_right _ _).symm
      rwa [Nat.sub_add_cancel (by omega)] at hself
    exact hback.trans hsum

/-- Congruent sums that are zero together leave the same. -/
theorem Represents.congr {m s t r : Nat} (h : Represents m s r) (hmod : s ≡ t [MOD m])
    (hzero : s = 0 ↔ t = 0) : Represents m t r :=
  ⟨h.le, h.modEq.trans hmod, h.zero_iff.trans hzero⟩

theorem represents_foldl {m : Nat} (words : List Nat) (hwords : ∀ w ∈ words, w ≤ m) {s r : Nat}
    (h : Represents m s r) : Represents m (s + words.sum) (words.foldl (carryAdd m) r) := by
  induction words generalizing s r with
  | nil => simpa using h
  | cons w words ih =>
    have hw : w ≤ m := hwords w (by simp)
    have hrest : ∀ w ∈ words, w ≤ m := fun w hw => hwords w (by simp [hw])
    have hstep := ih hrest (h.add (.refl hw))
    rw [List.sum_cons, ← Nat.add_assoc]
    exact hstep

theorem represents_carrySum {m : Nat} (words : List Nat) (hwords : ∀ w ∈ words, w ≤ m) :
    Represents m words.sum (carrySum m words) := by
  have h := represents_foldl words hwords (.refl (Nat.zero_le m))
  rwa [Nat.zero_add] at h

end Serveez.Lib
