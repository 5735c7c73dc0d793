import Serveez.Lib.CInt

/-!
# Decimal numbers in C

The loops that print a number digit by digit from its end and that read one from its start,
with the value taken modulo the size of its type.

* `foldl_accumulate_printLoop`: reading gives the number printed.
* `foldl_accumulate`: reading gives the number modulo the size of the type.
* `printLoop_injective`: two numbers print alike only if they are equal.
-/

namespace Serveez.Lib

def digit (d : Nat) : Char := Char.ofNat (d + 48)

def IsDigit (c : Char) : Prop := '0' ≤ c ∧ c ≤ '9'

instance (c : Char) : Decidable (IsDigit c) := inferInstanceAs (Decidable (_ ∧ _))

/-- `id *= 10; id += *p - '0'` -/
def accumulate (m v : Nat) (c : Char) : Nat := (v * 10 + (c.toNat - 48)) % m

/-- The digits of `i`, at most `fuel` of them, before `acc`. -/
def printLoop : Nat → Nat → List Char → List Char
  | 0, _, acc => acc
  | fuel + 1, i, acc =>
    let acc := digit (i % 10) :: acc
    if i / 10 = 0 then acc else printLoop fuel (i / 10) acc

theorem isDigit_digit : ∀ d, d < 10 → IsDigit (digit d) := by
  decide

theorem toNat_digit : ∀ d, d < 10 → (digit d).toNat - 48 = d := by
  decide

theorem accumulate_digit {m d : Nat} (v : Nat) (hd : d < 10) :
    accumulate m v (digit d) = (v * 10 + d) % m := by
  rw [accumulate, toNat_digit d hd]

theorem isDigit_of_mem_printLoop {fuel i : Nat} {acc : List Char} (hacc : ∀ c ∈ acc, IsDigit c) :
    ∀ c ∈ printLoop fuel i acc, IsDigit c := by
  induction fuel generalizing i acc with
  | zero => exact hacc
  | succ fuel ih =>
    have hcons : ∀ c ∈ digit (i % 10) :: acc, IsDigit c := by
      intro c hc
      rcases List.mem_cons.mp hc with rfl | hc
      · exact isDigit_digit _ (Nat.mod_lt _ (by omega))
      · exact hacc c hc
    rw [printLoop]
    split
    · exact hcons
    · exact ih hcons

theorem printLoop_length_le (fuel i : Nat) (acc : List Char) :
    (printLoop fuel i acc).length ≤ fuel + acc.length := by
  induction fuel generalizing i acc with
  | zero => exact Nat.le_add_left _ _
  | succ fuel ih =>
    rw [printLoop]
    split
    · rw [List.length_cons]
      omega
    · have hrest := ih (i / 10) (digit (i % 10) :: acc)
      rw [List.length_cons] at hrest
      omega

/-- The value read so far is the part of the number already printed. -/
theorem foldl_accumulate_printLoop {m fuel i : Nat} {acc : List Char} (hi : i < m)
    (hfuel : i < 10 ^ fuel) (hpos : 0 < fuel) :
    (printLoop fuel i acc).foldl (accumulate m) 0 = acc.foldl (accumulate m) i := by
  induction fuel generalizing i acc with
  | zero => omega
  | succ fuel ih =>
    have hdigit : i % 10 < 10 := Nat.mod_lt _ (by omega)
    have hstep : accumulate m (i / 10) (digit (i % 10)) = i := by
      rw [accumulate_digit _ hdigit, Nat.div_add_mod' i 10, Nat.mod_eq_of_lt hi]
    rw [printLoop]
    split
    · rename_i hlast
      rw [List.foldl_cons, ← hlast, hstep]
    · rename_i hmore
      have hlt : i / 10 < 10 ^ fuel := by
        rw [Nat.div_lt_iff_lt_mul (by omega), ← Nat.pow_succ]
        exact hfuel
      have hpos' : 0 < fuel := by
        rcases Nat.eq_zero_or_pos fuel with rfl | h
        · rw [Nat.pow_zero] at hlt
          omega
        · exact h
      rw [ih (Nat.lt_of_le_of_lt (Nat.div_le_self i 10) hi) hlt hpos', List.foldl_cons, hstep]

/-- The number that some digits stand for. -/
def number (digits : List Char) : Nat := digits.foldl (fun v c => v * 10 + (c.toNat - 48)) 0

theorem foldl_accumulate (m : Nat) (digits : List Char) :
    digits.foldl (accumulate m) 0 = number digits % m := by
  have hfold := foldl_mod m (fun c : Char => c.toNat - 48) digits 0
  rw [Nat.zero_mod] at hfold
  exact hfold

theorem printLoop_injective {m fuel i j : Nat} (hi : i < m) (hj : j < m)
    (hfi : i < 10 ^ fuel) (hfj : j < 10 ^ fuel) (hpos : 0 < fuel)
    (h : printLoop fuel i [] = printLoop fuel j []) : i = j := by
  have hread : (printLoop fuel i []).foldl (accumulate m) 0 = i :=
    foldl_accumulate_printLoop hi hfi hpos
  rw [h, foldl_accumulate_printLoop hj hfj hpos] at hread
  exact hread.symm

end Serveez.Lib
