import Serveez.Lib.Traced
import Mathlib.Data.List.TakeWhile

/-!
# A pointer in front of an end

Loops of the kind `while (h < end && ...)` go over the part of a buffer that is between a pointer
and an end. The memory behind the end is there, but they do not look at it.

* `scanWhile_spec`, `readRange_spec`: a scan, and a copy, within such a part.
-/

namespace Serveez.Lib

variable {α : Type} {data front rest : List α} {len h : Nat}

/-- `rest` is what the buffer has from `h` on up to the end. -/
structure Window (data : List α) (len h : Nat) (rest : List α) : Prop where
  ends : h + rest.length = len
  here : rest <+: data.drop h

namespace Window

theorem start (bytes beyond : List α) : Window (bytes ++ beyond) bytes.length 0 bytes where
  ends := Nat.zero_add _
  here := List.prefix_append bytes beyond

theorem le_iff (hw : Window data len h rest) : len ≤ h ↔ rest = [] := by
  rw [← List.length_eq_zero_iff]
  have hends := hw.ends
  omega

theorem sub_eq (hw : Window data len h rest) : len - h = rest.length := by
  have hends := hw.ends
  omega

theorem append (hw : Window data len h (front ++ rest)) :
    Window data len (h + front.length) rest where
  ends := by
    have hends := hw.ends
    rw [List.length_append] at hends
    omega
  here := by
    obtain ⟨beyond, hdata⟩ := hw.here
    rw [← List.drop_drop, ← hdata, List.append_assoc, List.drop_left]
    exact List.prefix_append _ _

variable {c : α}

theorem lt (hw : Window data len h (c :: rest)) : h < len := by
  have hends := hw.ends
  rw [List.length_cons] at hends
  omega

theorem next (hw : Window data len h (c :: rest)) : Window data len (h + 1) rest :=
  @append _ _ [c] _ _ _ hw

theorem getD (hw : Window data len h (c :: rest)) (default : α) : data.getD h default = c := by
  obtain ⟨beyond, hdata⟩ := hw.here
  have hget : data[h]? = some c := by
    rw [← List.head?_drop, ← hdata]
    rfl
  rw [List.getD_eq_getElem?_getD, hget, Option.getD_some]

end Window

open Traced

/-- `while (h < end && pass (*h)) h++`, with `n` bytes up to the end. -/
def scanWhile (default : α) (data : List α) (pass : α → Bool) : Nat → Nat → Traced Nat
  | 0, h => pure h
  | n + 1, h => do
    let c ← readAt default data h
    if pass c then scanWhile default data pass n (h + 1) else pure h

theorem scanWhile_spec (default : α) (pass : α → Bool) (hw : Window data len h rest) :
    (scanWhile default data pass (len - h) h).Within len ∧
      Window data len (scanWhile default data pass (len - h) h).value (rest.dropWhile pass) := by
  rw [hw.sub_eq]
  induction rest generalizing h with
  | nil => exact ⟨within_pure h len, hw⟩
  | cons c rest ih =>
    obtain ⟨hwithin, hnext⟩ := ih hw.next
    rw [List.length_cons, scanWhile, within_bind, value_bind, value_readAt, hw.getD]
    by_cases hc : pass c = true
    · rw [if_pos hc, List.dropWhile_cons_of_pos hc]
      exact ⟨⟨(within_readAt default data h len).mpr hw.lt, hwithin⟩, hnext⟩
    · rw [if_neg hc, List.dropWhile_cons_of_neg hc]
      exact ⟨⟨(within_readAt default data h len).mpr hw.lt, within_pure h len⟩, hw⟩

/-- `memcpy` -/
def readRange (default : α) (data : List α) : Nat → Nat → Traced (List α)
  | 0, _ => pure []
  | n + 1, h => do
    let c ← readAt default data h
    let rest ← readRange default data n (h + 1)
    pure (c :: rest)

theorem readRange_spec (default : α) (hw : Window data len h (front ++ rest)) :
    (readRange default data front.length h).Within len ∧
      (readRange default data front.length h).value = front := by
  induction front generalizing h with
  | nil => exact ⟨within_pure [] len, rfl⟩
  | cons c front ih =>
    obtain ⟨hwithin, hvalue⟩ := ih hw.next
    rw [List.length_cons, readRange, within_bind, value_bind, value_readAt, hw.getD, within_bind,
      value_bind, hvalue]
    exact ⟨⟨(within_readAt default data h len).mpr hw.lt, hwithin, within_pure _ len⟩, rfl⟩

end Serveez.Lib
