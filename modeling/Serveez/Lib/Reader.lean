import Mathlib.Data.List.Basic
import Mathlib.Data.List.TakeWhile

/-!
# Reading from a buffer

A function that reads bytes of a buffer has no result when it needs a byte behind the end. Such a
function is `Stable` if bytes put behind the buffer do not change a result that is there.

* `Stable.bind`, `Stable.map`, `Stable.ite`, `Stable.drop`: how stable functions compose.
-/

namespace Serveez.Lib

variable {γ α β : Type*}

/-- What is behind the buffer does not change a result. -/
def Stable (f : List γ → Option α) : Prop :=
  ∀ buf r t, f buf = some r → f (buf ++ t) = some r

/-- `n` bytes from `offset` on. -/
def readBytes (offset n : Nat) (buf : List γ) : Option (List γ) :=
  if offset + n ≤ buf.length then some ((buf.drop offset).take n) else none

def readByte (offset : Nat) (buf : List γ) : Option γ := buf[offset]?

/-- The bytes from `offset` on before the first `stop`. -/
def readUntil [DecidableEq γ] (stop : γ) (offset : Nat) (buf : List γ) : Option (List γ) :=
  if stop ∈ buf.drop offset then some ((buf.drop offset).takeWhile (· ≠ stop)) else none

theorem stable_some (a : α) : Stable (fun _ : List γ => some a) := fun _ _ _ h => h

theorem Stable.bind {f : List γ → Option α} {g : α → List γ → Option β} (hf : Stable f)
    (hg : ∀ a, Stable (g a)) : Stable (fun buf => (f buf).bind (fun a => g a buf)) := by
  intro buf r t h
  obtain ⟨a, ha, hr⟩ := Option.bind_eq_some_iff.mp h
  exact Option.bind_eq_some_iff.mpr ⟨a, hf buf a t ha, hg a buf r t hr⟩

theorem Stable.map {f : List γ → Option α} (hf : Stable f) (g : α → β) :
    Stable (fun buf => (f buf).map g) := by
  intro buf r t h
  obtain ⟨a, ha, hr⟩ := Option.map_eq_some_iff.mp h
  exact Option.map_eq_some_iff.mpr ⟨a, hf buf a t ha, hr⟩

theorem Stable.ite {c : Prop} [Decidable c] {f g : List γ → Option α} (hf : Stable f)
    (hg : Stable g) : Stable (fun buf => if c then f buf else g buf) := by
  by_cases hc : c
  · simp only [if_pos hc]
    exact hf
  · simp only [if_neg hc]
    exact hg

theorem stable_readBytes (offset n : Nat) :
    Stable (fun buf : List γ => readBytes offset n buf) := by
  intro buf r t h
  dsimp only [readBytes] at h ⊢
  split at h
  · next hle =>
    have hle' : offset + n ≤ (buf ++ t).length := by
      rw [List.length_append]
      omega
    rw [if_pos hle', ← h, List.drop_append_of_le_length (by omega),
      List.take_append_of_le_length (by rw [List.length_drop]; omega)]
  · exact nomatch h

theorem stable_readByte (offset : Nat) : Stable (fun buf : List γ => readByte offset buf) := by
  intro buf r t h
  dsimp only [readByte] at h ⊢
  obtain ⟨hlt, -⟩ := List.getElem?_eq_some_iff.mp h
  rw [List.getElem?_append_left hlt, h]

theorem takeWhile_append_of_mem {p : γ → Bool} {l : List γ} {c : γ} (hc : c ∈ l)
    (hp : p c = false) (t : List γ) : (l ++ t).takeWhile p = l.takeWhile p := by
  induction l with
  | nil => cases hc
  | cons a l ih =>
    rw [List.cons_append, List.takeWhile_cons, List.takeWhile_cons]
    by_cases ha : p a = true
    · have hmem : c ∈ l := by
        rcases List.mem_cons.mp hc with rfl | hmem
        · rw [hp] at ha
          exact nomatch ha
        · exact hmem
      rw [if_pos ha, if_pos ha, ih hmem]
    · rw [if_neg ha, if_neg ha]

theorem stable_readUntil [DecidableEq γ] (stop : γ) (offset : Nat) :
    Stable (readUntil stop offset) := by
  intro buf r t h
  unfold readUntil at h ⊢
  split at h
  · next hmem =>
    have hle : offset ≤ buf.length := by
      by_contra hlt
      rw [List.drop_eq_nil_of_le (by omega)] at hmem
      exact nomatch hmem
    rw [List.drop_append_of_le_length hle, if_pos (List.mem_append_left t hmem), ← h,
      takeWhile_append_of_mem hmem (by simp)]
  · exact nomatch h

/-- A reading that begins `n` bytes later; behind the end it begins with the bytes put there. -/
theorem Stable.drop {f : List γ → Option α} (hf : Stable f) (n : Nat) :
    Stable (fun buf => f (buf.drop n)) := by
  intro buf r t h
  dsimp only at h ⊢
  rw [List.drop_append]
  exact hf (buf.drop n) r (t.drop (n - buf.length)) h

theorem readBytes_isSome {offset n : Nat} {buf : List γ} :
    (readBytes offset n buf).isSome = true ↔ offset + n ≤ buf.length := by
  unfold readBytes
  split
  · next h => exact ⟨fun _ => h, fun _ => rfl⟩
  · next h => exact ⟨nofun, fun h' => absurd h' h⟩

theorem readUntil_isSome [DecidableEq γ] {stop : γ} {offset : Nat} {buf : List γ} :
    (readUntil stop offset buf).isSome = true ↔ stop ∈ buf.drop offset := by
  unfold readUntil
  split
  · next h => exact ⟨fun _ => h, fun _ => rfl⟩
  · next h => exact ⟨nofun, fun h' => absurd h' h⟩

end Serveez.Lib
