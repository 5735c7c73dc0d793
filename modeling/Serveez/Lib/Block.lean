import Serveez.Lib.Cut

/-!
# Arrays with a string in them

An array of `n` cells holds a string up to its first `nul`. What stands behind the terminator is
left over from before.

* `string_snprintf`: an array keeps as much of a text as leaves room for the terminator.
* `string_strcpy`: a text that is copied is the string, if there is room for it.
* `moveDown_stop`, `moveDown_none`: a text that is moved to a place before it is read before it is
  overwritten; the loop leaves the array if nothing stops it.
-/

namespace Serveez.Lib

variable {α : Type*} {nul : α} {n : Nat}

section String

variable [DecidableEq α]

/-- The string at the beginning of some cells. -/
def stringOf (nul : α) (cells : List α) : List α := cells.takeWhile (· ≠ nul)

theorem stringOf_append_nul (text rest : List α) :
    stringOf nul (text ++ nul :: rest) = stringOf nul text := by
  unfold stringOf
  rw [List.takeWhile_append]
  split
  · next hall =>
    rw [List.takeWhile_cons_of_neg (by simp), List.append_nil]
    exact ((List.takeWhile_prefix _).eq_of_length hall).symm
  · rfl

theorem stringOf_eq_self {text : List α} (h : nul ∉ text) : stringOf nul text = text :=
  takeWhile_ne_self h

theorem stringOf_append {text : List α} (h : nul ∉ text) (rest : List α) :
    stringOf nul (text ++ nul :: rest) = text := by
  rw [stringOf_append_nul, stringOf_eq_self h]

theorem nul_notMem_stringOf (nul : α) (cells : List α) : nul ∉ stringOf nul cells := by
  intro hmem
  have hne : nul ≠ nul := of_mem_takeWhile (P := (· ≠ nul)) hmem
  exact hne rfl

/-- A terminator among some elements makes the string end before them all. -/
theorem stringOf_length_lt {cells : List α} (h : nul ∈ cells) (rest : List α) :
    (stringOf nul (cells ++ rest)).length < cells.length := by
  obtain ⟨front, back, rfl⟩ := List.append_of_mem h
  induction front with
  | nil => simp [stringOf]
  | cons c front ih =>
    by_cases hc : c = nul
    · simp [stringOf, hc]
    · have hlt := ih (List.mem_append_right _ List.mem_cons_self)
      unfold stringOf at hlt ⊢
      rw [List.cons_append, List.cons_append, List.takeWhile_cons_of_pos (by simpa using hc)]
      exact Nat.succ_lt_succ hlt

end String

structure Block (α : Type*) (n : Nat) where
  cells : List α
  size : cells.length = n

namespace Block

def string [DecidableEq α] (nul : α) (b : Block α n) : List α := stringOf nul b.cells

/-- The string ends inside of the array. -/
def Terminated (nul : α) (b : Block α n) : Prop := nul ∈ b.cells

/-- A text and a terminator at the beginning. -/
def write (nul : α) (b : Block α n) (text : List α) (h : text.length < n) : Block α n :=
  ⟨text ++ nul :: b.cells.drop (text.length + 1), by
    rw [List.length_append, List.length_cons, List.length_drop, b.size]
    omega⟩

/-- `strcpy`, if there is room. -/
def strcpy (nul : α) (b : Block α n) (text : List α) : Option (Block α n) :=
  if h : text.length < n then some (b.write nul text h) else none

/-- `snprintf` with the size of the array. -/
def snprintf (nul : α) (b : Block α n) (text : List α) : Block α n :=
  if h : (text.take (n - 1)).length < n then b.write nul (text.take (n - 1)) h else b

variable {b b' : Block α n} {text : List α}

theorem string_write [DecidableEq α] (hnul : nul ∉ text) (h : text.length < n) :
    (b.write nul text h).string nul = text := stringOf_append hnul _

theorem terminated_write (h : text.length < n) : (b.write nul text h).Terminated nul :=
  List.mem_append_right _ List.mem_cons_self

theorem take_write (nul : α) (b : Block α n) (h : text.length < n) :
    (b.write nul text h).cells.take (text.length + 1) = text ++ [nul] := by
  unfold write
  dsimp only
  rw [List.take_length_add_append, List.take_succ_cons, List.take_zero]

theorem strcpy_isSome : (b.strcpy nul text).isSome = true ↔ text.length < n := by
  unfold strcpy
  split
  · next h => exact iff_of_true rfl h
  · next h => exact iff_of_false Bool.false_ne_true h

theorem string_strcpy [DecidableEq α] (hnul : nul ∉ text) (h : b.strcpy nul text = some b') :
    b'.string nul = text := by
  unfold strcpy at h
  split at h
  · obtain rfl := Option.some.inj h
    exact string_write hnul _
  · exact absurd h.symm (Option.some_ne_none _)

theorem snprintf_eq (nul : α) (hn : 0 < n) (b : Block α n) (text : List α) :
    ∃ h, b.snprintf nul text = b.write nul (text.take (n - 1)) h := by
  have hfits : (text.take (n - 1)).length < n := by
    rw [List.length_take]
    omega
  exact ⟨hfits, dif_pos hfits⟩

theorem string_snprintf [DecidableEq α] (hn : 0 < n) (hnul : nul ∉ text) (b : Block α n) :
    (b.snprintf nul text).string nul = text.take (n - 1) := by
  obtain ⟨h, heq⟩ := snprintf_eq nul hn b text
  rw [heq]
  exact string_write (fun hmem => hnul (List.mem_of_mem_take hmem)) h

theorem terminated_snprintf (hn : 0 < n) (b : Block α n) (text : List α) :
    (b.snprintf nul text).Terminated nul := by
  obtain ⟨h, heq⟩ := snprintf_eq nul hn b text
  rw [heq]
  exact terminated_write h

end Block

/-! ## Moving a text to a place before it -/

section Move

variable [DecidableEq α] {stop fill : α}

/-- `while (*src != stop) *dst++ = *src++; *dst = fill;` for at most so many steps, without a result
if an access leaves the cells. -/
def moveDown (stop fill : α) : Nat → Nat → Nat → List α → Option (List α)
  | 0, _, _, _ => none
  | steps + 1, dst, src, cells =>
    match cells[src]? with
    | none => none
    | some c =>
      if dst < cells.length then
        if c = stop then some (cells.set dst fill)
        else moveDown stop fill steps (dst + 1) (src + 1) (cells.set dst c)
      else none

theorem moveDown_length {steps dst src : Nat} {cells moved : List α}
    (h : moveDown stop fill steps dst src cells = some moved) : moved.length = cells.length := by
  induction steps generalizing dst src cells with
  | zero => exact absurd h.symm (Option.some_ne_none _)
  | succ steps ih =>
    rw [moveDown] at h
    split at h
    · exact absurd h.symm (Option.some_ne_none _)
    · split at h
      · split at h
        · rw [← Option.some.inj h, List.length_set]
        · rw [ih h, List.length_set]
      · exact absurd h.symm (Option.some_ne_none _)

/-- One step, on the cells before both places, between them and from `src` on. -/
theorem moveDown_step (steps : Nat) (front gap rest : List α) (g c : α) :
    moveDown stop fill (steps + 1) front.length (front.length + (g :: gap).length)
        (front ++ ((g :: gap) ++ c :: rest)) =
      if c = stop then some (front ++ fill :: (gap ++ c :: rest))
      else moveDown stop fill steps (front ++ [c]).length
        ((front ++ [c]).length + (gap ++ [c]).length)
        ((front ++ [c]) ++ ((gap ++ [c]) ++ rest)) := by
  have hread : (front ++ ((g :: gap) ++ c :: rest))[front.length + (g :: gap).length]? =
      some c := by
    rw [List.getElem?_append_right (Nat.le_add_right _ _), Nat.add_sub_cancel_left,
      List.getElem?_append_right (Nat.le_refl _), Nat.sub_self, List.getElem?_cons_zero]
  have hset : ∀ d, (front ++ ((g :: gap) ++ c :: rest)).set front.length d =
      front ++ d :: (gap ++ c :: rest) := by
    intro d
    rw [List.set_append_right _ _ (Nat.le_refl _), Nat.sub_self, List.cons_append,
      List.set_cons_zero]
  have hlt : front.length < (front ++ ((g :: gap) ++ c :: rest)).length := by
    rw [List.length_append, List.cons_append, List.length_cons]
    omega
  rw [moveDown, hread]
  dsimp only
  rw [if_pos hlt, hset, hset]
  have hdst : front.length + 1 = (front ++ [c]).length := by simp
  have hsrc : front.length + (g :: gap).length + 1 =
      (front ++ [c]).length + (gap ++ [c]).length := by
    simp only [List.length_append, List.length_cons, List.length_nil]
    omega
  have hcells : front ++ c :: (gap ++ c :: rest) =
      (front ++ [c]) ++ ((gap ++ [c]) ++ rest) := by simp
  rw [hdst, hsrc, hcells]

/-- The text and the last element stand at the new place, and behind them what was there. -/
theorem moveDown_stop {steps : Nat} (front gap text back : List α) (hgap : gap ≠ [])
    (hstop : stop ∉ text) (hsteps : text.length < steps) :
    moveDown stop fill steps front.length (front.length + gap.length)
        (front ++ (gap ++ (text ++ stop :: back))) =
      some (front ++ (text ++ fill :: (gap ++ (text ++ stop :: back)).drop (text.length + 1))) := by
  induction text generalizing front gap steps with
  | nil =>
    obtain ⟨g, gap, rfl⟩ := List.exists_cons_of_ne_nil hgap
    obtain ⟨steps, rfl⟩ := Nat.exists_eq_succ_of_ne_zero (Nat.ne_of_gt hsteps)
    rw [List.nil_append, moveDown_step, if_pos rfl]
    rfl
  | cons c text ih =>
    obtain ⟨g, gap, rfl⟩ := List.exists_cons_of_ne_nil hgap
    obtain ⟨steps, rfl⟩ := Nat.exists_eq_succ_of_ne_zero (Nat.ne_of_gt (Nat.zero_lt_of_lt hsteps))
    have hne : c ≠ stop := fun hsame => hstop (hsame ▸ List.mem_cons_self)
    have hnext := ih (front ++ [c]) (gap ++ [c]) (by simp)
      (fun hmem => hstop (List.mem_cons_of_mem _ hmem)) (Nat.lt_of_succ_lt_succ hsteps)
    refine ((moveDown_step steps front gap _ g c).trans (if_neg hne)).trans (hnext.trans ?_)
    simp

theorem moveDown_none (steps : Nat) (front gap text : List α) (hgap : gap ≠ [])
    (hstop : stop ∉ text) :
    moveDown stop fill steps front.length (front.length + gap.length)
      (front ++ (gap ++ text)) = none := by
  induction text generalizing front gap steps with
  | nil =>
    cases steps with
    | zero => rfl
    | succ steps =>
      rw [moveDown, List.append_nil, List.getElem?_eq_none (by simp)]
  | cons c text ih =>
    cases steps with
    | zero => rfl
    | succ steps =>
      obtain ⟨g, gap, rfl⟩ := List.exists_cons_of_ne_nil hgap
      have hne : c ≠ stop := fun hsame => hstop (hsame ▸ List.mem_cons_self)
      rw [moveDown_step, if_neg hne]
      exact ih _ (front ++ [c]) (gap ++ [c]) (by simp)
        (fun hmem => hstop (List.mem_cons_of_mem _ hmem))

end Move

end Serveez.Lib
