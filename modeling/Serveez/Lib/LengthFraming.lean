import Mathlib.Data.List.Infix

/-!
# Streams of frames that announce their size

The size of a frame is read from its first bytes: `size s` is the size of the frame that `s`
begins with, if `s` is long enough to tell. Bytes that follow do not change it.

* `IsFrames.unique`: a stream has one split into frames and a rest.
* `exists_isFrames`: it has one.
* `IsFrames.append`: the split of a longer stream continues from the rest.
-/

namespace Serveez.Lib

variable {α : Type*}

/-- What is asked of a size. -/
structure IsSize (size : List α → Option Nat) : Prop where
  append : ∀ {s : List α} {n : Nat} (t : List α), size s = some n → size (s ++ t) = some n
  pos : ∀ {s : List α} {n : Nat}, size s = some n → 0 < n
  /-- Whatever begins with a complete frame tells its size, and so does the frame alone. -/
  frame : ∀ {s : List α} {n : Nat}, size s = some n → n ≤ s.length → size (s.take n) = some n

/-- The frames of a stream and the rest behind them, which is not a complete frame. -/
structure IsFrames (size : List α → Option Nat) (s : List α) (frames : List (List α))
    (rest : List α) : Prop where
  stream : frames.flatten ++ rest = s
  frame : ∀ f ∈ frames, size f = some f.length
  rest : ∀ n, size rest = some n → rest.length < n

namespace IsFrames

variable {size : List α → Option Nat} {s t f rest last : List α} {frames more : List (List α)}

theorem none (h : ∀ n, size s = some n → s.length < n) : IsFrames size s [] s where
  stream := rfl
  frame := by simp
  rest := h

theorem cons (hf : size f = some f.length) (h : IsFrames size s frames rest) :
    IsFrames size (f ++ s) (f :: frames) rest where
  stream := by rw [List.flatten_cons, List.append_assoc, h.stream]
  frame := List.forall_mem_cons.mpr ⟨hf, h.frame⟩
  rest := h.rest

/-- New bytes are split together with the rest of the old ones. -/
theorem append (h : IsFrames size s frames rest) (hmore : IsFrames size (rest ++ t) more last) :
    IsFrames size (s ++ t) (frames ++ more) last where
  stream := by
    rw [List.flatten_append, List.append_assoc, hmore.stream, ← List.append_assoc, h.stream]
  frame := by
    intro f hf
    rcases List.mem_append.mp hf with hf | hf
    · exact h.frame f hf
    · exact hmore.frame f hf
  rest := hmore.rest

theorem append_left {front : List (List α)} (hfront : ∀ f ∈ front, size f = some f.length)
    (h : IsFrames size s frames rest) :
    IsFrames size (front.flatten ++ s) (front ++ frames) rest where
  stream := by rw [List.flatten_append, List.append_assoc, h.stream]
  frame := by
    intro f hf
    rcases List.mem_append.mp hf with hf | hf
    · exact hfront f hf
    · exact h.frame f hf
  rest := h.rest

theorem unique (hsize : IsSize size) :
    ∀ {frames more : List (List α)} {s rest last : List α},
      IsFrames size s frames rest → IsFrames size s more last → frames = more ∧ rest = last := by
  -- a stream that begins with a frame is not a rest
  have hnone : ∀ {f t : List α}, size f = some f.length →
      ¬ ∀ n, size (f ++ t) = some n → (f ++ t).length < n := by
    intro f t hf hrest
    have hlt := hrest _ (hsize.append t hf)
    rw [List.length_append] at hlt
    omega
  intro frames
  induction frames with
  | nil =>
    intro more s rest last h h'
    cases more with
    | nil => exact ⟨rfl, h.stream.trans h'.stream.symm⟩
    | cons g more =>
      have hrest : rest = g ++ (more.flatten ++ last) := by
        rw [← List.append_assoc, ← List.flatten_cons, h'.stream]
        exact h.stream
      exact absurd (hrest ▸ h.rest) (hnone (h'.frame g List.mem_cons_self))
  | cons f frames ih =>
    intro more s rest last h h'
    have hf : size f = some f.length := h.frame f List.mem_cons_self
    have hs : f ++ (frames.flatten ++ rest) = s := by
      rw [← List.append_assoc, ← List.flatten_cons, h.stream]
    cases more with
    | nil =>
      have hlast : last = f ++ (frames.flatten ++ rest) := by
        rw [hs]
        exact h'.stream
      exact absurd (hlast ▸ h'.rest) (hnone hf)
    | cons g more =>
      have hg : size g = some g.length := h'.frame g List.mem_cons_self
      have hs' : g ++ (more.flatten ++ last) = s := by
        rw [← List.append_assoc, ← List.flatten_cons, h'.stream]
      have hlen : f.length = g.length := by
        have hfs := hsize.append (frames.flatten ++ rest) hf
        rw [hs, ← hs', hsize.append _ hg] at hfs
        exact (Option.some_inj.mp hfs).symm
      obtain ⟨rfl, htail⟩ := List.append_inj (hs.trans hs'.symm) hlen
      obtain ⟨rfl, rfl⟩ := ih
        ⟨rfl, fun z hz => h.frame z (List.mem_cons_of_mem _ hz), h.rest⟩
        ⟨htail.symm, fun z hz => h'.frame z (List.mem_cons_of_mem _ hz), h'.rest⟩
      exact ⟨rfl, rfl⟩

end IsFrames

theorem exists_isFrames {size : List α → Option Nat} (hsize : IsSize size) (s : List α) :
    ∃ frames rest, IsFrames size s frames rest := by
  induction hlen : s.length using Nat.strong_induction_on generalizing s with
  | _ k ih =>
    subst hlen
    by_cases hrest : ∀ n, size s = some n → s.length < n
    · exact ⟨[], s, IsFrames.none hrest⟩
    · push Not at hrest
      obtain ⟨n, hn, hle⟩ := hrest
      have hpos := hsize.pos hn
      obtain ⟨frames, rest, hframes⟩ := ih (s.drop n).length (by rw [List.length_drop]; omega)
        (s.drop n) rfl
      have htake : size (s.take n) = some (s.take n).length := by
        rw [List.length_take_of_le hle]
        exact hsize.frame hn hle
      refine ⟨s.take n :: frames, rest, ?_⟩
      have hcons := hframes.cons htake
      rwa [List.take_append_drop] at hcons

end Serveez.Lib
