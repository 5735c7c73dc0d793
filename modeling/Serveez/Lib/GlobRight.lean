import Serveez.Lib.Glob

/-!
# Patterns that are matched without going back

For some patterns the matcher that never goes back is right for all texts, and for each other
pattern there is a text for which it is wrong: one that a pattern matches with the next character
once more behind the last place that it could be taken from, or a text that is too short.

* `Wild.cost_le`: how many characters the matcher needs.
* `Wild.Simple`, `Wild.right_iff`: the patterns for which it is right.
-/

set_option linter.unusedSectionVars false

namespace Serveez.Lib.Wild

variable {α β : Type*} {w : Wild α β} [DecidableEq α] [DecidableEq β] {s p text : List α} {c t : α}
  {behind : Bool}

/-! ## Lengths -/

/-- The characters that the matcher takes from the text, at least. Behind `star` it goes over each
`one`. -/
def cost (w : Wild α β) (skip : Bool) : List α → Nat
  | [] => 0
  | c :: p =>
    if c = w.star then cost w true p
    else if c = w.one ∧ skip = true then cost w true p
    else 1 + cost w false p

theorem cost_le (p : List α) :
    (∀ behind text, w.greedy behind p text = true → w.cost false p ≤ text.length) ∧
      ∀ text, w.skipping p text = true → w.cost true p ≤ text.length := by
  induction p with
  | nil => exact ⟨fun _ _ _ => Nat.zero_le _, fun _ _ => Nat.zero_le _⟩
  | cons c p ih =>
    obtain ⟨ihgreedy, ihskipping⟩ := ih
    refine ⟨fun behind text h => ?_, fun text h => ?_⟩
    · by_cases hstar : c = w.star
      · subst hstar
        rw [cost, if_pos rfl]
        refine ihskipping text ?_
        by_cases hend : text ≠ [] ∨ behind = true
        · rwa [greedy_star hend] at h
        · rw [not_or, not_not, Bool.not_eq_true] at hend
          rw [hend.1, hend.2, greedy, Bool.false_and, Bool.false_and] at h
          exact absurd h Bool.false_ne_true
      · rw [cost, if_neg hstar, if_neg (fun h => Bool.false_ne_true h.2)]
        cases text with
        | nil =>
          rw [greedy_end hstar] at h
          exact absurd h Bool.false_ne_true
        | cons t text =>
          rw [List.length_cons, Nat.add_comm]
          refine Nat.succ_le_succ ?_
          by_cases hone : c = w.one
          · rw [hone, greedy_one] at h
            exact ihgreedy _ _ h
          · rw [greedy_literal ⟨hstar, hone⟩, Bool.and_eq_true] at h
            exact ihgreedy _ _ h.2
    · by_cases hone : c = w.one
      · rw [skipping, if_pos hone] at h
        rw [cost, if_neg (hone ▸ w.distinct.symm), if_pos ⟨hone, rfl⟩]
        exact ihskipping text h
      · rw [skipping, if_neg hone] at h
        rcases w.lastPlace_cases c text with ⟨hlast, -⟩ | ⟨front, t, rest, rfl, -, -, hlast⟩
        · rw [hlast] at h
          exact absurd h Bool.false_ne_true
        · rw [hlast] at h
          rw [cost, List.length_append, List.length_cons]
          dsimp only at h
          split_ifs at h ⊢ with hstar hskip
          · have hle := ihskipping _ h
            rw [List.length_cons] at hle
            omega
          · exact absurd hskip.1 hone
          · have hle := ihgreedy _ _ h
            omega

theorem cost_literal {tail : List α} (htail : ∀ c ∈ tail, w.Literal c) (skip : Bool) :
    w.cost skip tail = tail.length := by
  induction tail generalizing skip with
  | nil => rfl
  | cons c tail ih =>
    obtain ⟨hc, htail⟩ := List.forall_mem_cons.mp htail
    rw [cost, if_neg hc.1, if_neg (fun h => hc.2 h.1), ih htail, List.length_cons, Nat.add_comm]

theorem cost_append {tail : List α} (htail : ∀ c ∈ tail, w.Literal c) (skip : Bool)
    (front : List α) : w.cost skip (front ++ tail) = w.cost skip front + tail.length := by
  induction front generalizing skip with
  | nil => rw [List.nil_append, cost_literal htail, cost, Nat.zero_add]
  | cons c front ih =>
    rw [List.cons_append, cost, cost]
    split_ifs
    · exact ih true
    · exact ih true
    · rw [ih false, Nat.add_assoc]

/-- What costs nothing behind `star`. -/
theorem cost_zero (h : w.cost true p = 0) :
    ∃ n, p = List.replicate n w.one ∨ ∃ q, p = List.replicate n w.one ++ w.star :: q := by
  induction p with
  | nil => exact ⟨0, Or.inl rfl⟩
  | cons c p ih =>
    rw [cost] at h
    split_ifs at h with hstar hone
    · exact ⟨0, Or.inr ⟨p, by rw [hstar]; rfl⟩⟩
    · obtain ⟨n, rfl | ⟨q, rfl⟩⟩ := ih h
      · exact ⟨n + 1, Or.inl (by rw [hone.1]; rfl)⟩
      · exact ⟨n + 1, Or.inr ⟨q, by rw [hone.1]; rfl⟩⟩
    · omega

/-! ## Patterns that are right -/

variable (w) in
/-- The patterns for which the matcher is right. -/
inductive Simple : List α → Prop
  | plain {s : List α} (hs : w.star ∉ s) : Simple s
  | any {s : List α} {c : α} (hs : w.star ∉ s) (hc : w.Literal c) : Simple (s ++ [c, w.star])
  | some : Simple [w.star, w.one]
  | oneAndSome {s : List α} (hs : w.star ∉ s) : Simple (s ++ [w.one, w.star, w.one])
  | ending {s : List α} {c : α} {e : List α} (hs : w.star ∉ s) (he : ∀ d ∈ c :: e, w.Literal d)
      (hc : ∀ d ∈ e, w.fold d ≠ w.fold c) : Simple (s ++ w.star :: c :: e)
  | inside {s : List α} {c : α} (hs : w.star ∉ s) (hc : w.Literal c) :
      Simple (s ++ [w.star, c, w.star])
  | both {s : List α} {b c : α} {e : List α} (hs : w.star ∉ s) (hb : w.Literal b)
      (he : ∀ d ∈ c :: e, w.Literal d) (hc : ∀ d ∈ e, w.fold d ≠ w.fold c)
      (hbe : ∀ d ∈ c :: e, w.fold d ≠ w.fold b) : Simple (s ++ w.star :: b :: w.star :: c :: e)

/-- The matcher is right for the texts of some characters. -/
def Right (w : Wild α β) (P : α → Prop) (behind : Bool) (p : List α) : Prop :=
  ∀ text, (∀ t ∈ text, P t) → (w.greedy behind p text = true ↔ w.Matches p text)

variable {P : α → Prop}

theorem right_plain (hs : w.star ∉ s) : w.Right P behind s := by
  intro text _
  rw [greedy_plain hs, matches_plain hs]

/-- What is before the first `star` may be left out. -/
theorem right_append (hs : w.star ∉ s) (hok : ∀ c ∈ s, P c) :
    w.Right P behind (s ++ p) ↔ w.Right P (w.after behind s) p := by
  constructor
  · intro h text htext
    have hall := h (s ++ text) (List.forall_mem_append.mpr ⟨hok, htext⟩)
    rw [greedy_append hs, matches_append hs] at hall
    -- the text has only one part that is as long as `s`
    have hcut {Q : List α → Prop} : (∃ front rest, s ++ text = front ++ rest ∧
        List.Forall₂ w.Fits s front ∧ Q rest) ↔ Q text := by
      constructor
      · rintro ⟨front, rest, heq, hfront, hq⟩
        rw [(List.append_inj heq hfront.length_eq).2]
        exact hq
      · exact fun hq => ⟨s, text, rfl, forall₂_fits_self s, hq⟩
    rwa [hcut, hcut] at hall
  · intro h text htext
    rw [greedy_append hs, matches_append hs]
    constructor
    · rintro ⟨front, rest, rfl, hfront, hrest⟩
      have hright := h rest (fun t ht => htext t (List.mem_append_right _ ht))
      exact ⟨front, rest, rfl, hfront, hright.mp hrest⟩
    · rintro ⟨front, rest, rfl, hfront, hrest⟩
      have hright := h rest (fun t ht => htext t (List.mem_append_right _ ht))
      exact ⟨front, rest, rfl, hfront, hright.mpr hrest⟩

/-- Behind `star` and a character that it is not like, the text goes on. -/
theorem greedy_star_literal (hc : w.Literal c) :
    w.greedy behind (w.star :: c :: p) text = true ↔
      ∃ t rest, w.lastPlace c text = t :: rest ∧ w.greedy true p rest = true := by
  by_cases hend : text ≠ [] ∨ behind = true
  · rw [greedy_star hend, skipping_literal hc]
  · rw [not_or, not_not, Bool.not_eq_true] at hend
    obtain ⟨rfl, rfl⟩ := hend
    rw [greedy, Bool.false_and, Bool.false_and]
    simp [lastPlace]

theorem matches_star_literal (hc : w.Literal c) : w.Matches (w.star :: c :: p) text ↔
    ∃ front t rest, text = front ++ t :: rest ∧ w.fold t = w.fold c ∧ w.Matches p rest := by
  rw [matches_star]
  constructor
  · rintro ⟨front, _, rfl, h⟩
    obtain ⟨t, rest, rfl, hfits, h⟩ := (matches_char hc.1).mp h
    exact ⟨front, t, rest, rfl, (hfits.resolve_left hc.2).symm, h⟩
  · rintro ⟨front, t, rest, rfl, hsame, h⟩
    exact ⟨front, _, rfl, (matches_char hc.1).mpr ⟨t, rest, rfl, Or.inr hsame.symm, h⟩⟩

theorem ne_of_forall₂ {b : α} {e : List α} (h : List.Forall₂ w.Fits e text)
    (he : ∀ d ∈ e, w.Literal d) (hne : ∀ d ∈ e, w.fold d ≠ w.fold b) :
    ∀ u ∈ text, w.fold u ≠ w.fold b := by
  induction h with
  | nil => exact fun _ hu => absurd hu List.not_mem_nil
  | cons hfits _ ih =>
    obtain ⟨hd, he⟩ := List.forall_mem_cons.mp he
    obtain ⟨hdb, hne⟩ := List.forall_mem_cons.mp hne
    refine List.forall_mem_cons.mpr ⟨?_, ih he hne⟩
    rw [← hfits.resolve_left hd.2]
    exact hdb

theorem star_not_mem {e : List α} (he : ∀ d ∈ e, w.Literal d) : w.star ∉ e :=
  fun hmem => (he w.star hmem).1 rfl

theorem right_ending {e : List α} (he : ∀ d ∈ c :: e, w.Literal d)
    (hne : ∀ d ∈ e, w.fold d ≠ w.fold c) : w.Right P behind (w.star :: c :: e) := by
  intro text _
  obtain ⟨hc, he⟩ := List.forall_mem_cons.mp he
  rw [greedy_star_literal hc, matches_star_literal hc]
  constructor
  · rintro ⟨t, rest, hlast, h⟩
    rcases w.lastPlace_cases c text with ⟨hnil, -⟩ | ⟨front, u, more, rfl, hu, -, hplace⟩
    · exact absurd (hlast.symm.trans hnil) (List.cons_ne_nil t rest)
    · obtain ⟨rfl, rfl⟩ := List.cons.inj (hlast.symm.trans hplace)
      rw [greedy_plain (star_not_mem he)] at h
      exact ⟨front, t, rest, rfl, hu, (matches_plain (star_not_mem he)).mpr h⟩
  · rintro ⟨front, t, rest, rfl, hsame, h⟩
    rw [matches_plain (star_not_mem he)] at h
    exact ⟨t, rest, lastPlace_eq front hsame (ne_of_forall₂ h he hne),
      (greedy_plain (star_not_mem he)).mpr h⟩

theorem matches_any (text : List α) : w.Matches [w.star] text :=
  matches_star.mpr ⟨text, [], (List.append_nil text).symm, .nil⟩

theorem greedy_any (text : List α) : w.greedy true [w.star] text = true := by
  rw [greedy_star (Or.inr rfl), skipping]

theorem right_inside (hc : w.Literal c) : w.Right P behind [w.star, c, w.star] := by
  intro text _
  rw [greedy_star_literal hc, matches_star_literal hc]
  constructor
  · rintro ⟨t, rest, hlast, -⟩
    rcases w.lastPlace_cases c text with ⟨hnil, -⟩ | ⟨front, u, more, rfl, hu, -, -⟩
    · exact absurd (hlast.symm.trans hnil) (List.cons_ne_nil t rest)
    · exact ⟨front, u, more, rfl, hu, matches_any more⟩
  · rintro ⟨front, t, rest, rfl, hsame, -⟩
    rcases w.lastPlace_cases c (front ++ t :: rest) with ⟨-, hnone⟩ | ⟨_, u, more, -, -, -, hlast⟩
    · exact absurd hsame (hnone t (List.mem_append_right _ List.mem_cons_self))
    · exact ⟨u, more, hlast, greedy_any more⟩

theorem right_both {b : α} {e : List α} (hb : w.Literal b) (he : ∀ d ∈ c :: e, w.Literal d)
    (hne : ∀ d ∈ e, w.fold d ≠ w.fold c) (hbe : ∀ d ∈ c :: e, w.fold d ≠ w.fold b) :
    w.Right P behind (w.star :: b :: w.star :: c :: e) := by
  intro text _
  have hrest (rest : List α) : w.greedy true (w.star :: c :: e) rest = true ↔
      w.Matches (w.star :: c :: e) rest :=
    right_ending (P := fun _ => True) he hne rest (fun _ _ => trivial)
  rw [greedy_star_literal hb, matches_star_literal hb]
  constructor
  · rintro ⟨t, rest, hlast, h⟩
    rcases w.lastPlace_cases b text with ⟨hnil, -⟩ | ⟨front, u, more, rfl, hu, -, hplace⟩
    · exact absurd (hlast.symm.trans hnil) (List.cons_ne_nil t rest)
    · obtain ⟨rfl, rfl⟩ := List.cons.inj (hlast.symm.trans hplace)
      exact ⟨front, t, rest, rfl, hu, (hrest rest).mp h⟩
  · rintro ⟨front, t, rest, rfl, hsame, h⟩
    obtain ⟨hc, he⟩ := List.forall_mem_cons.mp he
    obtain ⟨hcb, hbe⟩ := List.forall_mem_cons.mp hbe
    obtain ⟨middle, u, ending, rfl, hu, h⟩ := (matches_star_literal hc).mp h
    have hfits := (matches_plain (star_not_mem he)).mp h
    have hnone : ∀ v ∈ u :: ending, w.fold v ≠ w.fold b :=
      List.forall_mem_cons.mpr ⟨by rwa [hu], ne_of_forall₂ hfits he hbe⟩
    -- the last `b` is before the part for `c` and what follows it
    rcases w.lastPlace_cases b (front ++ t :: middle) with
      ⟨-, habsent⟩ | ⟨before, v, between, hsplit, hv, hlast, -⟩
    · exact absurd hsame (habsent t (List.mem_append_right _ List.mem_cons_self))
    · have htext : front ++ t :: (middle ++ u :: ending) =
          before ++ v :: (between ++ u :: ending) := by
        have happend := congrArg (· ++ u :: ending) hsplit
        simpa only [List.append_assoc, List.cons_append] using happend
      rw [htext]
      refine ⟨v, between ++ u :: ending, lastPlace_eq before hv ?_, (hrest _).mpr ?_⟩
      · exact List.forall_mem_append.mpr ⟨hlast, hnone⟩
      · exact (matches_star_literal hc).mpr ⟨between, u, ending, rfl, hu, h⟩

theorem right_some : w.Right P false [w.star, w.one] := by
  intro text _
  rw [matches_star]
  have hone : w.Matches [w.one] = fun rest => ∃ t, rest = [t] := by
    funext rest
    rw [eq_iff_iff, matches_char w.distinct.symm]
    constructor
    · rintro ⟨t, more, rfl, -, h⟩
      exact ⟨t, by rw [matches_nil.mp h]⟩
    · rintro ⟨t, rfl⟩
      exact ⟨t, [], rfl, Or.inl rfl, .nil⟩
  rw [hone]
  rcases List.eq_nil_or_concat text with rfl | ⟨front, t, rfl⟩
  · simp [greedy]
  · rw [greedy_star (Or.inl (by simp)), skipping, if_pos rfl, skipping]
    exact iff_of_true rfl ⟨front, [t], List.concat_eq_append, t, rfl⟩

theorem Simple.right (h : w.Simple p) (hok : ∀ c ∈ p, P c) : w.Right P false p := by
  cases h with
  | plain hs => exact right_plain hs
  | @any s c hs hc =>
    rw [List.append_cons] at hok ⊢
    have hsc : w.star ∉ s ++ [c] := by
      simpa [hs] using hc.1.symm
    rw [right_append hsc (fun d hd => hok d (List.mem_append_left _ hd)), after_concat,
      decide_eq_true hc.2]
    exact fun text _ => iff_of_true (greedy_any text) (matches_any text)
  | some => exact right_some
  | @oneAndSome s hs =>
    rw [List.append_cons] at hok ⊢
    have hsone : w.star ∉ s ++ [w.one] := by
      simpa [hs] using w.distinct
    rw [right_append hsone (fun d hd => hok d (List.mem_append_left _ hd)), after_concat,
      decide_eq_false (not_not.mpr rfl)]
    exact right_some
  | ending hs he hc =>
    rw [right_append hs (fun d hd => hok d (List.mem_append_left _ hd))]
    exact right_ending he hc
  | inside hs hc =>
    rw [right_append hs (fun d hd => hok d (List.mem_append_left _ hd))]
    exact right_inside hc
  | both hs hb he hc hbe =>
    rw [right_append hs (fun d hd => hok d (List.mem_append_left _ hd))]
    exact right_both hb he hc hbe

/-! ## Patterns that are not right -/

theorem matches_filter (p : List α) : w.Matches p (p.filter (· ≠ w.star)) := by
  induction p with
  | nil => exact .nil
  | cons c p ih =>
    by_cases hc : c = w.star
    · rw [hc, List.filter_cons_of_neg (by simp)]
      exact .star [] ih
    · rw [List.filter_cons_of_pos (by simpa using hc)]
      exact .char hc (fits_self c) ih

/-- A pattern with two `star`s and nothing to compare between them. -/
theorem not_right_stars (hone : P w.one) {n : Nat} {q : List α} (hq : ∀ c ∈ q, P c) :
    ¬ w.Right P behind (w.star :: (List.replicate n w.one ++ w.star :: q)) := by
  intro h
  let rest := List.replicate n w.one ++ w.star :: q
  have hmatches : w.Matches (w.star :: rest) ([w.one] ++ rest.filter (· ≠ w.star)) :=
    .star [w.one] (matches_filter rest)
  have hok : ∀ t ∈ [w.one] ++ rest.filter (· ≠ w.star), P t := by
    refine List.forall_mem_cons.mpr ⟨hone, fun t ht => ?_⟩
    obtain ⟨hmem, hne⟩ := List.mem_filter.mp ht
    rcases List.mem_append.mp hmem with hmem | hmem
    · rwa [List.eq_of_mem_replicate hmem]
    · exact hq t ((List.mem_cons.mp hmem).resolve_left (by simpa using hne))
  have hnone : ∀ t ∈ [w.one] ++ rest.filter (· ≠ w.star), t ≠ w.star :=
    List.forall_mem_cons.mpr ⟨w.distinct.symm, fun t ht => by simpa using (List.mem_filter.mp ht).2⟩
  have hgreedy := (h _ hok).mpr hmatches
  rw [greedy_star (Or.inl (by simp)), skipping_replicate, skipping_star hnone] at hgreedy
  exact Bool.false_ne_true hgreedy

/-- At the end of a pattern, `star` does without a character only behind one that is compared. -/
theorem right_last (hone : P w.one) {n : Nat}
    (h : w.Right P behind (w.star :: List.replicate n w.one)) :
    n = if behind then 0 else 1 := by
  have hskipping (text : List α) : w.skipping (List.replicate n w.one) text = true := by
    rw [← List.append_nil (List.replicate n w.one), skipping_replicate, skipping]
  have hlength {text : List α} (hmatches : w.Matches (w.star :: List.replicate n w.one) text) :
      n ≤ text.length := by
    have hle := hmatches.length_le
    rwa [List.countP_cons_of_neg (by simp), List.countP_replicate,
      if_pos (by simpa using w.distinct.symm)] at hle
  cases behind with
  | true =>
    have hnil := h [] (fun _ ht => absurd ht List.not_mem_nil)
    rw [greedy_star (Or.inr rfl), hskipping] at hnil
    exact Nat.le_zero.mp (hlength (hnil.mp rfl))
  | false =>
    have hnil := h [] (fun _ ht => absurd ht List.not_mem_nil)
    have hsingle := h [w.one] (by simpa using hone)
    rw [greedy_star (Or.inl (List.cons_ne_nil _ _)), hskipping] at hsingle
    have hle := hlength (hsingle.mp rfl)
    have hpos : n ≠ 0 := by
      rintro rfl
      have hgreedy := hnil.mpr (matches_any [])
      rw [greedy, Bool.false_and, Bool.false_and] at hgreedy
      exact Bool.false_ne_true hgreedy
    rw [List.length_singleton] at hle
    exact Nat.le_antisymm hle (Nat.pos_of_ne_zero hpos)

/-- The last elements of a list that have a property. -/
theorem exists_tail (P : α → Prop) (l : List α) : ∃ front tail, l = front ++ tail ∧
    (∀ d ∈ tail, P d) ∧ (front = [] ∨ ∃ before x, front = before ++ [x] ∧ ¬ P x) := by
  induction l with
  | nil => exact ⟨[], [], rfl, fun _ hd => absurd hd List.not_mem_nil, Or.inl rfl⟩
  | cons a l ih =>
    obtain ⟨front, tail, rfl, htail, rfl | ⟨before, x, rfl, hx⟩⟩ := ih
    · by_cases ha : P a
      · exact ⟨[], a :: tail, rfl, List.forall_mem_cons.mpr ⟨ha, htail⟩, Or.inl rfl⟩
      · exact ⟨[a], tail, rfl, htail, Or.inr ⟨[], a, rfl, ha⟩⟩
    · exact ⟨a :: (before ++ [x]), tail, rfl, htail, Or.inr ⟨a :: before, x, rfl, hx⟩⟩

/-- The text for a pattern that has `b` for each wildcard. -/
def filled (w : Wild α β) (b : α) (p : List α) : List α :=
  p.map (fun c => if c = w.star ∨ c = w.one then b else c)

theorem matches_filled (b : α) (p : List α) : w.Matches p (w.filled b p) := by
  induction p with
  | nil => exact .nil
  | cons c p ih =>
    rw [filled, List.map_cons]
    by_cases hstar : c = w.star
    · rw [hstar, if_pos (Or.inl rfl)]
      exact .star [b] ih
    · refine .char hstar ?_ ih
      by_cases hone : c = w.one
      · exact Or.inl hone
      · rw [if_neg (not_or.mpr ⟨hstar, hone⟩)]
        exact fits_self c

theorem filled_literal {b : α} {tail : List α} (htail : ∀ c ∈ tail, w.Literal c) :
    w.filled b tail = tail := by
  rw [filled]
  refine (List.map_congr_left fun c hc => ?_).trans (List.map_id tail)
  exact if_neg (not_or.mpr (htail c hc))

/-- The matcher goes on behind the last character of a filled text that is like `b`. -/
theorem lastPlace_filled {b : α} {n : Nat} {front tail : List α}
    (htail : ∀ d ∈ tail, w.Literal d ∧ w.fold d ≠ w.fold b)
    (hfront : front = [] ∨ ∃ before x, front = before ++ [x] ∧
      ¬ (w.Literal x ∧ w.fold x ≠ w.fold b)) :
    ∃ u, w.lastPlace b (List.replicate n b ++ b :: w.filled b (front ++ tail)) = u :: tail := by
  have hsplit : w.filled b (front ++ tail) = w.filled b front ++ tail := by
    rw [filled, List.map_append]
    exact congrArg (w.filled b front ++ ·) (filled_literal fun d hd => (htail d hd).1)
  rw [hsplit]
  rcases hfront with rfl | ⟨before, x, rfl, hx⟩
  · exact ⟨b, lastPlace_eq (List.replicate n b) rfl fun d hd => (htail d hd).2⟩
  · have hlike : w.fold (if x = w.star ∨ x = w.one then b else x) = w.fold b := by
      split_ifs with hwild
      · rfl
      · exact not_not.mp fun hne => hx ⟨not_or.mp hwild, hne⟩
    refine ⟨if x = w.star ∨ x = w.one then b else x, ?_⟩
    rw [filled, List.map_append, List.map_singleton, List.append_assoc, List.singleton_append,
      ← List.cons_append, ← List.append_assoc]
    exact lastPlace_eq _ hlike fun d hd => (htail d hd).2

/-- The matcher goes on with the rest of the pattern behind the last place of the character. -/
theorem greedy_jump {b u : α} (hb : w.Literal b) {n : Nat} {r tail : List α} (htext : text ≠ [])
    (hlast : w.lastPlace b text = u :: tail) :
    w.greedy behind (w.star :: (List.replicate n w.one ++ b :: r)) text =
      w.greedy true r tail := by
  rw [greedy_star (Or.inl htext), skipping_replicate, skipping, if_neg hb.2, hlast]
  exact if_neg hb.1

/-- The filled text matches, so the matcher finds the rest of the pattern in the tail. -/
theorem greedy_tail {b : α} (hb : w.Literal b) {n : Nat} {front tail : List α}
    (htail : ∀ d ∈ tail, w.Literal d ∧ w.fold d ≠ w.fold b)
    (hfront : front = [] ∨ ∃ before x, front = before ++ [x] ∧
      ¬ (w.Literal x ∧ w.fold x ≠ w.fold b))
    (hok : P b) (hokr : ∀ c ∈ front ++ tail, P c)
    (h : w.Right P behind (w.star :: (List.replicate n w.one ++ b :: (front ++ tail)))) :
    w.greedy true (front ++ tail) tail = true := by
  obtain ⟨u, hlast⟩ := lastPlace_filled (n := n) htail hfront
  rw [← greedy_jump hb (by simp) hlast]
  refine (h _ fun t ht => ?_).mpr ?_
  · rcases List.mem_append.mp ht with ht | ht
    · rwa [List.eq_of_mem_replicate ht]
    · rcases List.mem_cons.mp ht with rfl | ht
      · exact hok
      · obtain ⟨c, hc, rfl⟩ := List.mem_map.mp ht
        split_ifs
        · exact hok
        · exact hokr c hc
  · have hfilled := matches_filled (w := w) b (List.replicate n w.one ++ b :: (front ++ tail))
    rw [filled, List.map_append, List.map_replicate, List.map_cons, if_pos (Or.inr rfl),
      if_neg (not_or.mpr hb)] at hfilled
    exact .star [] hfilled

/-- What follows the first character behind `star` in a pattern that is right. -/
theorem right_behind {b : α} (hb : w.Literal b) {n : Nat} {r : List α} (hok : P b)
    (hokr : ∀ c ∈ r, P c) (h : w.Right P behind (w.star :: (List.replicate n w.one ++ b :: r))) :
    n = 0 ∧ ∃ tail, (∀ d ∈ tail, w.Literal d ∧ w.fold d ≠ w.fold b) ∧
      (r = tail ∨ r = w.star :: tail ∧ w.greedy true r tail = true) := by
  obtain ⟨front, tail, rfl, htail, hfront⟩ :=
    exists_tail (fun d => w.Literal d ∧ w.fold d ≠ w.fold b) r
  have hliteral : ∀ d ∈ tail, w.Literal d := fun d hd => (htail d hd).1
  have hgreedy := greedy_tail hb htail hfront hok hokr h
  -- a shorter text, for which the matcher does the same
  have hlast : w.lastPlace b (b :: tail) = b :: tail :=
    lastPlace_eq (w := w) [] rfl fun d hd => (htail d hd).2
  have hshort : w.Matches (w.star :: (List.replicate n w.one ++ b :: (front ++ tail)))
      (b :: tail) := by
    refine (h _ (List.forall_mem_cons.mpr ⟨hok, fun t ht => ?_⟩)).mp ?_
    · exact hokr t (List.mem_append_right _ ht)
    · rw [greedy_jump hb (List.cons_ne_nil b tail) hlast, hgreedy]
  have hlength := hshort.length_le
  have hcounted : tail.countP (· ≠ w.star) = tail.length :=
    List.countP_eq_length.mpr fun d hd => by simpa using (hliteral d hd).1
  rw [List.countP_cons_of_neg (by simp), List.countP_append, List.countP_replicate,
    if_pos (by simpa using w.distinct.symm), List.countP_cons_of_pos (by simpa using hb.1),
    List.countP_append, hcounted, List.length_cons] at hlength
  have hcost := (cost_le (w := w) (front ++ tail)).1 true tail hgreedy
  rw [cost_append hliteral] at hcost
  refine ⟨by omega, tail, htail, ?_⟩
  cases front with
  | nil => exact Or.inl rfl
  | cons c front =>
    by_cases hc : c = w.star
    · subst hc
      rw [cost, if_pos rfl] at hcost
      obtain ⟨m, rfl | ⟨q, rfl⟩⟩ := cost_zero (w := w) (p := front) (by omega)
      · rw [List.countP_cons_of_neg (by simp), List.countP_replicate,
          if_pos (by simpa using w.distinct.symm)] at hlength
        obtain rfl : m = 0 := by omega
        exact Or.inr ⟨rfl, hgreedy⟩
      · rw [List.cons_append, greedy_star (Or.inr rfl), List.append_assoc, List.cons_append,
          skipping_replicate, skipping_star fun d hd => (hliteral d hd).1] at hgreedy
        exact absurd hgreedy Bool.false_ne_true
    · rw [cost, if_neg hc, if_neg fun h => Bool.false_ne_true h.2] at hcost
      omega

theorem exists_ones (w : Wild α β) (q : List α) :
    ∃ n r, q = List.replicate n w.one ++ r ∧ ∀ c ∈ r.head?, c ≠ w.one := by
  induction q with
  | nil => exact ⟨0, [], rfl, fun _ hc => absurd hc (by simp)⟩
  | cons c q ih =>
    by_cases hc : c = w.one
    · obtain ⟨n, r, rfl, hr⟩ := ih
      exact ⟨n + 1, r, by rw [hc]; rfl, hr⟩
    · exact ⟨0, c :: q, rfl, fun d hd => by simpa [← Option.some.inj hd] using hc⟩

/-- A pattern of literals finds itself only if its first one is not repeated. -/
theorem ne_of_greedy_self {e : List α} (he : ∀ d ∈ c :: e, w.Literal d)
    (h : w.greedy true (w.star :: c :: e) (c :: e) = true) : ∀ d ∈ e, w.fold d ≠ w.fold c := by
  obtain ⟨hc, he⟩ := List.forall_mem_cons.mp he
  obtain ⟨t, rest, hlast, hrest⟩ := (greedy_star_literal hc).mp h
  have hle := (cost_le (w := w) e).1 true rest hrest
  rw [cost_literal he] at hle
  rcases w.lastPlace_cases c (c :: e) with ⟨hnil, -⟩ | ⟨front, u, more, hsplit, -, hmore, hplace⟩
  · exact absurd (hlast.symm.trans hnil) (List.cons_ne_nil t rest)
  · obtain ⟨rfl, rfl⟩ := List.cons.inj (hlast.symm.trans hplace)
    have hlength := congrArg List.length hsplit
    rw [List.length_append, List.length_cons, List.length_cons] at hlength
    obtain rfl : front = [] := List.length_eq_zero_iff.mp (by omega)
    rw [(List.cons.inj hsplit).2]
    exact hmore

theorem simple_of_right (hone : P w.one) {q : List α} (hs : w.star ∉ s) (hok : ∀ c ∈ q, P c)
    (h : w.Right P (w.after false s) (w.star :: q)) : w.Simple (s ++ w.star :: q) := by
  obtain ⟨n, r, rfl, hr⟩ := w.exists_ones q
  cases r with
  | nil =>
    rw [List.append_nil] at h ⊢
    have hn := right_last hone h
    rcases List.eq_nil_or_concat s with rfl | ⟨front, c, hconcat⟩
    · obtain rfl : n = 1 := hn
      exact .some
    · rw [List.concat_eq_append] at hconcat
      subst hconcat
      rw [after_concat] at hn
      have hfront : w.star ∉ front := fun hmem => hs (List.mem_append_left _ hmem)
      by_cases hc : c = w.one
      · obtain rfl : n = 1 := by simpa [hc] using hn
        rw [hc, List.append_assoc]
        exact .oneAndSome hfront
      · obtain rfl : n = 0 := by simpa [hc] using hn
        rw [List.append_assoc]
        exact .any hfront ⟨fun hstar => hs (by simp [hstar]), hc⟩
  | cons b r =>
    have hokr : ∀ c ∈ b :: r, P c := fun c hc => hok c (List.mem_append_right _ hc)
    by_cases hb : b = w.star
    · subst hb
      exact absurd h (not_right_stars hone fun c hc => hokr c (List.mem_cons_of_mem _ hc))
    · have hliteral : w.Literal b := ⟨hb, hr b rfl⟩
      obtain ⟨rfl, tail, htail, hcases⟩ := right_behind hliteral (hokr b List.mem_cons_self)
        (fun c hc => hokr c (List.mem_cons_of_mem _ hc)) h
      have hplain : ∀ d ∈ tail, w.Literal d := fun d hd => (htail d hd).1
      have hne : ∀ d ∈ tail, w.fold d ≠ w.fold b := fun d hd => (htail d hd).2
      rcases hcases with rfl | ⟨rfl, hgreedy⟩
      · exact .ending hs (List.forall_mem_cons.mpr ⟨hliteral, hplain⟩) hne
      · cases tail with
        | nil => exact .inside hs hliteral
        | cons c e => exact .both hs hliteral hplain (ne_of_greedy_self hplain hgreedy) hne

theorem right_iff (hone : P w.one) (hok : ∀ c ∈ p, P c) : w.Right P false p ↔ w.Simple p := by
  refine ⟨fun h => ?_, fun h => h.right hok⟩
  by_cases hstar : w.star ∈ p
  · obtain ⟨s, q, rfl, hs⟩ := List.eq_append_cons_of_mem hstar
    rw [right_append hs fun c hc => hok c (List.mem_append_left _ hc)] at h
    exact simple_of_right hone hs
      (fun c hc => hok c (List.mem_append_right _ (List.mem_cons_of_mem _ hc))) h
  · exact .plain hstar

end Serveez.Lib.Wild
