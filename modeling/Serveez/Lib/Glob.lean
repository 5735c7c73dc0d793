import Serveez.Lib.Cut
import Mathlib.Data.List.Forall2

/-!
# Patterns with wildcards

A pattern matches a text (`Wild.Matches`) if the text is cut into parts for its characters: one
character for each, and any part for `star`. A matcher that never goes back (`Wild.greedy`) takes
for `star` all up to the last place of the next character.

* `Wild.matches_append`, `Wild.greedy_append`: both begin with what is before the first `star`.
* `Wild.greedy_round`: a round of the matcher, up to the next wildcard.
-/

set_option linter.unusedSectionVars false

namespace Serveez.Lib

/-- How characters are compared, and the wildcards. No other character is like `star`. -/
structure Wild (α β : Type*) where
  fold : α → β
  star : α
  one : α
  distinct : star ≠ one
  alone : ∀ c, fold c = fold star → c = star

namespace Wild

variable {α β : Type*} (w : Wild α β)

/-- `one` fits each character, and the others those that they are like. -/
def Fits (c t : α) : Prop := c = w.one ∨ w.fold c = w.fold t

inductive Matches : List α → List α → Prop
  | nil : Matches [] []
  | char {c t : α} {p text : List α} (hplain : c ≠ w.star) (hfits : w.Fits c t)
      (hrest : Matches p text) : Matches (c :: p) (t :: text)
  | star {p text : List α} (skipped : List α) (hrest : Matches p text) :
      Matches (w.star :: p) (skipped ++ text)

def Literal (c : α) : Prop := c ≠ w.star ∧ c ≠ w.one

/-! ## Texts that match -/

variable {w} {s p text : List α} {c t : α}

theorem matches_nil : w.Matches [] text ↔ text = [] := by
  constructor
  · rintro ⟨⟩
    rfl
  · rintro rfl
    exact .nil

theorem matches_star : w.Matches (w.star :: p) text ↔
    ∃ skipped rest, text = skipped ++ rest ∧ w.Matches p rest := by
  constructor
  · intro h
    cases h with
    | char hplain => exact absurd rfl hplain
    | star skipped hrest => exact ⟨skipped, _, rfl, hrest⟩
  · rintro ⟨skipped, rest, rfl, hrest⟩
    exact .star skipped hrest

theorem matches_char (hc : c ≠ w.star) : w.Matches (c :: p) text ↔
    ∃ t rest, text = t :: rest ∧ w.Fits c t ∧ w.Matches p rest := by
  constructor
  · intro h
    cases h with
    | char _ hfits hrest => exact ⟨_, _, rfl, hfits, hrest⟩
    | star => exact absurd rfl hc
  · rintro ⟨t, rest, rfl, hfits, hrest⟩
    exact .char hc hfits hrest

/-- The characters before the first `star` match as many of the text. -/
theorem matches_append (hs : w.star ∉ s) : w.Matches (s ++ p) text ↔
    ∃ front rest, text = front ++ rest ∧ List.Forall₂ w.Fits s front ∧ w.Matches p rest := by
  induction s generalizing text with
  | nil =>
    constructor
    · exact fun h => ⟨[], text, rfl, .nil, h⟩
    · rintro ⟨front, rest, rfl, hfront, h⟩
      rw [List.forall₂_nil_left_iff.mp hfront]
      exact h
  | cons c s ih =>
    rw [List.mem_cons, not_or] at hs
    obtain ⟨hc, hs⟩ := hs
    rw [List.cons_append, matches_char (Ne.symm hc)]
    constructor
    · rintro ⟨t, rest, rfl, hfits, h⟩
      obtain ⟨front, rest, rfl, hfront, h⟩ := (ih hs).mp h
      exact ⟨t :: front, rest, rfl, .cons hfits hfront, h⟩
    · rintro ⟨front, rest, rfl, hfront, h⟩
      obtain ⟨t, more, hfits, hmore, rfl⟩ := List.forall₂_cons_left_iff.mp hfront
      exact ⟨t, more ++ rest, rfl, hfits, (ih hs).mpr ⟨more, rest, rfl, hmore, h⟩⟩

theorem matches_plain (hs : w.star ∉ s) : w.Matches s text ↔ List.Forall₂ w.Fits s text := by
  have happend : w.Matches (s ++ []) text ↔ _ := matches_append hs
  rw [List.append_nil] at happend
  rw [happend]
  constructor
  · rintro ⟨front, rest, rfl, hfront, h⟩
    rw [matches_nil.mp h, List.append_nil]
    exact hfront
  · exact fun h => ⟨text, [], (List.append_nil text).symm, h, .nil⟩

theorem fits_self (c : α) : w.Fits c c := Or.inr rfl

theorem forall₂_fits_self (s : List α) : List.Forall₂ w.Fits s s :=
  List.forall₂_same.mpr (fun c _ => fits_self c)

variable [DecidableEq α]

/-- Each character but `star` needs one of the text. -/
theorem Matches.length_le (h : w.Matches p text) : p.countP (· ≠ w.star) ≤ text.length := by
  induction h with
  | nil => exact Nat.le_refl _
  | char hplain _ _ ih =>
    rw [List.countP_cons_of_pos (by simpa using hplain), List.length_cons]
    exact Nat.succ_le_succ ih
  | star skipped _ ih =>
    rw [List.countP_cons_of_neg (by simp), List.length_append]
    omega

/-! ## Last places -/

variable [DecidableEq β]

variable (w) in
/-- The text from the last place of a character on. -/
def lastPlace (c : α) : List α → List α
  | [] => []
  | t :: text =>
    match lastPlace c text with
    | [] => if w.fold t = w.fold c then t :: text else []
    | t' :: text' => t' :: text'

theorem lastPlace_cons (hrest : w.lastPlace c text ≠ []) :
    w.lastPlace c (t :: text) = w.lastPlace c text := by
  rw [lastPlace]
  split
  · contradiction
  · next hlast => exact hlast.symm

theorem lastPlace_of_ne (h : ∀ t ∈ text, w.fold t ≠ w.fold c) : w.lastPlace c text = [] := by
  induction text with
  | nil => rfl
  | cons t text ih =>
    rw [lastPlace, ih (fun u hu => h u (List.mem_cons_of_mem _ hu))]
    exact if_neg (h t List.mem_cons_self)

theorem lastPlace_eq (front : List α) {rest : List α} (ht : w.fold t = w.fold c)
    (hrest : ∀ u ∈ rest, w.fold u ≠ w.fold c) :
    w.lastPlace c (front ++ t :: rest) = t :: rest := by
  induction front with
  | nil =>
    rw [List.nil_append, lastPlace, lastPlace_of_ne hrest]
    exact if_pos ht
  | cons u front ih =>
    rw [List.cons_append, lastPlace_cons, ih]
    rw [ih]
    exact List.cons_ne_nil _ _

theorem lastPlace_cases (w : Wild α β) (c : α) (text : List α) :
    (w.lastPlace c text = [] ∧ ∀ t ∈ text, w.fold t ≠ w.fold c) ∨
    ∃ front t rest, text = front ++ t :: rest ∧ w.fold t = w.fold c ∧
      (∀ u ∈ rest, w.fold u ≠ w.fold c) ∧ w.lastPlace c text = t :: rest := by
  induction text with
  | nil => exact Or.inl ⟨rfl, fun _ ht => absurd ht List.not_mem_nil⟩
  | cons u text ih =>
    rcases ih with ⟨-, hnone⟩ | ⟨front, t, rest, rfl, ht, hrest, -⟩
    · by_cases hu : w.fold u = w.fold c
      · exact Or.inr ⟨[], u, text, rfl, hu, hnone, lastPlace_eq [] hu hnone⟩
      · have hall : ∀ t ∈ u :: text, w.fold t ≠ w.fold c := List.forall_mem_cons.mpr ⟨hu, hnone⟩
        exact Or.inl ⟨lastPlace_of_ne hall, hall⟩
    · exact Or.inr ⟨u :: front, t, rest, rfl, ht, hrest, lastPlace_eq (u :: front) ht hrest⟩

/-! ## The matcher -/

variable (w) in
mutual

/-- The matcher. At the end of the text it goes on only right behind a character that it has
compared. -/
def greedy (behind : Bool) : List α → List α → Bool
  | [], text => text = []
  | c :: p, [] => behind && c = w.star && skipping p []
  | c :: p, t :: text =>
    if c = w.one then greedy false p text
    else if c = w.star then skipping p (t :: text)
    else w.fold c = w.fold t && greedy true p text

/-- What the matcher does behind `star`. -/
def skipping : List α → List α → Bool
  | [], _ => true
  | c :: p, text =>
    if c = w.one then skipping p text
    else
      match w.lastPlace c text with
      | [] => false
      | t :: rest => if c = w.star then skipping p (t :: rest) else greedy true p rest

end

variable {behind : Bool}

theorem greedy_one (t : α) (text : List α) :
    w.greedy behind (w.one :: p) (t :: text) = w.greedy false p text := by
  rw [greedy, if_pos rfl]

theorem greedy_literal (hc : w.Literal c) (t : α) (text : List α) :
    w.greedy behind (c :: p) (t :: text) =
      (decide (w.fold c = w.fold t) && w.greedy true p text) := by
  rw [greedy, if_neg hc.2, if_neg hc.1]

theorem greedy_end (hc : c ≠ w.star) : w.greedy behind (c :: p) [] = false := by
  rw [greedy, decide_eq_false hc, Bool.and_false, Bool.false_and]

theorem greedy_star (h : text ≠ [] ∨ behind = true) :
    w.greedy behind (w.star :: p) text = w.skipping p text := by
  cases text with
  | nil => simp [greedy, h.resolve_left (fun hne => hne rfl)]
  | cons t text => rw [greedy, if_neg w.distinct, if_pos rfl]

theorem skipping_replicate (n : Nat) :
    w.skipping (List.replicate n w.one ++ p) text = w.skipping p text := by
  induction n with
  | zero => rfl
  | succ n ih => rw [List.replicate_succ, List.cons_append, skipping, if_pos rfl, ih]

/-- Behind `star`, the matcher goes on behind the last place of the character. -/
theorem skipping_literal (hc : w.Literal c) : w.skipping (c :: p) text = true ↔
    ∃ t rest, w.lastPlace c text = t :: rest ∧ w.greedy true p rest = true := by
  rw [skipping, if_neg hc.2]
  cases w.lastPlace c text with
  | nil => simp
  | cons t rest => simp [hc.1]

/-- Two `star`s need a character like them. -/
theorem skipping_star (h : ∀ t ∈ text, t ≠ w.star) : w.skipping (w.star :: p) text = false := by
  rw [skipping, if_neg w.distinct,
    lastPlace_of_ne (fun t ht hsame => h t ht (w.alone t hsame))]

/-- The mode of the matcher behind characters without a `star`. -/
def after (w : Wild α β) (behind : Bool) : List α → Bool
  | [] => behind
  | c :: s => after w (c ≠ w.one) s

theorem after_concat (behind : Bool) (s : List α) (c : α) :
    w.after behind (s ++ [c]) = decide (c ≠ w.one) := by
  induction s generalizing behind with
  | nil => rfl
  | cons d s ih => exact ih _

theorem greedy_append (hs : w.star ∉ s) : w.greedy behind (s ++ p) text = true ↔
    ∃ front rest, text = front ++ rest ∧ List.Forall₂ w.Fits s front ∧
      w.greedy (w.after behind s) p rest = true := by
  induction s generalizing text behind with
  | nil =>
    constructor
    · exact fun h => ⟨[], text, rfl, .nil, h⟩
    · rintro ⟨front, rest, rfl, hfront, h⟩
      rw [List.forall₂_nil_left_iff.mp hfront]
      exact h
  | cons c s ih =>
    rw [List.mem_cons, not_or] at hs
    obtain ⟨hc, hs⟩ := hs
    cases text with
    | nil =>
      rw [List.cons_append, greedy_end (Ne.symm hc)]
      refine ⟨fun h => absurd h Bool.false_ne_true, ?_⟩
      rintro ⟨front, rest, hnil, hfront, -⟩
      obtain ⟨rfl, -⟩ := List.append_eq_nil_iff.mp hnil.symm
      exact absurd hfront (by simp)
    | cons t text =>
      have hstep : w.greedy behind (c :: (s ++ p)) (t :: text) = true ↔
          w.Fits c t ∧ w.greedy (decide (c ≠ w.one)) (s ++ p) text = true := by
        by_cases hone : c = w.one
        · rw [hone, greedy_one]
          simp [Fits]
        · rw [greedy_literal ⟨Ne.symm hc, hone⟩]
          simp [Fits, hone]
      rw [List.cons_append, hstep, ih hs]
      constructor
      · rintro ⟨hfits, front, rest, rfl, hfront, h⟩
        exact ⟨t :: front, rest, rfl, .cons hfits hfront, h⟩
      · rintro ⟨front, rest, htext, hfront, h⟩
        obtain ⟨u, more, hfits, hmore, rfl⟩ := List.forall₂_cons_left_iff.mp hfront
        obtain ⟨rfl, rfl⟩ := List.cons.inj htext
        exact ⟨hfits, more, rest, rfl, hmore, h⟩

theorem greedy_plain (hs : w.star ∉ s) :
    w.greedy behind s text = true ↔ List.Forall₂ w.Fits s text := by
  have happend : w.greedy behind (s ++ []) text = true ↔ _ := greedy_append hs
  rw [List.append_nil] at happend
  rw [happend]
  constructor
  · rintro ⟨front, rest, rfl, hfront, h⟩
    rw [greedy, decide_eq_true_eq] at h
    rw [h, List.append_nil]
    exact hfront
  · intro h
    refine ⟨text, [], (List.append_nil text).symm, h, ?_⟩
    rw [greedy]
    rfl

/-! ## Rounds -/

/-- What is left of the text and of the pattern at a wildcard or at the end of one of them, unless
they differ before. -/
def plainPart (w : Wild α β) : List α → List α → Option (List α × List α)
  | t :: text, c :: p =>
    if c = w.star ∨ c = w.one then some (t :: text, c :: p)
    else if w.fold t ≠ w.fold c then none
    else plainPart w text p
  | text, p => some (text, p)

theorem greedy_plainPart (w : Wild α β) (text p : List α) :
    w.greedy true p text = (w.plainPart text p).any fun rest => w.greedy true rest.2 rest.1 := by
  induction text, p using plainPart.induct w with
  | case1 t text c p hwild =>
    rw [plainPart, if_pos hwild]
    rfl
  | case2 t text c p hwild hdiff =>
    rw [plainPart, if_neg hwild, if_pos hdiff, greedy_literal (not_or.mp hwild),
      decide_eq_false (Ne.symm hdiff)]
    rfl
  | case3 t text c p hwild hsame ih =>
    rw [plainPart, if_neg hwild, if_neg hsame, ← ih, greedy_literal (not_or.mp hwild),
      decide_eq_true (not_not.mp hsame).symm, Bool.true_and]
  | case4 text p hshort =>
    rw [plainPart]
    · rfl
    · exact hshort

theorem plainPart_end {text' : List α} (hplain : w.plainPart text p = some (text', c :: s))
    (hc : w.Literal c) : text' = [] := by
  induction text, p using plainPart.induct w with
  | case1 t text d p hwild =>
    rw [plainPart, if_pos hwild] at hplain
    obtain ⟨-, heq⟩ := Prod.mk.inj (Option.some.inj hplain)
    obtain ⟨rfl, -⟩ := List.cons.inj heq
    exact absurd hwild (not_or.mpr hc)
  | case2 t text d p hwild hdiff =>
    rw [plainPart, if_neg hwild, if_pos hdiff] at hplain
    exact nomatch hplain
  | case3 t text d p hwild hsame ih =>
    rw [plainPart, if_neg hwild, if_neg hsame] at hplain
    exact ih hplain
  | case4 text p hshort =>
    rw [plainPart] at hplain
    · obtain ⟨rfl, rfl⟩ := Prod.mk.inj (Option.some.inj hplain)
      cases text with
      | nil => rfl
      | cons t text => exact absurd rfl (hshort t text c s rfl)
    · exact hshort

theorem greedy_mode (h : text ≠ []) : w.greedy false p text = w.greedy true p text := by
  cases text with
  | nil => exact absurd rfl h
  | cons t text => cases p <;> rw [greedy, greedy]

/-- Where the matcher goes on behind `star`. -/
theorem skipping_eq (p text : List α) : w.skipping p text =
    w.greedy false (p.dropWhile (· = w.one))
      ((p.dropWhile (· = w.one)).head?.elim [] fun c => w.lastPlace c text) := by
  induction p with
  | nil => rw [skipping]; rfl
  | cons c p ih =>
    by_cases hone : c = w.one
    · rw [List.dropWhile_cons_of_pos (by simpa using hone), skipping, if_pos hone, ih]
    · rw [List.dropWhile_cons_of_neg (by simpa using hone), skipping, if_neg hone]
      rcases w.lastPlace_cases c text with ⟨hlast, -⟩ | ⟨front, t, rest, -, ht, -, hlast⟩
      · rw [List.head?_cons, Option.elim_some, hlast, greedy, Bool.false_and, Bool.false_and]
      · rw [List.head?_cons, Option.elim_some, hlast, greedy, if_neg hone]
        dsimp only
        split_ifs
        · rfl
        · rw [decide_eq_true ht.symm, Bool.true_and]

theorem lastPlace_tails (c z : α) (text : List α) :
    (text.tails.filter fun t => t ≠ [] ∧ w.fold (t.headD z) = w.fold c).getLastD [] =
      w.lastPlace c text := by
  induction text with
  | nil => rfl
  | cons t text ih =>
    have htails : (t :: text).tails = (t :: text) :: text.tails := rfl
    rw [htails, List.filter_cons]
    have hne : ∀ u ∈ text.tails.filter fun t => t ≠ [] ∧ w.fold (t.headD z) = w.fold c, u ≠ [] :=
      fun u hu => (of_decide_eq_true (List.mem_filter.mp hu).2).1
    generalize text.tails.filter _ = l at ih hne
    cases l with
    | nil =>
      have hnil : w.lastPlace c text = [] := ih.symm
      rw [lastPlace, hnil]
      by_cases ht : w.fold t = w.fold c <;> simp [ht]
    | cons u l =>
      have hlast : w.lastPlace c text ≠ [] := by
        rw [← ih, List.getLastD_eq_getLast?, List.getLast?_eq_some_getLast (List.cons_ne_nil u l)]
        exact hne _ (List.getLast_mem (List.cons_ne_nil u l))
      rw [lastPlace_cons hlast, ← ih]
      split_ifs
      · rfl
      · rfl

theorem lastPlace_dropWhile (c z : α) (text : List α) :
    ((text.dropWhile fun d => w.fold c ≠ w.fold d).tails.filter fun t => t ≠ [] ∧
      w.fold (t.headD z) = w.fold ((text.dropWhile fun d => w.fold c ≠ w.fold d).headD z)).getLastD
        [] = w.lastPlace c text := by
  have hsplit := List.takeWhile_append_dropWhile (p := fun d => decide (w.fold c ≠ w.fold d))
    (l := text)
  cases hfirst : text.dropWhile fun d => w.fold c ≠ w.fold d with
  | nil =>
    rw [hfirst, List.append_nil] at hsplit
    refine (lastPlace_of_ne fun t ht => ?_).symm
    rw [← hsplit] at ht
    have hne : w.fold c ≠ w.fold t := of_mem_takeWhile (P := fun d => w.fold c ≠ w.fold d) ht
    exact hne.symm
  | cons d rest =>
    have hsame : w.fold d = w.fold c :=
      (not_not.mp (not_of_dropWhile (P := fun d => w.fold c ≠ w.fold d) hfirst)).symm
    rw [List.headD_cons, hsame, lastPlace_tails]
    rcases w.lastPlace_cases c (d :: rest) with
      ⟨-, hnone⟩ | ⟨front, t, more, hrest, ht, hmore, hlast⟩
    · exact absurd hsame (hnone d List.mem_cons_self)
    · rw [hlast, ← hsplit, hfirst, hrest, ← List.append_assoc]
      exact (lastPlace_eq _ ht hmore).symm

theorem plainPart_suffix {text' q : List α} (hplain : w.plainPart text p = some (text', q)) :
    text' <:+ text ∧ q <:+ p := by
  induction text, p using plainPart.induct w with
  | case1 t text c p hwild =>
    rw [plainPart, if_pos hwild] at hplain
    obtain ⟨rfl, rfl⟩ := Prod.mk.inj (Option.some.inj hplain)
    exact ⟨List.suffix_rfl, List.suffix_rfl⟩
  | case2 t text c p hwild hdiff =>
    rw [plainPart, if_neg hwild, if_pos hdiff] at hplain
    exact nomatch hplain
  | case3 t text c p hwild hsame ih =>
    rw [plainPart, if_neg hwild, if_neg hsame] at hplain
    obtain ⟨htext, hq⟩ := ih hplain
    exact ⟨htext.trans (List.suffix_cons t text), hq.trans (List.suffix_cons c p)⟩
  | case4 text p hshort =>
    rw [plainPart] at hplain
    · obtain ⟨rfl, rfl⟩ := Prod.mk.inj (Option.some.inj hplain)
      exact ⟨List.suffix_rfl, List.suffix_rfl⟩
    · exact hshort

theorem lastPlace_suffix (w : Wild α β) (c : α) (text : List α) : w.lastPlace c text <:+ text := by
  rcases w.lastPlace_cases c text with ⟨hlast, -⟩ | ⟨front, t, rest, rfl, -, -, hlast⟩
  · rw [hlast]
    exact List.nil_suffix
  · rw [hlast]
    exact List.suffix_append _ _

/-- A round of the matcher, for texts without a character like `z`. -/
theorem greedy_round {z : α} (hz : ∀ t ∈ text, w.fold t ≠ w.fold z) (htext : text ≠ []) :
    w.greedy false p text =
      match w.plainPart text p with
      | none => false
      | some (text, []) => decide (text = [])
      | some (text, c :: q) =>
        if c = w.one then
          match text with
          | [] => false
          | _ :: rest => w.greedy false q rest
        else if c = w.star then
          w.greedy false (q.dropWhile (· = w.one))
            (w.lastPlace ((q.dropWhile (· = w.one)).headD z) text)
        else false := by
  rw [greedy_mode htext, greedy_plainPart]
  cases hplain : w.plainPart text p with
  | none => rfl
  | some left =>
    obtain ⟨text', p'⟩ := left
    cases p' with
    | nil => rw [Option.any_some, greedy]
    | cons c q =>
      rw [Option.any_some]
      dsimp only
      by_cases hone : c = w.one
      · rw [if_pos hone, hone]
        cases text' with
        | nil => exact greedy_end w.distinct.symm
        | cons t rest => exact greedy_one t rest
      · rw [if_neg hone]
        by_cases hstar : c = w.star
        · rw [if_pos hstar, hstar, greedy_star (Or.inr rfl), skipping_eq]
          have hnone : w.lastPlace z text' = [] :=
            lastPlace_of_ne fun t ht => hz t ((plainPart_suffix hplain).1.subset ht)
          cases q.dropWhile (· = w.one) with
          | nil => rw [List.headD_nil, hnone]; rfl
          | cons d rest => rfl
        · rw [if_neg hstar, plainPart_end hplain ⟨hstar, hone⟩]
          exact greedy_end hstar

end Wild

end Serveez.Lib
