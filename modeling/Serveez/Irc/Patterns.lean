import Serveez.Irc.ConfigLines
import Serveez.Irc.Names
import Serveez.Lib.GlobRight
import Serveez.Nut.Regex

/-!
# Patterns of bans and searches

`irc_string_regex` and `nut_string_regex` are the matcher of `Lib.Wild`, with two ways to compare
characters: they take for an asterisk all up to the last place of the next character, go over each
question mark behind it, and do not match an asterisk with the end of a text unless it follows a
character that has been compared. `irc_string_regex` compares by a table of 256 bytes, with a
`char` as the index.

* `ircStringRegex_eq`, `nutStringRegex_eq`: both are the matcher.
* `regexReads_out`: where the table is read outside.
* `regex_iff`: the patterns for which they are right.
-/

namespace Serveez.Irc.Patterns

open Lib

/-- The characters of `irc_string_regex`. -/
def ircWild : Wild UInt8 UInt8 where
  fold := lcset
  star := 42
  one := 63
  distinct := by decide
  alone c hc := by
    revert hc
    refine forall_uint8 (P := fun c => lcset c = lcset 42 → c = 42) ?_ c
    decide +kernel

/-- The characters of `nut_string_regex`. -/
def nutWild : Wild UInt8 UInt8 where
  fold := Nut.toLower
  star := 42
  one := 63
  distinct := by decide
  alone c hc := by
    revert hc
    refine forall_uint8 (P := fun c => Nut.toLower c = Nut.toLower 42 → c = 42) ?_ c
    decide +kernel

/-- The loop has ended after a round for each character of the pattern, the table is read inside,
and the result says whether the text matches the pattern. -/
structure IrcRight (text regex : List UInt8) : Prop where
  ends : ∀ n, regex.length < n → regexLoop n text regex = ircStringRegex text regex
  inside : ∀ c ∈ ircStringReads text regex, InTable c
  decides : ircStringRegex text regex = true ↔ ircWild.Matches regex text

/-! ## The loops -/

theorem plainPart_eq (text regex : List UInt8) :
    plainPart text regex = ircWild.plainPart text regex := by
  induction text generalizing regex with
  | nil => rw [plainPart, Wild.plainPart]; simp
  | cons c text ih =>
    cases regex with
    | nil => rw [plainPart, Wild.plainPart] <;> simp
    | cons r regex =>
      rw [plainPart, Wild.plainPart, ih]
      rfl

theorem nutPlainPart_eq (text regex : List UInt8) :
    Nut.plainPart text regex = nutWild.plainPart text regex := by
  induction text generalizing regex with
  | nil => rw [Nut.plainPart, Wild.plainPart] <;> simp
  | cons c text ih =>
    cases regex with
    | nil => rw [Nut.plainPart, Wild.plainPart] <;> simp
    | cons r regex =>
      rw [Nut.plainPart, Wild.plainPart, ih]
      rfl

variable {text regex : List UInt8} {c : UInt8}

theorem greedy_ended {w : Wild UInt8 UInt8} (h : text = [] ∨ regex = []) :
    w.greedy false regex text = decide (text = [] ∧ regex = []) := by
  cases regex with
  | nil => simp [Wild.greedy]
  | cons r regex =>
    rcases h with rfl | h
    · simp [Wild.greedy]
    · exact absurd h (List.cons_ne_nil r regex)

theorem lastPlace_firstPlace (c : UInt8) (text : List UInt8) :
    lastPlace (firstPlace c text) = ircWild.lastPlace c text :=
  Wild.lastPlace_dropWhile (w := ircWild) c 0 text

theorem nutLastPlace_firstPlace (c : UInt8) (text : List UInt8) :
    Nut.lastPlace (Nut.firstPlace c text) = nutWild.lastPlace c text :=
  Wild.lastPlace_dropWhile (w := nutWild) c 0 text

theorem regexLoop_greedy {n : Nat} (hn : regex.length < n) (htext : 0 ∉ text) :
    regexLoop n text regex = ircWild.greedy false regex text := by
  induction n generalizing text regex with
  | zero => exact absurd hn (Nat.not_lt_zero _)
  | succ n ih =>
    rw [regexLoop]
    by_cases hend : text = [] ∨ regex = []
    · rw [if_pos hend, greedy_ended hend]
    have hz : ∀ t ∈ text, ircWild.fold t ≠ ircWild.fold 0 :=
      fun t ht => lcset_ne_zero fun h0 => htext (h0 ▸ ht)
    rw [if_neg hend, Wild.greedy_round hz (not_or.mp hend).1, ← plainPart_eq]
    cases hplain : plainPart text regex with
    | none => rfl
    | some left =>
      obtain ⟨text', regex'⟩ := left
      rw [plainPart_eq] at hplain
      obtain ⟨hsuffix, hshort⟩ := Wild.plainPart_suffix hplain
      have hlength := hshort.length_le
      have htext' : 0 ∉ text' := fun h0 => htext (hsuffix.subset h0)
      cases regex' with
      | nil => rfl
      | cons r regex' =>
        rw [List.length_cons] at hlength
        have hdrop := (List.dropWhile_sublist (l := regex') (· = 63)).length_le
        dsimp only
        by_cases hone : r = ircWild.one
        · rw [if_pos (show r = 63 from hone), if_pos hone]
          cases text' with
          | nil => rfl
          | cons t text' => exact ih (by omega) fun h0 => htext' (List.mem_cons_of_mem t h0)
        · rw [if_neg (show r ≠ 63 from hone), if_neg hone]
          by_cases hstar : r = ircWild.star
          · rw [if_pos (show r = 42 from hstar), if_pos hstar]
            rw [lastPlace_firstPlace]
            exact ih (by omega) fun h0 => htext' ((Wild.lastPlace_suffix _ _ _).subset h0)
          · rw [if_neg (show r ≠ 42 from hstar), if_neg hstar]

theorem ircStringRegex_eq (htext : 0 ∉ text) :
    ircStringRegex text regex = ircWild.greedy false regex text :=
  regexLoop_greedy (Nat.lt_succ_self _) htext

theorem toLower_ne_zero (h : c ≠ 0) : Nut.toLower c ≠ 0 := by
  revert h
  refine forall_uint8 (P := fun c => c ≠ 0 → Nut.toLower c ≠ 0) ?_ c
  decide +kernel

theorem nutRegexLoop_greedy (htext : 0 ∉ text) :
    Nut.regexLoop text regex = nutWild.greedy false regex text := by
  induction hn : regex.length using Nat.strong_induction_on generalizing text regex with
  | _ n ih =>
    rw [Nut.regexLoop]
    by_cases hend : text = [] ∨ regex = []
    · rw [if_pos hend, greedy_ended hend]
    have hz : ∀ t ∈ text, nutWild.fold t ≠ nutWild.fold 0 :=
      fun t ht => toLower_ne_zero fun h0 => htext (h0 ▸ ht)
    have hround := Wild.greedy_round (p := regex) hz (not_or.mp hend).1
    rw [if_neg hend]
    split
    · next hplain =>
      rw [← nutPlainPart_eq, hplain] at hround
      exact hround.symm
    · next hplain =>
      rw [← nutPlainPart_eq, hplain] at hround
      exact hround.symm
    · next text' r regex' hplain =>
      rw [nutPlainPart_eq] at hplain
      rw [hplain] at hround
      rw [hround]
      obtain ⟨hsuffix, hshort⟩ := Wild.plainPart_suffix hplain
      have hlength := hshort.length_le
      have htext' : 0 ∉ text' := fun h0 => htext (hsuffix.subset h0)
      rw [List.length_cons] at hlength
      have hdrop := (List.dropWhile_sublist (l := regex') (· = 63)).length_le
      dsimp only
      by_cases hone : r = nutWild.one
      · rw [if_pos (show r = 63 from hone), if_pos hone]
        cases text' with
        | nil => rfl
        | cons t text' =>
          exact ih _ (by omega) (fun h0 => htext' (List.mem_cons_of_mem t h0)) rfl
      · rw [if_neg (show r ≠ 63 from hone), if_neg hone]
        by_cases hstar : r = nutWild.star
        · rw [if_pos (show r = 42 from hstar), if_pos hstar, nutLastPlace_firstPlace]
          exact ih _ (by omega) (fun h0 => htext' ((Wild.lastPlace_suffix _ _ _).subset h0)) rfl
        · rw [if_neg (show r ≠ 42 from hstar), if_neg hstar]

theorem nutStringRegex_eq (htext : 0 ∉ text) (hwild : 42 ∈ regex ∨ 63 ∈ regex) :
    Nut.nutStringRegex text regex = nutWild.greedy false regex text := by
  rw [Nut.nutStringRegex, if_neg fun h => hwild.elim h.1 h.2, nutRegexLoop_greedy htext]

/-! ## Reads of the table -/

theorem inTable_iff (c : UInt8) : InTable c ↔ c < 128 := by
  refine forall_uint8 (P := fun c => InTable c ↔ c < 128) ?_ c
  decide +kernel

theorem mem_plainReads (h : c ∈ plainReads text regex) :
    c ∈ text ∨ c ∈ regex := by
  induction text generalizing regex with
  | nil => exact absurd h List.not_mem_nil
  | cons d text ih =>
    cases regex with
    | nil => exact absurd h List.not_mem_nil
    | cons r regex =>
      rw [plainReads] at h
      split_ifs at h
      · exact absurd h List.not_mem_nil
      · rcases List.mem_cons.mp h with rfl | h
        · exact Or.inl List.mem_cons_self
        · rw [List.mem_singleton.mp h]
          exact Or.inr List.mem_cons_self
      · rcases List.mem_cons.mp h with rfl | h
        · exact Or.inl List.mem_cons_self
        rcases List.mem_cons.mp h with rfl | h
        · exact Or.inr List.mem_cons_self
        · exact (ih h).imp (List.mem_cons_of_mem d) (List.mem_cons_of_mem r)

theorem mem_firstReads {r c : UInt8} {text : List UInt8} (h : c ∈ firstReads r text) :
    c = r ∨ c ∈ text := by
  induction text with
  | nil => exact absurd h List.not_mem_nil
  | cons d text ih =>
    rw [firstReads] at h
    split_ifs at h
    · rcases List.mem_cons.mp h with rfl | h
      · exact Or.inl rfl
      rcases List.mem_cons.mp h with rfl | h
      · exact Or.inr List.mem_cons_self
      · exact (ih h).imp_right (List.mem_cons_of_mem d)
    · rcases List.mem_cons.mp h with rfl | h
      · exact Or.inl rfl
      · rw [List.mem_singleton.mp h]
        exact Or.inr List.mem_cons_self

theorem firstPlace_subset (c : UInt8) (text : List UInt8) : firstPlace c text ⊆ text :=
  (List.dropWhile_sublist _).subset

theorem lastPlace_subset (text : List UInt8) : lastPlace text ⊆ text := by
  have hplace : lastPlace text = ircWild.lastPlace (text.headD 0) text :=
    Wild.lastPlace_tails (w := ircWild) _ 0 text
  rw [hplace]
  exact (Wild.lastPlace_suffix _ _ _).subset

theorem mem_lastReads {text : List UInt8} (h : c ∈ lastReads text) :
    c = 0 ∨ c ∈ text := by
  cases text with
  | nil => exact absurd h List.not_mem_nil
  | cons d text =>
    rcases List.mem_cons.mp h with rfl | h
    · exact Or.inr List.mem_cons_self
    rcases List.mem_cons.mp h with rfl | h
    · exact Or.inl rfl
    · exact Or.inr (lastPlace_subset _ (List.mem_reverse.mp h))

/-- The table is read with characters of the text and of the pattern, and at the end of both. -/
theorem mem_regexReads {n : Nat} (h : c ∈ regexReads n text regex) :
    c = 0 ∨ c ∈ text ∨ c ∈ regex := by
  induction n generalizing text regex with
  | zero => exact absurd h List.not_mem_nil
  | succ n ih =>
    rw [regexReads] at h
    split_ifs at h with hend
    · exact absurd h List.not_mem_nil
    rcases List.mem_append.mp h with h | h
    · exact Or.inr (mem_plainReads h)
    cases hplain : plainPart text regex with
    | none =>
      rw [hplain] at h
      exact absurd h List.not_mem_nil
    | some left =>
      obtain ⟨text', regex'⟩ := left
      rw [hplain] at h
      rw [plainPart_eq] at hplain
      obtain ⟨htext, hregex⟩ := Wild.plainPart_suffix hplain
      -- what a later round reads is of the same texts
      have hback {text'' regex'' : List UInt8} (htext'' : text'' ⊆ text')
          (hregex'' : regex'' ⊆ regex') (hread : c = 0 ∨ c ∈ text'' ∨ c ∈ regex'') :
          c = 0 ∨ c ∈ text ∨ c ∈ regex :=
        hread.imp_right (Or.imp (fun hc => htext.subset (htext'' hc))
          (fun hc => hregex.subset (hregex'' hc)))
      cases regex' with
      | nil => exact absurd h List.not_mem_nil
      | cons r regex' =>
        have hdrop : regex'.dropWhile (· = 63) ⊆ r :: regex' :=
          List.subset_cons_of_subset r (List.dropWhile_sublist _).subset
        dsimp only at h
        split_ifs at h
        · cases text' with
          | nil => exact absurd h List.not_mem_nil
          | cons t text' =>
            exact hback (List.subset_cons_self t text') (List.subset_cons_self r regex') (ih h)
        · have hhead : (regex'.dropWhile (· = 63)).headD 0 = 0 ∨
              (regex'.dropWhile (· = 63)).headD 0 ∈ regex'.dropWhile (· = 63) := by
            cases regex'.dropWhile (· = 63) with
            | nil => exact Or.inl rfl
            | cons d rest => exact Or.inr List.mem_cons_self
          rcases List.mem_append.mp h with h | h
          · rcases List.mem_append.mp h with h | h
            · rcases mem_firstReads h with rfl | h
              · exact hback (List.Subset.refl _) hdrop (hhead.imp_right Or.inr)
              · exact hback (List.Subset.refl _) hdrop (Or.inr (Or.inl h))
            · exact hback (firstPlace_subset _ _) hdrop ((mem_lastReads h).imp_right Or.inl)
          · refine hback ?_ hdrop (ih h)
            exact List.Subset.trans (lastPlace_subset _) (firstPlace_subset _ _)
        · exact absurd h List.not_mem_nil

/-- Question marks are not compared. -/
theorem regexReads_ones (n k : Nat) (text : List UInt8) :
    regexReads n text (List.replicate k 63) = [] := by
  induction n generalizing k text with
  | zero => rfl
  | succ n ih =>
    cases text with
    | nil => rw [regexReads, if_pos (Or.inl rfl)]
    | cons c text =>
      cases k with
      | zero => rw [List.replicate_zero, regexReads, if_pos (Or.inr rfl)]
      | succ k =>
        rw [List.replicate_succ, regexReads, if_neg (by simp), plainReads, if_pos (Or.inr rfl),
          plainPart, if_pos (Or.inr rfl)]
        exact ih k text

/-- Any other character is compared with what the text has at its place. -/
theorem regexReads_out {n k : Nat} (hn : k < n) {r : UInt8} (hr : r ≠ 63) (regex : List UInt8) :
    128 ∈ regexReads n (List.replicate k 97 ++ [128]) (List.replicate k 63 ++ r :: regex) := by
  induction k generalizing n with
  | zero =>
    obtain ⟨n, rfl⟩ := Nat.exists_eq_succ_of_ne_zero hn.ne'
    rw [List.replicate_zero, List.replicate_zero, List.nil_append, List.nil_append, regexReads,
      if_neg (by simp)]
    by_cases hstar : r = 42
    · rw [plainPart, if_pos (Or.inl hstar)]
      dsimp only
      rw [if_neg hr, if_pos hstar]
      refine List.mem_append_right _ (List.mem_append_left _ (List.mem_append_left _ ?_))
      rw [firstReads]
      split_ifs <;> simp
    · refine List.mem_append_left _ ?_
      rw [plainReads, if_neg (not_or.mpr ⟨hstar, hr⟩)]
      split_ifs <;> exact List.mem_cons_self
  | succ k ih =>
    obtain ⟨n, rfl⟩ := Nat.exists_eq_succ_of_ne_zero (Nat.ne_zero_of_lt hn)
    rw [List.replicate_succ, List.replicate_succ, List.cons_append, List.cons_append, regexReads,
      if_neg (by simp), plainReads, if_pos (Or.inr rfl), plainPart, if_pos (Or.inr rfl)]
    exact ih (Nat.lt_of_succ_lt_succ hn)

/-! ## Patterns -/

theorem eq_replicate_of_ones {regex : List UInt8} (h : ∀ c ∈ regex, c = 63) :
    regex = List.replicate regex.length 63 := List.eq_replicate_of_mem h

/-- With bytes from 128 on in the text, only patterns of question marks are right. -/
theorem ircRight_all_iff (regex : List UInt8) :
    (∀ text, 0 ∉ text → IrcRight text regex) ↔ ∀ c ∈ regex, c = 63 := by
  constructor
  · intro h
    obtain ⟨k, rest, rfl, hrest⟩ := ircWild.exists_ones regex
    cases rest with
    | nil =>
      rw [List.append_nil]
      exact fun c hc => List.eq_of_mem_replicate hc
    | cons r rest =>
      have hlong : k < (List.replicate k 63 ++ r :: rest).length + 1 := by
        rw [List.length_append, List.length_replicate]
        omega
      have hout := (h (List.replicate k 97 ++ [128]) (by simp)).inside 128
        (regexReads_out hlong (hrest r rfl) rest)
      exact absurd ((inTable_iff 128).mp hout) (by decide)
  · intro h text htext
    refine ⟨fun n hn => regexLoop_fuel hn, fun c hc => ?_, ?_⟩
    · rw [eq_replicate_of_ones h, ircStringReads, regexReads_ones] at hc
      exact absurd hc List.not_mem_nil
    · have hplain : ircWild.star ∉ regex := fun hstar => absurd (h _ hstar) (by decide)
      rw [ircStringRegex_eq htext]
      exact Wild.right_plain (P := fun _ => True) hplain text (fun _ _ => trivial)

/-- The bytes that texts are made of, inside the table. -/
def IrcByte (c : UInt8) : Prop := c ≠ 0 ∧ InTable c

instance : DecidablePred IrcByte := fun c => inferInstanceAs (Decidable (c ≠ 0 ∧ InTable c))

theorem ircRight_iff {regex : List UInt8} (hregex : ∀ c ∈ regex, IrcByte c) :
    (∀ text, (∀ c ∈ text, IrcByte c) → IrcRight text regex) ↔ ircWild.Simple regex := by
  rw [← Wild.right_iff (P := IrcByte) (by decide) hregex]
  refine forall₂_congr fun text htext => ?_
  rw [← ircStringRegex_eq fun h0 => (htext 0 h0).1 rfl]
  refine ⟨IrcRight.decides, fun h => ⟨fun n hn => regexLoop_fuel hn, fun c hc => ?_, h⟩⟩
  rcases mem_regexReads hc with rfl | hc | hc
  · decide
  · exact (htext c hc).2
  · exact (hregex c hc).2

/-- What `nut_string_regex` has to do with a pattern that has a wildcard. -/
def NutRight (regex : List UInt8) : Prop :=
  ∀ text, 0 ∉ text → (Nut.nutStringRegex text regex = true ↔ nutWild.Matches regex text)

theorem nutRight_iff {regex : List UInt8} (hregex : 0 ∉ regex) (hwild : 42 ∈ regex ∨ 63 ∈ regex) :
    NutRight regex ↔ nutWild.Simple regex := by
  rw [← Wild.right_iff (P := fun c => c ≠ 0) (by decide) fun c hc h0 => hregex (h0 ▸ hc)]
  refine forall_congr' fun text => ?_
  have htexts : 0 ∉ text ↔ ∀ c ∈ text, c ≠ 0 :=
    ⟨fun h c hc h0 => h (h0 ▸ hc), fun h h0 => h 0 h0 rfl⟩
  rw [← htexts]
  exact forall_congr' fun htext => by rw [nutStringRegex_eq htext hwild]

theorem ircRight_asterisk_iff {text : List UInt8} (htext : ∀ c ∈ text, IrcByte c) :
    IrcRight text [42] ↔ text ≠ [] := by
  have hzero : 0 ∉ text := fun h0 => (htext 0 h0).1 rfl
  constructor
  · rintro h rfl
    exact absurd (h.decides.mpr (Wild.matches_any [])) (by decide)
  · intro hne
    have hregex : ircStringRegex text [42] = true := by
      obtain ⟨c, text, rfl⟩ := List.exists_cons_of_ne_nil hne
      have hfirst : firstPlace 0 (c :: text) = [] :=
        List.dropWhile_eq_nil_iff.mpr fun d hd => decide_eq_true
          fun hsame => lcset_ne_zero (fun h0 => hzero (h0 ▸ hd)) (hsame.symm.trans rfl)
      simp [ircStringRegex, regexLoop, plainPart, hfirst, lastPlace]
    refine ⟨fun n hn => regexLoop_fuel hn, fun c hc => ?_, iff_of_true hregex (Wild.matches_any _)⟩
    rcases mem_regexReads hc with rfl | hc | hc
    · decide
    · exact (htext c hc).2
    · rw [List.mem_singleton.mp hc]
      decide

/-- For all texts, `irc_string_regex` is right for question marks only. For texts inside the table
it is right for the simple patterns, as is `nut_string_regex` if the pattern has a wildcard. -/
theorem regex_iff (regex : List UInt8) (hregex : 0 ∉ regex) :
    ((∀ text, 0 ∉ text → IrcRight text regex) ↔ ∀ c ∈ regex, c = 63) ∧
    ((∀ c ∈ regex, InTable c) →
      ((∀ text, (∀ c ∈ text, IrcByte c) → IrcRight text regex) ↔ ircWild.Simple regex)) ∧
    (42 ∈ regex ∨ 63 ∈ regex → (NutRight regex ↔ nutWild.Simple regex)) :=
  ⟨ircRight_all_iff regex,
    fun htable => ircRight_iff fun c hc => ⟨fun h0 => hregex (h0 ▸ hc), htable c hc⟩,
    nutRight_iff hregex⟩

/-- The pattern `a*`. -/
theorem regex_open : (∀ text, (∀ c ∈ text, IrcByte c) → IrcRight text [97, 42]) ∧
    ¬ ∀ text, 0 ∉ text → IrcRight text [97, 42] := by
  obtain ⟨hall, htable, -⟩ := regex_iff [97, 42] (by decide)
  have hbytes : ∀ c ∈ ([97, 42] : List UInt8), InTable c :=
    List.forall_mem_cons.mpr ⟨(inTable_iff 97).mpr (by decide),
      List.forall_mem_singleton.mpr ((inTable_iff 42).mpr (by decide))⟩
  refine ⟨(htable hbytes).mpr (.any (s := []) List.not_mem_nil ⟨by decide, by decide⟩), ?_⟩
  rw [hall]
  decide

/-- A lonely asterisk does not match the empty text. -/
theorem asterisk_not_ircRight : ¬ ∀ text regex : List UInt8, 0 ∉ text → 0 ∉ regex →
    IrcRight text regex := by
  intro h
  have hempty := (h [] [42] (by decide) (by decide)).decides.mpr (Wild.matches_any [])
  exact absurd hempty (by decide)

end Serveez.Irc.Patterns
