import Serveez.Nut.Route

/-!
# Search patterns

`nut_string_regex` matches a file name with a search text: all words of a text without wildcards
must be in the name, and one with wildcards must match the name as a whole. After an asterisk the
matching goes on at the last place of the character that follows it.
-/

namespace Serveez.Nut

/-- `strtok` with blanks -/
def strtok (str : List UInt8) : List (List UInt8) := (str.splitOn 32).filter (· ≠ [])

/-- `strstr` -/
def strstr (str token : List UInt8) : Bool := str.tails.any (token.isPrefixOf ·)

/-- The text from the last place of the character that it begins with. -/
def lastPlace (text : List UInt8) : List UInt8 :=
  (text.tails.filter (fun t => t ≠ [] ∧ toLower (t.headD 0) = toLower (text.headD 0))).getLastD []

/-- The text from the first place of a character on. -/
def firstPlace (c : UInt8) (text : List UInt8) : List UInt8 :=
  text.dropWhile (fun d => toLower c ≠ toLower d)

/-- What is left of the text and of the pattern at a wildcard or at the end of one of them, unless
they differ before. -/
def plainPart : List UInt8 → List UInt8 → Option (List UInt8 × List UInt8)
  | c :: text, r :: regex =>
    if r = 42 ∨ r = 63 then some (c :: text, r :: regex)
    else if toLower c ≠ toLower r then none
    else plainPart text regex
  | text, regex => some (text, regex)

theorem plainPart_length {text regex text' regex' : List UInt8}
    (h : plainPart text regex = some (text', regex')) : regex'.length ≤ regex.length := by
  induction text, regex using plainPart.induct with
  | case1 c text r regex hwild =>
    rw [plainPart, if_pos hwild] at h
    obtain ⟨-, rfl⟩ := Prod.mk.inj (Option.some.inj h)
    exact Nat.le_refl _
  | case2 c text r regex hwild hdiff =>
    rw [plainPart, if_neg hwild, if_pos hdiff] at h
    exact nomatch h
  | case3 c text r regex hwild hsame ih =>
    rw [plainPart, if_neg hwild, if_neg hsame] at h
    exact Nat.le_succ_of_le (ih h)
  | case4 text regex hshort =>
    rw [plainPart] at h
    · obtain ⟨-, rfl⟩ := Prod.mk.inj (Option.some.inj h)
      exact Nat.le_refl _
    · exact hshort

/-- The loop of `nut_string_regex`. -/
def regexLoop (text regex : List UInt8) : Bool :=
  if text = [] ∨ regex = [] then text = [] ∧ regex = []
  else
    match _h : plainPart text regex with
    | none => false
    | some (text, []) => text = []
    | some (text, r :: regex') =>
      if r = 63 then
        match text with
        | [] => false
        | _ :: text => regexLoop text regex'
      else if r = 42 then
        let rest := regex'.dropWhile (· = 63)
        regexLoop (lastPlace (firstPlace (rest.headD 0) text)) rest
      else false
termination_by regex.length
decreasing_by
  all_goals
    have hle := plainPart_length _h
    rw [List.length_cons] at hle
  · omega
  · have hdrop := (List.dropWhile_sublist (l := regex') (· = 63)).length_le
    omega

/-- `nut_string_regex` -/
def nutStringRegex (text regex : List UInt8) : Bool :=
  if 42 ∉ regex ∧ 63 ∉ regex then
    (strtok (regex.map toLower)).all (strstr (text.map toLower))
  else regexLoop text regex

end Serveez.Nut
