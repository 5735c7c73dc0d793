import Serveez.Lib.Window
import Serveez.Nut.Download

/-!
# Properties in a header

`nut_parse_property` looks for the name of a property everywhere in a header. A place is taken for
the name when all of its characters but the last are there, since both pointers have been advanced
when the last one is compared; the value is what follows behind a colon.

* `parsePropertyReads_spec`: the function reads nothing behind the header, and its result is that
  of `nutParseProperty`.
* `parseProperty_iff`: the headers in which it finds what it should.
-/

namespace Serveez.Nut

open Lib
open Lib.Traced

/-! ## The function, with what it reads -/

/-- The place that was taken for the name, and the value. -/
structure Parsed where
  matched : Option Nat
  value : Option (List UInt8)

/-- The comparison, with `n` bytes up to the end. -/
def compareReads (mem : List UInt8) : Nat → Nat → List UInt8 → Traced (Nat × List UInt8)
  | 0, h, p => pure (h, p)
  | _ + 1, h, [] => pure (h, [])
  | n + 1, h, d :: p => do
    let c ← readAt 0 mem h
    if toLower c = toLower d then compareReads mem n (h + 1) p else pure (h + 1, p)

/-- `while (h < end && *h++ == ' ')` -/
def skipPast (mem : List UInt8) : Nat → Nat → Traced Nat
  | 0, h => pure h
  | n + 1, h => do
    let c ← readAt 0 mem h
    if c = 32 then skipPast mem n (h + 1) else pure (h + 1)

def parseValueReads (mem : List UInt8) (len h : Nat) : Traced (Option (List UInt8)) := do
  let h ← skipPast mem (len - h) h
  if len ≤ h then pure none
  else do
    let c ← readAt 0 mem (h - 1)
    if c ≠ 58 then pure none
    else do
      let header ← scanWhile 0 mem (· = 32) (len - h) h
      let h ← scanWhile 0 mem (fun c => c ≠ 13 ∧ c ≠ 10) (len - header) header
      if len ≤ h ∨ h = header then pure none
      else do
        let value ← readRange 0 mem (h - header) header
        pure (some value)

/-- What is done at a place where the first character is; `again` is the next round. -/
def parseAt (mem : List UInt8) (len : Nat) (property : List UInt8) (header : Nat)
    (again : Traced Parsed) : Traced Parsed := do
  let compared ← compareReads mem (len - header) header property
  if len ≤ compared.1 then pure ⟨none, none⟩
  else if compared.2 ≠ [] then again
  else do
    let value ← parseValueReads mem len compared.1
    pure ⟨some header, value⟩

/-- The loop, for so many rounds. -/
def parsePropertyLoop (mem : List UInt8) (len : Nat) (property : List UInt8) :
    Nat → Nat → Traced Parsed
  | 0, _ => pure ⟨none, none⟩
  | rounds + 1, h => do
    let header ← scanWhile 0 mem (fun c => toLower c ≠ toLower (property.headD 0)) (len - h) h
    if len ≤ header then pure ⟨none, none⟩
    else parseAt mem len property header (parsePropertyLoop mem len property rounds (header + 1))

/-- `nut_parse_property`: `mem` is the memory from the header on. -/
def parsePropertyReads (mem : List UInt8) (len : Nat) (property : List UInt8) : Traced Parsed :=
  parsePropertyLoop mem len property (len + 1) 0

/-! ## The places that are taken -/

/-- What the comparison takes for the property: all of it but the last character, and there is
more than the name. -/
def Candidate (property s : List UInt8) : Prop :=
  (s.map toLower).head? = (property.map toLower).head? ∧
    property.dropLast.map toLower <+: s.map toLower ∧ property.length < s.length

instance (property s : List UInt8) : Decidable (Candidate property s) :=
  inferInstanceAs (Decidable (_ ∧ _))

/-- The first of them, where the text begins at `h`. -/
def firstCandidate (property : List UInt8) : Nat → List UInt8 → Option Nat
  | _, [] => none
  | h, c :: s =>
    if Candidate property (c :: s) then some h else firstCandidate property (h + 1) s

variable {property s rest mem : List UInt8} {len h : Nat}

/-- The comparison takes the property, comes to the end of the text, or ends before either. -/
theorem compareName_cases (hproperty : property ≠ []) (s : List UInt8) :
    (property.dropLast.map toLower <+: s.map toLower ∧ property.length ≤ s.length ∧
        compareName s property = (s.drop property.length, [])) ∨
      (s.length < property.length ∧ (compareName s property).1 = []) ∨
      (¬ property.dropLast.map toLower <+: s.map toLower ∧ (compareName s property).1 ≠ [] ∧
        (compareName s property).2 ≠ []) := by
  induction s generalizing property with
  | nil => exact Or.inr (Or.inl ⟨List.length_pos_iff.mpr hproperty, rfl⟩)
  | cons c s ih =>
    cases property with
    | nil => exact absurd rfl hproperty
    | cons d property =>
      unfold compareName
      cases property with
      | nil =>
        refine Or.inl ⟨List.nil_prefix, by simp, ?_⟩
        split_ifs
        · cases s with
          | nil => rfl
          | cons e s => rfl
        · rfl
      | cons e property =>
        have hlast : ((d :: e :: property).dropLast).map toLower =
            toLower d :: ((e :: property).dropLast).map toLower := rfl
        rw [hlast, List.map_cons, List.cons_prefix_cons]
        by_cases hc : toLower c = toLower d
        · rw [if_pos hc]
          rcases ih (List.cons_ne_nil e property) with ⟨hbegins, hlen, heq⟩ | ⟨hlen, hend⟩ | hdiff
          · refine Or.inl ⟨⟨hc.symm, hbegins⟩, Nat.succ_le_succ hlen, ?_⟩
            rw [heq]
            rfl
          · exact Or.inr (Or.inl ⟨Nat.succ_lt_succ hlen, hend⟩)
          · exact Or.inr (Or.inr ⟨fun h => hdiff.1 h.2, hdiff.2⟩)
        · rw [if_neg hc]
          cases s with
          | nil => exact Or.inr (Or.inl ⟨by simp, rfl⟩)
          | cons f s =>
            exact Or.inr (Or.inr ⟨fun h => hc h.1.symm, List.cons_ne_nil f s,
              List.cons_ne_nil e property⟩)

theorem head_iff (hproperty : property ≠ []) (c : UInt8) (s : List UInt8) :
    ((c :: s).map toLower).head? = (property.map toLower).head? ↔
      toLower c = toLower (property.headD 0) := by
  cases property with
  | nil => exact absurd rfl hproperty
  | cons d property => simp

/-- A text that is not longer than the name has no value. -/
theorem nutParseProperty_short (hproperty : property ≠ []) (hshort : s.length ≤ property.length) :
    nutParseProperty property s = none := by
  induction s with
  | nil => rfl
  | cons c s ih =>
    have hrest := ih (Nat.le_of_succ_le hshort)
    unfold nutParseProperty
    split_ifs
    · exact hrest
    · split
      · rfl
      · exact hrest
      · rename_i rest hne heq
        rcases compareName_cases hproperty (c :: s) with ⟨-, hlen, htaken⟩ | ⟨-, hend⟩ | hdiff
        · have hnil : rest = [] := by
            rw [htaken] at heq
            rw [← (Prod.mk.inj heq).1]
            exact List.drop_eq_nil_of_le hshort
          exact absurd hnil hne
        · rw [heq] at hend
          exact absurd hend hne
        · rw [heq] at hdiff
          exact absurd rfl hdiff.2.2

theorem firstCandidate_short (hshort : s.length ≤ property.length) (h : Nat) :
    firstCandidate property h s = none := by
  induction s generalizing h with
  | nil => rfl
  | cons c s ih =>
    unfold firstCandidate
    rw [if_neg (fun hcandidate => absurd hcandidate.2.2 (Nat.not_lt.mpr hshort))]
    exact ih (Nat.le_of_succ_le hshort) (h + 1)

/-- What `nutParseProperty` finds at a place that it takes, and where it goes on otherwise. -/
theorem nutParseProperty_cons (hproperty : property ≠ []) {c : UInt8}
    (hhead : toLower c = toLower (property.headD 0)) :
    nutParseProperty property (c :: s) =
      if Candidate property (c :: s) then propertyValue ((c :: s).drop property.length)
      else nutParseProperty property s := by
  have hfirst := (head_iff hproperty c s).mpr hhead
  by_cases hshort : (c :: s).length ≤ property.length
  · rw [nutParseProperty_short hproperty hshort,
      if_neg (fun hcandidate => absurd hcandidate.2.2 (Nat.not_lt.mpr hshort)),
      nutParseProperty_short hproperty (Nat.le_of_succ_le hshort)]
  rw [nutParseProperty, if_neg (fun hne => hne hhead)]
  rcases compareName_cases hproperty (c :: s) with ⟨hbegins, -, heq⟩ | ⟨hlen, -⟩ | ⟨hno, hrest, hp⟩
  · rw [if_pos ⟨hfirst, hbegins, Nat.lt_of_not_le hshort⟩, heq]
    cases hdrop : (c :: s).drop property.length with
    | nil => exact absurd (List.drop_eq_nil_iff.mp hdrop) hshort
    | cons d rest => rfl
  · exact absurd hlen.le hshort
  · rw [if_neg (fun hcandidate => hno hcandidate.2.1)]
    split
    · rename_i heq
      rw [heq] at hrest
      exact absurd rfl hrest
    · rfl
    · rename_i heq
      rw [heq] at hp
      exact absurd rfl hp

/-- The scan for the first character passes over no place that could be taken. -/
theorem parse_skip (hproperty : property ≠ []) (s : List UInt8) (h : Nat) :
    let pass := fun c => decide (toLower c ≠ toLower (property.headD 0))
    firstCandidate property h s =
        firstCandidate property (h + (s.takeWhile pass).length) (s.dropWhile pass) ∧
      nutParseProperty property s = nutParseProperty property (s.dropWhile pass) := by
  intro pass
  induction s generalizing h with
  | nil => exact ⟨rfl, rfl⟩
  | cons c s ih =>
    by_cases hc : toLower c = toLower (property.headD 0)
    · have hpass : ¬ pass c = true := fun h => of_decide_eq_true h hc
      rw [List.takeWhile_cons_of_neg hpass, List.dropWhile_cons_of_neg hpass]
      exact ⟨rfl, rfl⟩
    · have hpass : pass c = true := decide_eq_true hc
      obtain ⟨hplace, hvalue⟩ := ih (h + 1)
      rw [List.takeWhile_cons_of_pos hpass, List.dropWhile_cons_of_pos hpass, List.length_cons]
      constructor
      · rw [firstCandidate,
          if_neg (fun hcandidate => hc ((head_iff hproperty c s).mp hcandidate.1)),
          hplace, Nat.add_right_comm, Nat.add_assoc]
      · rw [nutParseProperty, if_pos hc, hvalue]

/-! ## The loops -/

theorem compareReads_spec (hw : Window mem len h rest) (p : List UInt8) :
    (compareReads mem (len - h) h p).Within len ∧
      Window mem len (compareReads mem (len - h) h p).value.1 (compareName rest p).1 ∧
      (compareReads mem (len - h) h p).value.2 = (compareName rest p).2 := by
  rw [hw.sub_eq]
  induction rest generalizing h p with
  | nil => exact ⟨within_pure _ len, hw, rfl⟩
  | cons c rest ih =>
    cases p with
    | nil => exact ⟨within_pure _ len, hw, rfl⟩
    | cons d p =>
      obtain ⟨hwithin, hnext, hrest⟩ := ih hw.next p
      have hread := (within_readAt 0 mem h len).mpr hw.lt
      rw [List.length_cons, compareReads, within_bind, value_bind, value_readAt, hw.getD,
        compareName]
      by_cases hc : toLower c = toLower d
      · rw [if_pos hc, if_pos hc]
        exact ⟨⟨hread, hwithin⟩, hnext, hrest⟩
      · rw [if_neg hc, if_neg hc]
        exact ⟨⟨hread, within_pure _ len⟩, hw.next, rfl⟩

/-- Spaces, and the byte behind them, are passed over. -/
theorem skipPast_spec (hw : Window mem len h rest) :
    (skipPast mem (len - h) h).Within len ∧
      match rest.dropWhile (· = 32) with
      | [] => Window mem len (skipPast mem (len - h) h).value []
      | c :: back => ∃ place, (skipPast mem (len - h) h).value = place + 1 ∧
          Window mem len place (c :: back) := by
  rw [hw.sub_eq]
  induction rest generalizing h with
  | nil => exact ⟨within_pure _ len, hw⟩
  | cons c rest ih =>
    obtain ⟨hwithin, hplace⟩ := ih hw.next
    have hread := (within_readAt 0 mem h len).mpr hw.lt
    rw [List.length_cons, skipPast, within_bind, value_bind, value_readAt, hw.getD]
    by_cases hc : c = 32
    · rw [if_pos hc, List.dropWhile_cons_of_pos (by simpa using hc)]
      exact ⟨⟨hread, hwithin⟩, hplace⟩
    · rw [if_neg hc, List.dropWhile_cons_of_neg (by simpa using hc)]
      exact ⟨⟨hread, within_pure _ len⟩, h, rfl, hw⟩

/-- The text in front of the line end, behind the spaces. -/
theorem copyValue_spec (hw : Window mem len h rest) :
    let value := rest.takeWhile (fun c => c ≠ 13 ∧ c ≠ 10)
    let ends := (scanWhile 0 mem (fun c => c ≠ 13 ∧ c ≠ 10) (len - h) h).value
    (len ≤ ends ∨ ends = h ↔ value.length = rest.length ∨ value = []) ∧
      (readRange 0 mem (ends - h) h).Within len ∧
      (readRange 0 mem (ends - h) h).value = value := by
  intro value ends
  obtain ⟨-, hend⟩ := scanWhile_spec 0 (fun c => decide (c ≠ 13 ∧ c ≠ 10)) hw
  have hsplit : value ++ rest.dropWhile (fun c => c ≠ 13 ∧ c ≠ 10) = rest :=
    List.takeWhile_append_dropWhile
  have hlength := congrArg List.length hsplit
  rw [List.length_append] at hlength
  have hends : ends = h + value.length := by
    have hstart := hw.ends
    have hstop := hend.ends
    change ends + _ = len at hstop
    omega
  have hcopied : ends - h = value.length := by omega
  refine ⟨or_congr ?_ ?_, ?_⟩
  · rw [hend.le_iff, ← List.length_eq_zero_iff]
    omega
  · rw [← List.length_eq_zero_iff]
    omega
  · rw [hcopied]
    exact readRange_spec 0 (hsplit.symm ▸ hw)

theorem parseValueReads_spec (hw : Window mem len h rest) :
    (parseValueReads mem len h).Within len ∧
      (parseValueReads mem len h).value = propertyValue rest := by
  obtain ⟨hpast, hspaces⟩ := skipPast_spec hw
  unfold parseValueReads propertyValue
  rw [within_bind, value_bind]
  cases hdrop : rest.dropWhile (· = 32) with
  | nil =>
    rw [hdrop] at hspaces
    rw [if_pos (hspaces.le_iff.mpr rfl)]
    exact ⟨⟨hpast, within_pure _ len⟩, rfl⟩
  | cons c back =>
    rw [hdrop] at hspaces
    obtain ⟨place, hplace, hcolon⟩ := hspaces
    dsimp only
    rw [hplace]
    by_cases hback : back = []
    · rw [if_pos (hcolon.next.le_iff.mpr hback), if_pos (Or.inl hback)]
      exact ⟨⟨hpast, within_pure _ len⟩, rfl⟩
    rw [if_neg (fun hle => hback (hcolon.next.le_iff.mp hle)), within_bind, value_bind,
      value_readAt, Nat.add_sub_cancel, hcolon.getD]
    have hread := (within_readAt 0 mem place len).mpr hcolon.lt
    by_cases hc : c = 58
    · rw [if_neg (fun hne => hne hc), if_neg (fun hor => hor.elim hback (fun hne => hne hc))]
      obtain ⟨hblank, hvalue⟩ := scanWhile_spec 0 (fun c => decide (c = 32)) hcolon.next
      obtain ⟨hline, -⟩ := scanWhile_spec 0 (fun c => decide (c ≠ 13 ∧ c ≠ 10)) hvalue
      obtain ⟨hnone, hcopy, hcopied⟩ := copyValue_spec hvalue
      rw [within_bind, value_bind, within_bind, value_bind]
      let text := back.dropWhile (fun c => c = 32)
      let value := text.takeWhile (fun c => c ≠ 13 ∧ c ≠ 10)
      by_cases hempty : value.length = text.length ∨ value = []
      · rw [if_pos (hnone.mpr hempty), if_pos hempty]
        exact ⟨⟨hpast, hread, hblank, hline, within_pure _ len⟩, rfl⟩
      · rw [if_neg (fun h => hempty (hnone.mp h)), if_neg hempty, within_bind, value_bind,
          hcopied]
        exact ⟨⟨hpast, hread, hblank, hline, hcopy, within_pure _ len⟩, rfl⟩
    · rw [if_pos hc, if_pos (Or.inr hc)]
      exact ⟨⟨hpast, hread, within_pure _ len⟩, rfl⟩

theorem parseAt_spec (hproperty : property ≠ []) {c : UInt8} {header : Nat}
    (hw : Window mem len header (c :: rest)) (hhead : toLower c = toLower (property.headD 0))
    {again : Traced Parsed} (hwithin : again.Within len)
    (hagain : again.value =
      ⟨firstCandidate property (header + 1) rest, nutParseProperty property rest⟩) :
    (parseAt mem len property header again).Within len ∧
      (parseAt mem len property header again).value =
        ⟨firstCandidate property header (c :: rest), nutParseProperty property (c :: rest)⟩ := by
  obtain ⟨hcompare, hleft, hp⟩ := compareReads_spec hw property
  have hfirst := (head_iff hproperty c rest).mpr hhead
  rw [parseAt, within_bind, value_bind]
  rcases compareName_cases hproperty (c :: rest) with
    ⟨hbegins, hlen, heq⟩ | ⟨hshort, hend⟩ | ⟨hno, hrest, hdiff⟩
  · rw [heq] at hleft hp
    by_cases hshort : (c :: rest).length ≤ property.length
    · rw [if_pos (hleft.le_iff.mpr (List.drop_eq_nil_of_le hshort)),
        nutParseProperty_short hproperty hshort, firstCandidate_short hshort]
      exact ⟨⟨hcompare, within_pure _ len⟩, rfl⟩
    · have hcandidate : Candidate property (c :: rest) :=
        ⟨hfirst, hbegins, Nat.lt_of_not_le hshort⟩
      obtain ⟨hread, hvalue⟩ := parseValueReads_spec hleft
      rw [if_neg (fun hle => hshort (List.drop_eq_nil_iff.mp (hleft.le_iff.mp hle))),
        if_neg (fun hne => hne hp), within_bind, value_bind, hvalue,
        nutParseProperty_cons hproperty hhead, if_pos hcandidate, firstCandidate,
        if_pos hcandidate]
      exact ⟨⟨hcompare, hread, within_pure _ len⟩, rfl⟩
  · rw [if_pos (hleft.le_iff.mpr hend), nutParseProperty_short hproperty hshort.le,
      firstCandidate_short hshort.le]
    exact ⟨⟨hcompare, within_pure _ len⟩, rfl⟩
  · have hcandidate : ¬ Candidate property (c :: rest) := fun h => hno h.2.1
    rw [if_neg (fun hle => hrest (hleft.le_iff.mp hle)), if_pos (by rw [hp]; exact hdiff),
      nutParseProperty_cons hproperty hhead, if_neg hcandidate, firstCandidate,
      if_neg hcandidate]
    exact ⟨⟨hcompare, hwithin⟩, hagain⟩

theorem parsePropertyLoop_spec (hproperty : property ≠ []) (rounds : Nat)
    (hw : Window mem len h rest) (hrounds : rest.length < rounds) :
    (parsePropertyLoop mem len property rounds h).Within len ∧
      (parsePropertyLoop mem len property rounds h).value =
        ⟨firstCandidate property h rest, nutParseProperty property rest⟩ := by
  induction rounds generalizing h rest with
  | zero => exact absurd hrounds (Nat.not_lt_zero _)
  | succ rounds ih =>
    obtain ⟨hscan, hheader⟩ :=
      scanWhile_spec 0 (fun c => decide (toLower c ≠ toLower (property.headD 0))) hw
    obtain ⟨hplace, hvalue⟩ := parse_skip hproperty rest h
    have hsplit := congrArg List.length (List.takeWhile_append_dropWhile
      (p := fun c => decide (toLower c ≠ toLower (property.headD 0))) (l := rest))
    have hbefore := hw.ends
    have hafter := hheader.ends
    rw [parsePropertyLoop, within_bind, value_bind]
    rw [List.length_append] at hsplit
    generalize (scanWhile 0 mem (fun c => decide (toLower c ≠ toLower (property.headD 0)))
      (len - h) h).value = header at hheader hafter ⊢
    have hstart : h + (rest.takeWhile
        (fun c => decide (toLower c ≠ toLower (property.headD 0)))).length = header := by omega
    rw [hplace, hvalue, hstart]
    cases htext : rest.dropWhile (fun c => decide (toLower c ≠ toLower (property.headD 0))) with
    | nil =>
      rw [htext] at hheader
      rw [if_pos (hheader.le_iff.mpr rfl)]
      exact ⟨⟨hscan, within_pure _ len⟩, rfl⟩
    | cons c back =>
      rw [htext] at hheader hsplit
      rw [List.length_cons] at hsplit
      have hhead : toLower c = toLower (property.headD 0) := by
        have hno := not_of_dropWhile (P := fun c => toLower c ≠ toLower (property.headD 0)) htext
        exact Decidable.of_not_not hno
      obtain ⟨hwithin, hagain⟩ := ih hheader.next (by omega)
      obtain ⟨hread, hparsed⟩ := parseAt_spec hproperty hheader hhead hwithin hagain
      rw [if_neg (fun hle => List.cons_ne_nil c back (hheader.le_iff.mp hle))]
      exact ⟨⟨hscan, hread⟩, hparsed⟩

/-- The function reads nothing behind the header, whatever is in the memory there. -/
theorem parsePropertyReads_spec (hproperty : property ≠ []) (header beyond : List UInt8) :
    (parsePropertyReads (header ++ beyond) header.length property).Within header.length ∧
      (parsePropertyReads (header ++ beyond) header.length property).value =
        ⟨firstCandidate property 0 header, nutParseProperty property header⟩ :=
  parsePropertyLoop_spec hproperty _ (Window.start header beyond) (Nat.lt_succ_self _)

/-! ## Headers -/

/-- A line of a header, without its end. -/
structure HeaderLine where
  bytes : List UInt8
  noEnd : ∀ c ∈ bytes, c ≠ 13 ∧ c ≠ 10

/-- The line has a colon, and what is before the colon is the property. -/
def HeaderLine.Named (property : List UInt8) (line : HeaderLine) : Prop :=
  58 ∈ line.bytes ∧ (line.bytes.takeWhile (· ≠ 58)).map toLower = property.map toLower

instance (property : List UInt8) (line : HeaderLine) : Decidable (line.Named property) :=
  inferInstanceAs (Decidable (_ ∧ _))

/-- What is behind the colon and the spaces there. -/
def HeaderLine.value (line : HeaderLine) : List UInt8 :=
  ((line.bytes.dropWhile (· ≠ 58)).drop 1).dropWhile (· = 32)

/-- What is behind the last line of a header. -/
inductive Ending
  | nothing
  | cr
  | crlf
  deriving DecidableEq

def Ending.bytes : Ending → List UInt8
  | .nothing => []
  | .cr => [13]
  | .crlf => [13, 10]

/-- Lines with line ends between them. -/
structure HeaderBlock where
  init : List HeaderLine
  last : HeaderLine
  ending : Ending

def ended (lines : List HeaderLine) : List UInt8 :=
  lines.flatMap (fun line => line.bytes ++ [13, 10])

namespace HeaderBlock

def lines (block : HeaderBlock) : List HeaderLine := block.init ++ [block.last]

def bytes (block : HeaderBlock) : List UInt8 :=
  ended block.init ++ (block.last.bytes ++ block.ending.bytes)

/-- A line with the property begins at the place. -/
def StartsAt (block : HeaderBlock) (property : List UInt8) (i : Nat) : Prop :=
  ∃ front line back, block.lines = front ++ line :: back ∧ line.Named property ∧
    i = (ended front).length

/-- The first line with the property. -/
def firstNamed (block : HeaderBlock) (property : List UInt8) : Option HeaderLine :=
  block.lines.find? (·.Named property)

/-- The value is that of the first line with the property, there is one if such a line has a value,
and nothing but such a line was taken for the property. -/
structure Parses (block : HeaderBlock) (property : List UInt8) (parsed : Parsed) : Prop where
  value : ∀ v, parsed.value = some v → (block.firstNamed property).map HeaderLine.value = some v
  none_iff : parsed.value = none ↔
    ∀ line ∈ block.lines, line.Named property → line.value = []
  place : ∀ i, parsed.matched = some i → block.StartsAt property i

/-- Nothing that looks like the property, but for its last character, stands before the first line
with it. This line has a value and an end, or there is no value at all. -/
structure Plain (block : HeaderBlock) (property : List UInt8) : Prop where
  inLine : ∀ i, Candidate property (block.bytes.drop i) →
    ∃ j, j ≤ i ∧ block.StartsAt property j
  first : ∀ line, block.firstNamed property = some line →
    (line.value ≠ [] ∧ (block.ending ≠ .nothing ∨ ∃ l ∈ block.init, l.Named property)) ∨
      ∀ l ∈ block.lines, l.Named property → l.value = []

end HeaderBlock

/-! ## Places in a header -/

theorem firstCandidate_some {i : Nat} (hi : firstCandidate property h s = some i) :
    h ≤ i ∧ Candidate property (s.drop (i - h)) ∧
      ∀ j, h ≤ j → j < i → ¬ Candidate property (s.drop (j - h)) := by
  induction s generalizing h with
  | nil => exact absurd hi.symm (Option.some_ne_none i)
  | cons c s ih =>
    unfold firstCandidate at hi
    split_ifs at hi with hc
    · obtain rfl := Option.some.inj hi
      rw [Nat.sub_self]
      exact ⟨Nat.le_refl _, hc, fun j hle hlt => absurd hle (Nat.not_le.mpr hlt)⟩
    · obtain ⟨hle, hcandidate, hbefore⟩ := ih hi
      have hdrop : ∀ j, h + 1 ≤ j → (c :: s).drop (j - h) = s.drop (j - (h + 1)) := by
        intro j hj
        rw [show j - h = (j - (h + 1)) + 1 by omega, List.drop_succ_cons]
      refine ⟨by omega, hdrop i hle ▸ hcandidate, ?_⟩
      intro j hj hlt
      by_cases hsame : j = h
      · rw [hsame, Nat.sub_self]
        exact hc
      · rw [hdrop j (by omega)]
        exact hbefore j (by omega) hlt

theorem firstCandidate_none (hnone : firstCandidate property h s = none) (i : Nat) :
    ¬ Candidate property (s.drop i) := by
  induction s generalizing h i with
  | nil =>
    rw [List.drop_nil]
    exact fun hcandidate => absurd hcandidate.2.2 (Nat.not_lt_zero _)
  | cons c s ih =>
    unfold firstCandidate at hnone
    split_ifs at hnone with hc
    cases i with
    | zero => exact hc
    | succ i => exact ih hnone i

/-- What `nutParseProperty` finds is what is behind the first place that it takes. -/
theorem nutParseProperty_eq (hproperty : property ≠ []) (s : List UInt8) (h : Nat) :
    nutParseProperty property s = (firstCandidate property h s).bind fun i =>
      propertyValue (s.drop (i - h + property.length)) := by
  induction s generalizing h with
  | nil => rfl
  | cons c s ih =>
    have hnext : nutParseProperty property s =
        (firstCandidate property (h + 1) s).bind fun i =>
          propertyValue ((c :: s).drop (i - h + property.length)) := by
      rw [ih (h + 1)]
      cases hi : firstCandidate property (h + 1) s with
      | none => rfl
      | some i =>
        obtain ⟨hle, -⟩ := firstCandidate_some hi
        have hplace : i - h + property.length = (i - (h + 1) + property.length) + 1 := by omega
        rw [Option.bind_some, Option.bind_some, hplace, List.drop_succ_cons]
    by_cases hhead : toLower c = toLower (property.headD 0)
    · rw [nutParseProperty_cons hproperty hhead, firstCandidate]
      by_cases hc : Candidate property (c :: s)
      · rw [if_pos hc, if_pos hc, Option.bind_some, Nat.sub_self, Nat.zero_add]
      · rw [if_neg hc, if_neg hc]
        exact hnext
    · rw [nutParseProperty, if_pos hhead, firstCandidate,
        if_neg (fun hc => hhead ((head_iff hproperty c s).mp hc.1))]
      exact hnext

/-! ## Lines with the property -/

variable {block : HeaderBlock} {line : HeaderLine} {lines back : List HeaderLine}

theorem ended_append (lines more : List HeaderLine) :
    ended (lines ++ more) = ended lines ++ ended more := List.flatMap_append

/-- What stands at the start of a line: the line, and behind it a line end or nothing. -/
theorem drop_line {front : List HeaderLine} (hlines : block.lines = front ++ line :: back) :
    ∃ after, block.bytes.drop (ended front).length = line.bytes ++ after ∧
      (after = [] ↔ back = [] ∧ block.ending = .nothing) ∧
        (after = [] ∨ after.head? = some 13) := by
  unfold HeaderBlock.lines at hlines
  unfold HeaderBlock.bytes
  rcases List.eq_nil_or_concat back with rfl | ⟨more, last, rfl⟩
  · obtain ⟨rfl, hlast⟩ := List.append_inj' hlines rfl
    obtain rfl := (List.cons.inj hlast).1
    refine ⟨block.ending.bytes, List.drop_left, ?_, ?_⟩
    · cases block.ending with
      | nothing => simp [Ending.bytes]
      | cr => simp [Ending.bytes]
      | crlf => simp [Ending.bytes]
    · cases block.ending with
      | nothing => exact Or.inl rfl
      | cr => exact Or.inr rfl
      | crlf => exact Or.inr rfl
  · have hsplit : block.init ++ [block.last] = (front ++ line :: more) ++ [last] := by
      rw [hlines, List.concat_eq_append, List.append_assoc, List.cons_append]
    obtain ⟨hinit, -⟩ := List.append_inj' hsplit rfl
    refine ⟨[13, 10] ++ (ended more ++ (block.last.bytes ++ block.ending.bytes)), ?_, ?_, ?_⟩
    · rw [hinit, ended_append, List.append_assoc, List.drop_left]
      simp [ended]
    · simp
    · exact Or.inr rfl

theorem named_parts (hnamed : line.Named property) : ∃ name more,
    line.bytes = name ++ 58 :: more ∧ name.map toLower = property.map toLower ∧
      line.value = more.dropWhile (· = 32) := by
  obtain ⟨hcolon, hname⟩ := hnamed
  obtain ⟨name, more, hsplit, hfront⟩ := List.eq_append_cons_of_mem hcolon
  unfold HeaderLine.value
  rw [hsplit] at hname ⊢
  rw [takeWhile_ne_cut hfront] at hname
  rw [dropWhile_ne_cut hfront]
  exact ⟨name, more, rfl, hname, rfl⟩

theorem candidate_named (hproperty : property ≠ []) (hnamed : line.Named property)
    (after : List UInt8) : Candidate property (line.bytes ++ after) := by
  obtain ⟨name, more, hline, hname, -⟩ := named_parts hnamed
  have hlength : name.length = property.length := by
    simpa using congrArg List.length hname
  rw [hline, List.append_assoc]
  refine ⟨?_, ?_, ?_⟩
  · rw [List.map_append, hname]
    cases property with
    | nil => exact absurd rfl hproperty
    | cons d property => rfl
  · rw [List.map_append, hname]
    exact ((List.dropLast_prefix property).map toLower).trans (List.prefix_append _ _)
  · rw [List.length_append, List.length_append, List.length_cons]
    omega

theorem dropWhile_append_stop {P : UInt8 → Bool} {c : UInt8} (hc : P c = false)
    (l rest : List UInt8) :
    (l ++ c :: rest).dropWhile P = l.dropWhile P ++ c :: rest := by
  induction l with
  | nil => rw [List.nil_append, List.dropWhile_cons_of_neg (by rw [hc]; decide)]; rfl
  | cons d l ih =>
    rw [List.cons_append]
    by_cases hd : P d = true
    · rw [List.dropWhile_cons_of_pos hd, List.dropWhile_cons_of_pos hd, ih]
    · rw [List.dropWhile_cons_of_neg hd, List.dropWhile_cons_of_neg hd, List.cons_append]

theorem propertyValue_line (hnamed : line.Named property) {after : List UInt8}
    (hafter : after = [] ∨ after.head? = some 13) :
    propertyValue ((line.bytes ++ after).drop property.length) =
      if after = [] ∨ line.value = [] then none else some line.value := by
  obtain ⟨name, more, hline, hname, hvalue⟩ := named_parts hnamed
  have hlength : name.length = property.length := by
    simpa using congrArg List.length hname
  have hnoEnd : ∀ c ∈ line.value, c ≠ 13 ∧ c ≠ 10 := by
    intro c hc
    rw [hvalue] at hc
    apply line.noEnd c
    rw [hline]
    exact List.mem_append_right _ (List.mem_cons_of_mem _ ((List.dropWhile_suffix _).subset hc))
  have hdrop : (line.bytes ++ after).drop property.length = 58 :: (more ++ after) := by
    rw [hline, List.append_assoc, ← hlength, List.drop_left]
    rfl
  have hcolon : (58 :: (more ++ after)).dropWhile (· = 32) = 58 :: (more ++ after) :=
    List.dropWhile_cons_of_neg (by decide)
  unfold propertyValue
  rw [hdrop, hcolon]
  dsimp only
  rcases hafter with rfl | hafter
  · rw [if_pos (Or.inl rfl), List.append_nil, ← hvalue]
    have hall : line.value.takeWhile (fun c => decide (c ≠ 13 ∧ c ≠ 10)) = line.value :=
      List.takeWhile_eq_self_iff.mpr (fun c hc => decide_eq_true (hnoEnd c hc))
    split_ifs with h₁ h₂
    · rfl
    · rfl
    · exact absurd (Or.inl (congrArg List.length hall)) h₂
  · cases after with
    | nil => exact absurd hafter.symm (Option.some_ne_none 13)
    | cons d rest =>
      obtain rfl : d = 13 := Option.some.inj hafter
      have htext : (more ++ 13 :: rest).dropWhile (· = 32) = line.value ++ 13 :: rest := by
        rw [hvalue]
        exact dropWhile_append_stop (by decide) more rest
      have htake : (line.value ++ 13 :: rest).takeWhile (fun c => decide (c ≠ 13 ∧ c ≠ 10)) =
          line.value := takeWhile_cut (P := fun c => c ≠ 13 ∧ c ≠ 10) hnoEnd (by decide) rest
      rw [if_neg (by simp), htext, htake]
      have hlonger : line.value.length ≠ (line.value ++ 13 :: rest).length := by
        rw [List.length_append, List.length_cons]
        omega
      simp only [hlonger, false_or, List.cons_ne_nil]

/-- Two lines with the property, of which none stands in front of the first. -/
theorem ended_le {front front' back' : List HeaderLine} {line' : HeaderLine}
    (hsplit : front ++ line :: back = front' ++ line' :: back')
    (hfront : ∀ l ∈ front, ¬ l.Named property) (hnamed : line'.Named property)
    (hle : (ended front').length ≤ (ended front).length) : front' = front := by
  rcases List.append_eq_append_iff.mp hsplit with ⟨gap, rfl, hgap⟩ | ⟨gap, rfl, hgap⟩
  · cases gap with
    | nil => exact List.append_nil front
    | cons l gap =>
      have hpos : 0 < (ended (l :: gap)).length := by
        unfold ended
        rw [List.flatMap_cons]
        simp only [List.length_append, List.length_cons]
        omega
      rw [ended_append, List.length_append] at hle
      omega
  · cases gap with
    | nil => exact (List.append_nil front').symm
    | cons l gap =>
      obtain ⟨rfl, -⟩ := List.cons.inj hgap
      exact absurd hnamed (hfront line' (List.mem_append_right _ List.mem_cons_self))

theorem firstCandidate_named (hproperty : property ≠ [])
    (hin : ∀ i, Candidate property (block.bytes.drop i) → ∃ j, j ≤ i ∧ block.StartsAt property j) :
    (block.firstNamed property = none ∧ firstCandidate property 0 block.bytes = none) ∨
      ∃ front line back, block.lines = front ++ line :: back ∧ line.Named property ∧
        (∀ l ∈ front, ¬ l.Named property) ∧ block.firstNamed property = some line ∧
        firstCandidate property 0 block.bytes = some (ended front).length := by
  cases hfirst : block.firstNamed property with
  | none =>
    refine Or.inl ⟨rfl, ?_⟩
    cases hplace : firstCandidate property 0 block.bytes with
    | none => rfl
    | some i =>
      obtain ⟨-, hcandidate, -⟩ := firstCandidate_some hplace
      obtain ⟨j, -, front, line, back, hlines, hnamed, -⟩ := hin i hcandidate
      have hno := List.find?_eq_none.mp hfirst line (by rw [hlines]; simp)
      exact absurd (decide_eq_true hnamed) hno
  | some line =>
    obtain ⟨hnamed, front, back, hlines, hfront⟩ := List.find?_eq_some_iff_append.mp hfirst
    have hnone : ∀ l ∈ front, ¬ l.Named property := fun l hl h => by
      have hl' := hfront l hl
      rw [decide_eq_true h] at hl'
      exact absurd hl' (by decide)
    refine Or.inr ⟨front, line, back, hlines, of_decide_eq_true hnamed, hnone, rfl, ?_⟩
    obtain ⟨after, hdrop, -, -⟩ := drop_line hlines
    have hhere : Candidate property (block.bytes.drop (ended front).length) := by
      rw [hdrop]
      exact candidate_named hproperty (of_decide_eq_true hnamed) after
    cases hplace : firstCandidate property 0 block.bytes with
    | none => exact absurd hhere (firstCandidate_none hplace _)
    | some i =>
      obtain ⟨-, hcandidate, hbefore⟩ := firstCandidate_some hplace
      obtain ⟨j, hj, front', line', back', hlines', hnamed', rfl⟩ := hin i hcandidate
      have hi : i ≤ (ended front).length := by
        apply Nat.le_of_not_lt
        exact fun hlt => hbefore _ (Nat.zero_le _) hlt hhere
      obtain rfl := ended_le (hlines.symm.trans hlines') hnone hnamed' (hj.trans hi)
      rw [Nat.le_antisymm hi hj]

/-- What is taken for the property is a line with it when nothing else could be. -/
theorem place_iff (hproperty : property ≠ []) :
    (∀ i, firstCandidate property 0 block.bytes = some i → block.StartsAt property i) ↔
      ∀ i, Candidate property (block.bytes.drop i) →
        ∃ j, j ≤ i ∧ block.StartsAt property j := by
  constructor
  · intro hplace i hcandidate
    cases hfirst : firstCandidate property 0 block.bytes with
    | none => exact absurd hcandidate (firstCandidate_none hfirst i)
    | some j =>
      refine ⟨j, ?_, hplace j hfirst⟩
      obtain ⟨-, -, hbefore⟩ := firstCandidate_some hfirst
      apply Nat.le_of_not_lt
      exact fun hlt => hbefore i (Nat.zero_le _) hlt hcandidate
  · intro hin i hi
    rcases firstCandidate_named hproperty hin with
      ⟨-, hnone⟩ | ⟨front, line, back, hlines, hnamed, -, -, hsome⟩
    · exact absurd (hnone.symm.trans hi) (Option.some_ne_none i).symm
    · obtain rfl := Option.some.inj (hsome.symm.trans hi)
      exact ⟨front, line, back, hlines, hnamed, rfl⟩

theorem value_named (hproperty : property ≠ [])
    (hin : ∀ i, Candidate property (block.bytes.drop i) → ∃ j, j ≤ i ∧ block.StartsAt property j) :
    (block.firstNamed property = none ∧ nutParseProperty property block.bytes = none) ∨
      ∃ line ∈ block.lines, line.Named property ∧ block.firstNamed property = some line ∧
        nutParseProperty property block.bytes =
          if (block.ending = .nothing ∧ ∀ l ∈ block.init, ¬ l.Named property) ∨ line.value = []
            then none else some line.value := by
  rw [nutParseProperty_eq hproperty block.bytes 0]
  rcases firstCandidate_named hproperty hin with
    ⟨hnone, hplace⟩ | ⟨front, line, back, hlines, hnamed, hfront, hfirst, hplace⟩
  · rw [hplace]
    exact Or.inl ⟨hnone, rfl⟩
  · obtain ⟨after, hdrop, hempty, hafter⟩ := drop_line hlines
    refine Or.inr ⟨line, by rw [hlines]; simp, hnamed, hfirst, ?_⟩
    have hends : after = [] ↔ block.ending = .nothing ∧ ∀ l ∈ block.init, ¬ l.Named property := by
      rw [hempty, and_comm]
      apply and_congr_right
      intro _
      unfold HeaderBlock.lines at hlines
      rcases List.eq_nil_or_concat back with rfl | ⟨more, last, rfl⟩
      · obtain ⟨hinit, -⟩ := List.append_inj' hlines rfl
        rw [hinit]
        exact iff_of_true rfl hfront
      · have hsplit : block.init ++ [block.last] = (front ++ line :: more) ++ [last] := by
          rw [hlines, List.concat_eq_append, List.append_assoc, List.cons_append]
        obtain ⟨hinit, -⟩ := List.append_inj' hsplit rfl
        rw [hinit]
        refine iff_of_false (by simp) (fun hno => hno line (by simp) hnamed)
    rw [hplace, Option.bind_some, Nat.sub_zero, ← List.drop_drop, hdrop,
      propertyValue_line hnamed hafter]
    simp only [hends]

theorem parses_iff (hproperty : property ≠ []) :
    block.Parses property ⟨firstCandidate property 0 block.bytes,
      nutParseProperty property block.bytes⟩ ↔ block.Plain property := by
  constructor
  · intro h
    have hin := (place_iff hproperty).mp h.place
    refine ⟨hin, fun line hfirst => ?_⟩
    rcases value_named hproperty hin with ⟨hnone, -⟩ | ⟨line', hmem, hnamed, hfirst', hvalue⟩
    · exact absurd (hnone.symm.trans hfirst) (Option.some_ne_none line).symm
    · obtain rfl := Option.some.inj (hfirst'.symm.trans hfirst)
      by_cases hno : (block.ending = .nothing ∧ ∀ l ∈ block.init, ¬ l.Named property) ∨
          line'.value = []
      · rw [if_pos hno] at hvalue
        exact Or.inr (h.none_iff.mp hvalue)
      · refine Or.inl ⟨fun hempty => hno (Or.inr hempty), ?_⟩
        by_contra hends
        apply hno
        simp only [not_or, not_exists, not_and, ne_eq, not_not] at hends
        exact Or.inl hends
  · intro h
    have hplace := (place_iff hproperty).mpr h.inLine
    rcases value_named hproperty h.inLine with
      ⟨hnone, hvalue⟩ | ⟨line, hmem, hnamed, hfirst, hvalue⟩
    · refine ⟨fun v hv => ?_, iff_of_true hvalue (fun l hl hnamed => ?_), hplace⟩
      · exact absurd (hvalue.symm.trans hv) (Option.some_ne_none v).symm
      · exact absurd (decide_eq_true hnamed) (List.find?_eq_none.mp hnone l hl)
    · refine ⟨fun v hv => ?_, ⟨fun hv => ?_, fun hempty => ?_⟩, hplace⟩
      · change nutParseProperty property block.bytes = some v at hv
        rw [hvalue] at hv
        split_ifs at hv
        rw [hfirst, ← hv]
        rfl
      · rcases h.first line hfirst with ⟨hvalued, hends⟩ | hempty
        · change nutParseProperty property block.bytes = none at hv
          rw [hvalue, if_neg ?_] at hv
          · exact absurd hv (Option.some_ne_none _)
          · rintro (⟨hnothing, hno⟩ | hempty)
            · rcases hends with hends | ⟨l, hl, hl'⟩
              · exact hends hnothing
              · exact hno l hl hl'
            · exact hvalued hempty
        · exact hempty
      · change nutParseProperty property block.bytes = none
        rw [hvalue, if_pos (Or.inr (hempty line hmem hnamed))]

/-- The function stays within the header, and finds what it should unless something else looks
like the property or the first line with it has no value. -/
theorem parseProperty_iff (block : HeaderBlock) {property : List UInt8} (hproperty : property ≠ [])
    (beyond : List UInt8) :
    (parsePropertyReads (block.bytes ++ beyond) block.bytes.length property).Within
        block.bytes.length ∧
      (block.Parses property
          (parsePropertyReads (block.bytes ++ beyond) block.bytes.length property).value ↔
        block.Plain property) := by
  obtain ⟨hwithin, hvalue⟩ := parsePropertyReads_spec hproperty block.bytes beyond
  rw [hvalue]
  exact ⟨hwithin, parses_iff hproperty⟩

/-- The line with the length of a file of five bytes, behind the one that begins the answer. -/
theorem parseProperty_iff_length :
    let status : HeaderLine := ⟨[72, 84, 84, 80, 32, 50, 48, 48, 32, 79, 75], by simp⟩
    let length : HeaderLine := ⟨nutLength ++ [58, 32, 53], by simp [nutLength]⟩
    let block : HeaderBlock := ⟨[status], length, .cr⟩
    (parsePropertyReads (block.bytes ++ [10, 13, 10]) block.bytes.length nutLength).Within
        block.bytes.length ∧
      (block.Parses nutLength
          (parsePropertyReads (block.bytes ++ [10, 13, 10]) block.bytes.length nutLength).value ↔
        block.Plain nutLength) := by
  intro status length block
  exact parseProperty_iff block (by decide) [10, 13, 10]

/-- The length of something else, in front of the one that is looked for. -/
theorem otherLength_not_parses :
    let other : HeaderLine := ⟨[88, 45] ++ nutLength ++ [58, 32, 53], by simp [nutLength]⟩
    let length : HeaderLine := ⟨nutLength ++ [58, 32, 55], by simp [nutLength]⟩
    let block : HeaderBlock := ⟨[other], length, .cr⟩
    ¬ block.Parses nutLength
      (parsePropertyReads (block.bytes ++ [10, 13, 10]) block.bytes.length nutLength).value := by
  intro other length block hparses
  have hspec := (parsePropertyReads_spec (by decide : nutLength ≠ []) block.bytes [10, 13, 10]).2
  rw [hspec] at hparses
  have hfound : nutParseProperty nutLength block.bytes = some [53] := by decide
  have hfirst : (block.firstNamed nutLength).map HeaderLine.value = some [55] := by decide
  have hvalue := hparses.value [53] hfound
  rw [hfirst] at hvalue
  exact absurd hvalue (by decide)

end Serveez.Nut
