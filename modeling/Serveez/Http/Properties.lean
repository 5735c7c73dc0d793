import Serveez.Http.DocumentRoot
import Serveez.Lib.Block

/-!
# The properties of a request

`http_parse_property` cuts the lines behind the request line into names and values, which it puts
one after the other into an array with a `NULL` at its end. A name goes up to a colon, a value from
two bytes behind it up to the end of the line. When there is no value the name has been stored
already. `http_find_property` goes through the array in steps of two and compares no more of a name
than the key is long.

* `parseProperty_headers`: the table of a block that has values only.
* `complete_iff`: the blocks whose tables are pairs.
* `properties_right_iff`: when the table is right, and what is found in it.

A block is the list of its bytes. It ends with the line end that `http_check_request` has found.
-/

namespace Serveez.Http.Properties

open Lib

def crlf : Path := [13, 10]
def colon : UInt8 := 58

/-- `MAX_HTTP_PROPERTIES` -/
def maxHttpProperties : Nat := 32

/-- A copy of some bytes that is read as a string. -/
def cString (bytes : Path) : Path := stringOf 0 bytes

/-! ## The parser -/

/-- How far it is to a line end. -/
def eolAt : Path → Option Nat
  | [] => none
  | c :: p => if crlf <+: c :: p then some 0 else (eolAt p).map (· + 1)

/-- The loop of `http_parse_property` with so many rounds left: what it stores before the `NULL`.
A value that ends before or where it begins ends the loop. -/
def parseLoop : Nat → Path → List Path
  | 0, _ => []
  | rounds + 1, request =>
    if crlf <+: request ∨ colon ∉ request then []
    else
      let name := request.takeWhile (· ≠ colon)
      let p := request.dropWhile (· ≠ colon)
      match eolAt p with
      | none => [cString name]
      | some n =>
        if n ≤ 2 then [cString name]
        else cString name :: cString ((p.take n).drop 2) :: parseLoop rounds (p.drop (n + 2))

def httpParseProperty (request : Path) : List Path := parseLoop (maxHttpProperties - 1) request

def lower (c : UInt8) : UInt8 := if 65 ≤ c ∧ c ≤ 90 then c + 32 else c

/-- `!strncasecmp (name, key, strlen (key))` -/
def Begins (key name : Path) : Prop := key.map lower <+: name.map lower

instance (key name : Path) : Decidable (Begins key name) := inferInstanceAs (Decidable (_ <+: _))

/-- The loop of `http_find_property` from the entry `n` on: the entry that is returned, or that
there is none. It has no result if it goes past the `NULL`. -/
def findLoop (key : Path) : Nat → List Path → Option (Option Nat)
  | _, [] => some none
  | n, [name] => if Begins key name then some (some (n + 1)) else none
  | n, name :: _ :: property =>
    if Begins key name then some (some (n + 1)) else findLoop key (n + 2) property

def httpFindProperty (property : List Path) (key : Path) : Option (Option Nat) :=
  findLoop key 0 property

/-! ## What the table should be -/

/-- A line `Name: value`. -/
structure Line where
  name : Path
  value : Path
  nameOk : ∀ c ∈ name, c ≠ colon ∧ c ≠ 13 ∧ c ≠ 0
  valueOk : ∀ c ∈ value, c ≠ 13 ∧ c ≠ 0

def Line.text (l : Line) : Path := l.name ++ colon :: 32 :: (l.value ++ crlf)

/-- The entries of some pairs. -/
def entries (pairs : List (Path × Path)) : List Path := pairs.flatMap fun p => [p.1, p.2]

def Equal (key name : Path) : Prop := name.map lower = key.map lower

instance (key name : Path) : Decidable (Equal key name) := inferInstanceAs (Decidable (_ = _))

/-- The entry with the value of the first pair that has the key. -/
def firstEntry (pairs : List (Path × Path)) (key : Path) : Option Nat :=
  (pairs.findIdx? (Equal key ·.1)).map (2 * · + 1)

/-- The table has all lines of a block of lines, is made of pairs for any block, and what is found
in it is the first pair with the key. -/
structure Right (block key : Path) : Prop where
  stored : ∀ lines : List Line, lines.length < maxHttpProperties →
    block = lines.flatMap Line.text ++ crlf →
      httpParseProperty block = entries (lines.map fun l => (l.name, l.value))
  paired : ∃ pairs, httpParseProperty block = entries pairs
  found : ∀ pairs, httpParseProperty block = entries pairs →
    httpFindProperty (httpParseProperty block) key = some (firstEntry pairs key)

/-! ## When it is -/

/-- A line as the parser takes it: one byte behind the colon belongs neither to the name nor to the
value, which is not empty. -/
structure Header where
  name : Path
  sep : UInt8
  value : Path
  named : colon ∉ name ∧ ¬ crlf <+: name
  valued : value ≠ []
  oneLine : ¬ crlf <:+: colon :: sep :: (value ++ [13])

def Header.text (h : Header) : Path := h.name ++ colon :: h.sep :: (h.value ++ crlf)

def Header.pair (h : Header) : Path × Path := (cString h.name, cString h.value)

/-- A block is made of such lines and of something that ends the loop. -/
structure Made (rounds : Nat) (block : Path) (headers : List Header) : Prop where
  few : headers.length ≤ rounds
  text : ∃ tail, block = headers.flatMap Header.text ++ tail ∧
    (headers.length = rounds ∨ crlf <+: tail ∨ colon ∉ tail)

/-- All names have a value, and the first name that begins with the key is the key. -/
def Meets (block key : Path) : Prop :=
  ∃ headers, Made (maxHttpProperties - 1) block headers ∧
    ∀ h, headers.find? (Begins key ·.pair.1) = some h → Equal key h.pair.1

/-! ## Line ends -/

/-- What is in front of a line end decides whether it is the first. -/
theorem eolAt_append {front : Path} (h : ¬ crlf <:+: front ++ [13]) (back : Path) :
    eolAt (front ++ (crlf ++ back)) = some front.length := by
  induction front with
  | nil => exact if_pos (List.prefix_append crlf back)
  | cons c front ih =>
    have hhere : ¬ crlf <+: c :: (front ++ (crlf ++ back)) := by
      intro hstarts
      have hshort : (c :: front) ++ [13] <+: c :: (front ++ (crlf ++ back)) :=
        ⟨10 :: back, by simp [crlf]⟩
      exact h (List.prefix_of_prefix_length_le hstarts hshort (by simp [crlf])).isInfix
    have hrest : ¬ crlf <:+: front ++ [13] := fun hin =>
      h (hin.trans (List.suffix_cons c _).isInfix)
    rw [List.cons_append, eolAt, if_neg hhere, ih hrest]
    rfl

theorem eolAt_some {p : Path} {n : Nat} (h : eolAt p = some n) :
    ∃ front back, p = front ++ (crlf ++ back) ∧ front.length = n ∧
      ¬ crlf <:+: front ++ [13] := by
  induction p generalizing n with
  | nil => exact absurd h.symm (Option.some_ne_none n)
  | cons c p ih =>
    rw [eolAt] at h
    split at h
    · next heol =>
      obtain ⟨back, hback⟩ := heol
      obtain rfl := Option.some.inj h
      exact ⟨[], back, hback.symm, rfl, by decide⟩
    · next heol =>
      obtain ⟨m, hm, rfl⟩ := Option.map_eq_some_iff.mp h
      obtain ⟨front, back, rfl, rfl, hfirst⟩ := ih hm
      refine ⟨c :: front, back, rfl, rfl, fun hin => ?_⟩
      rcases List.infix_cons_iff.mp hin with hstarts | hin
      · refine heol (hstarts.trans ⟨10 :: back, ?_⟩)
        simp [crlf]
      · exact hfirst hin

/-! ## One round -/

variable {rounds : Nat} {request : Path}

theorem not_prefix_crlf {name : Path} (h : ¬ crlf <+: name) (rest : Path) :
    ¬ crlf <+: name ++ colon :: rest := by
  match name, h with
  | [], _ => simp [crlf, colon]
  | [c], _ => simp [crlf, colon]
  | c :: d :: name, h => simpa [crlf] using h

theorem parseLoop_stop (rounds : Nat) (h : crlf <+: request ∨ colon ∉ request) :
    parseLoop rounds request = [] := by
  cases rounds with
  | zero => rfl
  | succ rounds => exact if_pos h

/-- A round with a colon, by how far it is from there to the line end. -/
theorem parseLoop_colon (rounds : Nat) {name after : Path} (hname : colon ∉ name)
    (heol : ¬ crlf <+: name) :
    parseLoop (rounds + 1) (name ++ colon :: after) =
      match eolAt (colon :: after) with
      | none => [cString name]
      | some n =>
        if n ≤ 2 then [cString name]
        else cString name :: cString (((colon :: after).take n).drop 2) ::
          parseLoop rounds ((colon :: after).drop (n + 2)) := by
  have hgo : ¬ (crlf <+: name ++ colon :: after ∨ colon ∉ name ++ colon :: after) := by
    rintro (hstarts | hnone)
    · exact not_prefix_crlf heol after hstarts
    · exact hnone (List.mem_append_right _ List.mem_cons_self)
  rw [parseLoop, if_neg hgo]
  dsimp only
  rw [takeWhile_ne_cut hname, dropWhile_ne_cut hname]

theorem parseLoop_header (rounds : Nat) (h : Header) (rest : Path) :
    parseLoop (rounds + 1) (h.text ++ rest) =
      h.pair.1 :: h.pair.2 :: parseLoop rounds rest := by
  have htext : h.text ++ rest = h.name ++ colon :: (h.sep :: (h.value ++ (crlf ++ rest))) := by
    unfold Header.text
    simp
  have hfirst : ¬ crlf <:+: (colon :: h.sep :: h.value) ++ [13] := h.oneLine
  have heol := eolAt_append hfirst rest
  have hlength : ¬ (colon :: h.sep :: h.value).length ≤ 2 := by
    have hpos := List.length_pos_iff.mpr h.valued
    simp only [List.length_cons]
    omega
  rw [htext, parseLoop_colon rounds h.named.1 h.named.2]
  rw [List.cons_append, List.cons_append] at heol
  rw [heol]
  dsimp only
  rw [if_neg hlength]
  simp [Header.pair, crlf]

theorem parseLoop_broken (rounds : Nat) (hgo : ¬ (crlf <+: request ∨ colon ∉ request))
    (hnone : ¬ ∃ (h : Header) (rest : Path), request = h.text ++ rest) :
    ∃ name, parseLoop (rounds + 1) request = [name] := by
  have hmem : colon ∈ request := by
    by_contra hnot
    exact hgo (Or.inr hnot)
  obtain ⟨name, after, rfl, hname⟩ := List.eq_append_cons_of_mem hmem
  have heol : ¬ crlf <+: name := fun h => hgo (Or.inl (h.trans (List.prefix_append _ _)))
  refine ⟨cString name, ?_⟩
  rw [parseLoop_colon rounds hname heol]
  split
  · rfl
  · next n hn =>
    refine if_pos (Nat.le_of_not_lt fun hlong => hnone ?_)
    obtain ⟨front, back, hsplit, rfl, hfirst⟩ := eolAt_some hn
    match front, hlong, hsplit, hfirst with
    | c :: sep :: v :: value, _, hsplit, hfirst =>
      obtain ⟨rfl, rfl⟩ := List.cons_eq_cons.mp hsplit
      refine ⟨⟨name, sep, v :: value, ⟨hname, heol⟩, List.cons_ne_nil _ _, hfirst⟩, back, ?_⟩
      unfold Header.text
      simp

/-! ## All rounds -/

theorem length_entries (pairs : List (Path × Path)) :
    (entries pairs).length = 2 * pairs.length := by
  induction pairs with
  | nil => rfl
  | cons p pairs ih =>
    rw [entries, List.flatMap_cons, List.length_append, ← entries, ih, List.length_cons]
    simp only [List.length_cons, List.length_nil]
    omega

theorem entries_injective {pairs pairs' : List (Path × Path)} (h : entries pairs = entries pairs') :
    pairs = pairs' := by
  induction pairs generalizing pairs' with
  | nil =>
    cases pairs' with
    | nil => rfl
    | cons p pairs' => exact absurd h (List.cons_ne_nil _ _).symm
  | cons p pairs ih =>
    cases pairs' with
    | nil => exact absurd h (List.cons_ne_nil _ _)
    | cons q pairs' =>
      obtain ⟨hname, hrest⟩ := List.cons_eq_cons.mp h
      obtain ⟨hvalue, hrest⟩ := List.cons_eq_cons.mp hrest
      rw [ih hrest, Prod.ext hname hvalue]

/-- The table of a block that has values only. -/
theorem parseProperty_headers {headers : List Header} (h : Made rounds request headers) :
    parseLoop rounds request = entries (headers.map Header.pair) := by
  induction headers generalizing rounds request with
  | nil =>
    obtain ⟨-, tail, rfl, hfull | hstop⟩ := h
    · rw [← hfull]
      rfl
    · exact parseLoop_stop rounds hstop
  | cons head headers ih =>
    obtain ⟨hfew, tail, rfl, hend⟩ := h
    obtain ⟨rounds, rfl⟩ := Nat.exists_eq_succ_of_ne_zero (Nat.ne_of_gt (Nat.zero_lt_of_lt hfew))
    have hrest : Made rounds (headers.flatMap Header.text ++ tail) headers :=
      ⟨Nat.le_of_succ_le_succ hfew, tail, rfl, hend.imp_left Nat.succ.inj⟩
    rw [List.flatMap_cons, List.append_assoc, parseLoop_header, ih hrest]
    rfl

/-- A block is made of lines with a value, or its table has a name more. -/
theorem made_or_odd (rounds : Nat) (request : Path) :
    (∃ headers, Made rounds request headers) ∨ (parseLoop rounds request).length % 2 = 1 := by
  induction rounds generalizing request with
  | zero => exact Or.inl ⟨[], Nat.le_refl 0, request, rfl, Or.inl rfl⟩
  | succ rounds ih =>
    by_cases hstop : crlf <+: request ∨ colon ∉ request
    · exact Or.inl ⟨[], Nat.zero_le _, request, rfl, Or.inr hstop⟩
    · by_cases hheader : ∃ (h : Header) (rest : Path), request = h.text ++ rest
      · obtain ⟨h, rest, rfl⟩ := hheader
        rcases ih rest with ⟨headers, hfew, tail, rfl, hend⟩ | hodd
        · refine Or.inl ⟨h :: headers, Nat.succ_le_succ hfew, tail, ?_, ?_⟩
          · rw [List.flatMap_cons, List.append_assoc]
          · exact hend.imp_left (congrArg Nat.succ)
        · refine Or.inr ?_
          rw [parseLoop_header, List.length_cons, List.length_cons]
          omega
      · obtain ⟨name, hname⟩ := parseLoop_broken rounds hstop hheader
        exact Or.inr (hname ▸ rfl)

theorem complete_iff (request : Path) :
    (∃ pairs, httpParseProperty request = entries pairs) ↔
      ∃ headers, Made (maxHttpProperties - 1) request headers := by
  constructor
  · rintro ⟨pairs, hpairs⟩
    rcases made_or_odd (maxHttpProperties - 1) request with hmade | hodd
    · exact hmade
    · have hlength := congrArg List.length hpairs
      rw [length_entries] at hlength
      unfold httpParseProperty at hlength
      omega
  · rintro ⟨headers, hmade⟩
    exact ⟨_, parseProperty_headers hmade⟩

/-! ## A block of lines -/

theorem parseLoop_empty (rounds : Nat) {l : Line} (h : l.value = []) (rest : Path) :
    parseLoop (rounds + 1) (l.text ++ rest) = [cString l.name] := by
  have htext : l.text ++ rest = l.name ++ colon :: ([32] ++ (crlf ++ rest)) := by
    unfold Line.text
    rw [h]
    simp
  have hname : colon ∉ l.name := fun hmem => (l.nameOk _ hmem).1 rfl
  have heol : ¬ crlf <+: l.name := fun hstarts =>
    (l.nameOk 13 (hstarts.subset List.mem_cons_self)).2.1 rfl
  have hfirst : ¬ crlf <:+: [colon, 32] ++ [13] := by decide
  rw [htext, parseLoop_colon rounds hname heol]
  rw [show colon :: ([32] ++ (crlf ++ rest)) = [colon, 32] ++ (crlf ++ rest) from rfl,
    eolAt_append hfirst]
  exact if_pos (Nat.le_refl 2)

theorem not_infix_crlf {p : Path} (h : (13 : UInt8) ∉ p) : ¬ crlf <:+: p ++ [13] := by
  induction p with
  | nil => decide
  | cons c p ih =>
    rw [List.cons_append, List.infix_cons_iff]
    rintro (hstarts | hin)
    · obtain ⟨hc, -⟩ := List.cons_prefix_cons.mp hstarts
      exact h (hc ▸ List.mem_cons_self)
    · exact ih (fun hmem => h (List.mem_cons_of_mem c hmem)) hin

/-- A line with a value is one of those that the parser takes. -/
def Line.header (l : Line) (h : l.value ≠ []) : Header where
  name := l.name
  sep := 32
  value := l.value
  named := by
    constructor
    · exact fun hmem => (l.nameOk _ hmem).1 rfl
    · exact fun hstarts => (l.nameOk 13 (hstarts.subset List.mem_cons_self)).2.1 rfl
  valued := h
  oneLine := by
    refine @not_infix_crlf (colon :: 32 :: l.value) fun hmem => ?_
    rcases List.mem_cons.mp hmem with hsame | hmem
    · exact absurd hsame (by decide)
    rcases List.mem_cons.mp hmem with hsame | hmem
    · exact absurd hsame (by decide)
    · exact (l.valueOk 13 hmem).1 rfl

theorem cString_eq {bytes : Path} (h : ∀ c ∈ bytes, c ≠ 0) : cString bytes = bytes :=
  stringOf_eq_self fun hmem => h 0 hmem rfl

theorem Line.pair_header (l : Line) (h : l.value ≠ []) :
    (l.header h).pair = (l.name, l.value) := by
  unfold Header.pair Line.header
  rw [cString_eq fun c hc => (l.nameOk c hc).2.2, cString_eq fun c hc => (l.valueOk c hc).2]

theorem parseLoop_lines (rounds : Nat) {lines : List Line} (h : lines.length ≤ rounds) :
    parseLoop rounds (lines.flatMap Line.text ++ crlf) =
        entries (lines.map fun l => (l.name, l.value)) ∨
      (parseLoop rounds (lines.flatMap Line.text ++ crlf)).length % 2 = 1 := by
  induction lines generalizing rounds with
  | nil => exact Or.inl (parseLoop_stop rounds (Or.inl (List.prefix_refl crlf)))
  | cons l lines ih =>
    obtain ⟨rounds, rfl⟩ := Nat.exists_eq_succ_of_ne_zero (Nat.ne_of_gt (Nat.zero_lt_of_lt h))
    rw [List.flatMap_cons, List.append_assoc]
    by_cases hempty : l.value = []
    · rw [parseLoop_empty rounds hempty]
      exact Or.inr rfl
    · have hround : parseLoop (rounds + 1) (l.text ++ (lines.flatMap Line.text ++ crlf)) =
          l.name :: l.value :: parseLoop rounds (lines.flatMap Line.text ++ crlf) := by
        have hheader := parseLoop_header rounds (l.header hempty)
          (lines.flatMap Line.text ++ crlf)
        rw [l.pair_header hempty] at hheader
        exact hheader
      rw [Nat.succ_eq_add_one, hround]
      rcases ih rounds (Nat.le_of_succ_le_succ h) with hall | hodd
      · exact Or.inl (congrArg _ (congrArg _ hall))
      · refine Or.inr ?_
        rw [List.length_cons, List.length_cons]
        omega

/-! ## Looking up -/

theorem findLoop_entries (key : Path) (n : Nat) (pairs : List (Path × Path)) :
    findLoop key n (entries pairs) =
      some ((pairs.findIdx? (Begins key ·.1)).map (n + 2 * · + 1)) := by
  induction pairs generalizing n with
  | nil => rfl
  | cons p pairs ih =>
    have hround : findLoop key n (entries (p :: pairs)) =
        if Begins key p.1 then some (some (n + 1)) else findLoop key (n + 2) (entries pairs) := rfl
    rw [hround, ih, List.findIdx?_cons]
    by_cases hbegins : Begins key p.1
    · rw [if_pos hbegins, if_pos (decide_eq_true hbegins)]
      rfl
    · rw [if_neg hbegins, if_neg (by simpa using hbegins), Option.map_map]
      congr 2
      funext m
      simp only [Function.comp_apply]
      omega

theorem begins_of_equal {key name : Path} (h : Equal key name) : Begins key name := by
  unfold Begins
  rw [h]

theorem findIdx_iff (key : Path) (pairs : List (Path × Path)) :
    pairs.findIdx? (Begins key ·.1) = pairs.findIdx? (Equal key ·.1) ↔
      ∀ p, pairs.find? (Begins key ·.1) = some p → Equal key p.1 := by
  induction pairs with
  | nil => simp
  | cons p pairs ih =>
    rw [List.findIdx?_cons, List.findIdx?_cons]
    by_cases hbegins : Begins key p.1
    · have hfind : (p :: pairs).find? (Begins key ·.1) = some p :=
        List.find?_cons_of_pos (decide_eq_true hbegins)
      rw [hfind, if_pos (decide_eq_true hbegins)]
      by_cases hequal : Equal key p.1
      · rw [if_pos (decide_eq_true hequal)]
        refine iff_of_true rfl ?_
        rintro _ ⟨⟩
        exact hequal
      · rw [if_neg (by simpa using hequal)]
        refine iff_of_false ?_ (fun h => hequal (h p rfl))
        intro hsame
        obtain ⟨m, -, hm⟩ := Option.map_eq_some_iff.mp hsame.symm
        exact Nat.succ_ne_zero m hm
    · have hequal : ¬ Equal key p.1 := fun h => hbegins (begins_of_equal h)
      have hfind : (p :: pairs).find? (Begins key ·.1) = pairs.find? (Begins key ·.1) :=
        List.find?_cons_of_neg (by simpa using hbegins)
      rw [hfind, if_neg (by simpa using hbegins), if_neg (by simpa using hequal), ← ih]
      exact (Option.map_injective (fun _ _ => Nat.succ.inj)).eq_iff

theorem find_iff (key : Path) (pairs : List (Path × Path)) :
    httpFindProperty (entries pairs) key = some (firstEntry pairs key) ↔
      ∀ p, pairs.find? (Begins key ·.1) = some p → Equal key p.1 := by
  rw [← findIdx_iff, httpFindProperty, findLoop_entries, firstEntry]
  constructor
  · intro h
    refine Option.map_injective (f := (2 * · + 1)) (fun a b hab => ?_) ?_
    · dsimp only at hab
      omega
    · simpa using h
  · intro h
    rw [h]
    simp

/-- The table and what is found in it are right just when all names have a value and the first that
begins with the key is the key. -/
theorem properties_right_iff (block key : Path) : Right block key ↔ Meets block key := by
  constructor
  · intro h
    obtain ⟨headers, hmade⟩ := (complete_iff block).mp h.paired
    have htable := parseProperty_headers hmade
    refine ⟨headers, hmade, fun head hfind => ?_⟩
    have hfound := h.found _ htable
    rw [httpParseProperty, htable, find_iff] at hfound
    refine hfound head.pair ?_
    rw [List.find?_map]
    exact congrArg (Option.map Header.pair) hfind
  · rintro ⟨headers, hmade, hfirst⟩
    have htable := parseProperty_headers hmade
    refine ⟨fun lines hfew hblock => ?_, ⟨_, htable⟩, fun pairs hpairs => ?_⟩
    · have hlines := parseLoop_lines (maxHttpProperties - 1) (Nat.le_sub_one_of_lt hfew)
      rw [← hblock] at hlines
      rcases hlines with hall | hodd
      · exact hall
      · rw [htable, length_entries] at hodd
        omega
    · obtain rfl := entries_injective (htable.symm.trans hpairs)
      rw [hpairs, find_iff]
      intro p hp
      rw [List.find?_map] at hp
      obtain ⟨head, hhead, rfl⟩ := Option.map_eq_some_iff.mp hp
      exact hfirst head hhead

/-- The name of an empty value is left alone, and looking up another one goes past the end. -/
theorem emptyValue_not_right : ¬ Right (bytesOf "Accept: \x0d\x0a\x0d\x0a") (bytesOf "Host") := by
  intro h
  obtain ⟨pairs, hpairs⟩ := h.paired
  have htable : httpParseProperty (bytesOf "Accept: \x0d\x0a\x0d\x0a") = [bytesOf "Accept"] := by
    decide
  have hlength := congrArg List.length (htable.symm.trans hpairs)
  rw [length_entries, List.length_singleton] at hlength
  omega

end Serveez.Http.Properties
