import Serveez.Irc.ParseLine

/-!
# What is stored of the configuration lines

`irc_init` and `irc_parse_config_lines` let `irc_parse_line` store the fields of a line in some
buffers, which are the same for all lines, and in a structure that was just allocated. What was in
this memory before is there until it is stored over.

* `parse_agree`: a line that is read to its last field leaves nothing of it.
* `parseConfigLines_agree`: the configuration does not depend on it.
* `configLines_iff`: what holds of all lines, and of which the values are right.
-/

namespace Serveez.Irc

open Lib

/-! ## Memory -/

/-- The strings in the buffers, and the numbers in the structure of the line. -/
structure Memory where
  tmp : Nat → List UInt8
  ints : Nat → Int

/-- Where a value goes. -/
inductive Dest
  | tmp (i : Nat)
  | int (i : Nat)
  deriving DecidableEq

namespace Memory

def get (mem : Memory) : Dest → LineOutput
  | .tmp i => .string (mem.tmp i)
  | .int i => .int (mem.ints i)

def store (mem : Memory) : Dest → LineOutput → Memory
  | .tmp i, .string text => { mem with tmp := Function.update mem.tmp i text }
  | .int i, .int value => { mem with ints := Function.update mem.ints i value }
  | _, _ => mem

def storeAll : Memory → List Dest → List LineOutput → Memory
  | mem, d :: dests, o :: outputs => storeAll (mem.store d o) dests outputs
  | mem, _, _ => mem

end Memory

/-! ## The lines of a kind -/

/-- How the lines of a kind are read: what is made of the memory when all values are there. -/
structure LineKind (α : Type) where
  format : LineFormat
  dests : List Dest
  build : Memory → α × Memory

variable {α : Type}

/-- One line: the memory afterwards, and what was made of the line. -/
def LineKind.parse (kind : LineKind α) (mem : Memory) (line : ConfigLine) : Option α × Memory :=
  let outputs := parseLine kind.format.items line.bytes
  let mem := mem.storeAll kind.dests outputs
  if outputs.length = conversions kind.format.items then
    let built := kind.build mem
    (some built.1, built.2)
  else (none, mem)

/-- The loop over the lines of a kind; `malloc` is what is in the structures that are going to be
allocated. -/
def LineKind.parseAll (kind : LineKind α) :
    (Nat → Nat → Int) → Memory → List ConfigLine → List α × Memory
  | _, mem, [] => ([], mem)
  | malloc, mem, line :: lines =>
    let parsed := kind.parse { mem with ints := malloc 0 } line
    let rest := kind.parseAll (fun n => malloc (n + 1)) parsed.2 lines
    (parsed.1.toList ++ rest.1, rest.2)

/-! ## The kinds -/

structure ServerEntry where
  host : Option (List UInt8)
  realhost : Option (List UInt8)
  info : Option (List UInt8)
  port : Int

structure AdminEntry where
  location1 : Option (List UInt8)
  location2 : Option (List UInt8)
  email : Option (List UInt8)

structure ClassEntry where
  nr : Int
  pingFreq : Int
  connectFreq : Int
  maxLinks : Int
  sendqSize : Int
  links : Int

structure UserEntry where
  userIp : Option (List UInt8)
  ip : Option (List UInt8)
  userHost : Option (List UInt8)
  host : Option (List UInt8)
  password : Option (List UInt8)
  cls : Int

structure OperEntry where
  user : Option (List UInt8)
  host : Option (List UInt8)
  password : Option (List UInt8)
  nick : Option (List UInt8)
  cls : Int
  isLocal : Bool

structure KillEntry where
  host : Option (List UInt8)
  user : Option (List UInt8)
  start : Int
  stop : Int

/-- `PARSE_TILL_AT` puts a zero byte in the place of the first at sign of a buffer. -/
def Memory.cutAt (mem : Memory) (i : Nat) : Memory :=
  { mem with tmp := Function.update mem.tmp i (parseTillAt (mem.tmp i)).1 }

def mKind : LineKind ServerEntry where
  format := mFormat
  dests := [.tmp 0, .tmp 1, .tmp 2, .int 0]
  build mem :=
    (⟨svzStrdup (mem.tmp 0), svzStrdup (mem.tmp 1), svzStrdup (mem.tmp 2), mem.ints 0⟩, mem)

def aKind : LineKind AdminEntry where
  format := aFormat
  dests := [.tmp 0, .tmp 1, .tmp 2]
  build mem := (⟨svzStrdup (mem.tmp 0), svzStrdup (mem.tmp 1), svzStrdup (mem.tmp 2)⟩, mem)

def yKind : LineKind ClassEntry where
  format := yFormat
  dests := [.int 0, .int 1, .int 2, .int 3, .int 4]
  build mem := (⟨mem.ints 0, mem.ints 1, mem.ints 2, mem.ints 3, mem.ints 4, 0⟩, mem)

def iKind : LineKind UserEntry where
  format := iFormat
  dests := [.tmp 0, .tmp 1, .tmp 2, .tmp 3, .int 0]
  build mem :=
    ({ userIp := svzStrdup (parseTillAt (mem.tmp 0)).1
       ip := svzStrdup (parseTillAt (mem.tmp 0)).2
       userHost := svzStrdup (parseTillAt (mem.tmp 2)).1
       host := svzStrdup (parseTillAt (mem.tmp 2)).2
       password := (svzStrdup (mem.tmp 1)).or (svzStrdup (mem.tmp 3))
       cls := mem.ints 0 }, (mem.cutAt 0).cutAt 2)

/-- The O lines, and the o lines, which have the same format. -/
def oKind (isLocal : Bool) : LineKind OperEntry where
  format := oFormat
  dests := [.tmp 0, .tmp 1, .tmp 2, .int 0]
  build mem :=
    ({ user := svzStrdup (parseTillAt (mem.tmp 0)).1
       host := svzStrdup (parseTillAt (mem.tmp 0)).2
       password := svzStrdup (mem.tmp 1)
       nick := svzStrdup (mem.tmp 2)
       cls := mem.ints 0
       isLocal := isLocal }, mem.cutAt 0)

def kKind : LineKind KillEntry where
  format := kFormat
  dests := [.tmp 0, .int 0, .int 1, .tmp 1]
  build mem := (⟨svzStrdup (mem.tmp 0), svzStrdup (mem.tmp 1), mem.ints 0, mem.ints 1⟩, mem)

/-! ## The configuration -/

structure ConfigText where
  yLine : List ConfigLine
  iLine : List ConfigLine
  oLine : List ConfigLine
  oLineLocal : List ConfigLine
  kLine : List ConfigLine

/-- The lists of `irc_config_t` that are made of the lines. -/
structure ParsedConfig where
  classes : List ClassEntry
  userAuth : List UserEntry
  operatorAuth : List OperEntry
  banned : List KillEntry

/-- `irc_parse_config_lines`: `malloc` has what is in the structures of each kind of lines. -/
def parseConfigLines (malloc : Nat → Nat → Nat → Int) (mem : Memory) (cfg : ConfigText) :
    ParsedConfig :=
  let y := yKind.parseAll (malloc 0) mem cfg.yLine
  let i := iKind.parseAll (malloc 1) y.2 cfg.iLine
  let o := (oKind false).parseAll (malloc 2) i.2 cfg.oLine
  let o' := (oKind true).parseAll (malloc 3) o.2 cfg.oLineLocal
  let k := kKind.parseAll (malloc 4) o'.2 cfg.kLine
  { classes := y.1.reverse
    userAuth := i.1.reverse
    operatorAuth := (o.1 ++ o'.1).reverse
    banned := k.1.reverse }

/-! ## What is left of the memory before -/

variable {mem mem' : Memory} {kind : LineKind α}

/-- A value that is the same before is the same afterwards. -/
theorem store_agree {d : Dest} (h : mem.get d = mem'.get d) (d' : Dest) (o : LineOutput) :
    (mem.store d' o).get d = (mem'.store d' o).get d := by
  cases d with
  | tmp i =>
    have htmp : mem.tmp i = mem'.tmp i := LineOutput.string.inj h
    cases d' with
    | int j => cases o <;> exact h
    | tmp j =>
      cases o with
      | int value => exact h
      | string text =>
        change LineOutput.string (Function.update mem.tmp j text i) =
          .string (Function.update mem'.tmp j text i)
        rw [Function.update_apply, Function.update_apply, htmp]
  | int i =>
    have hints : mem.ints i = mem'.ints i := LineOutput.int.inj h
    cases d' with
    | tmp j => cases o <;> exact h
    | int j =>
      cases o with
      | string text => exact h
      | int value =>
        change LineOutput.int (Function.update mem.ints j value i) =
          .int (Function.update mem'.ints j value i)
        rw [Function.update_apply, Function.update_apply, hints]

theorem storeAll_agree {d : Dest} (dests : List Dest) (outputs : List LineOutput)
    (h : mem.get d = mem'.get d) :
    (mem.storeAll dests outputs).get d = (mem'.storeAll dests outputs).get d := by
  induction dests generalizing mem mem' outputs with
  | nil => exact h
  | cons d' dests ih =>
    cases outputs with
    | nil => exact h
    | cons o outputs => exact ih outputs (store_agree h d' o)

/-- A string goes into a buffer, a number into the structure. -/
def Dest.Takes : Dest → LineOutput → Prop
  | .tmp _, .string _ => True
  | .int _, .int _ => True
  | _, _ => False

theorem store_get {d : Dest} {o : LineOutput} (h : d.Takes o) (mem : Memory) :
    (mem.store d o).get d = o := by
  cases d with
  | tmp i =>
    cases o with
    | int value => exact h.elim
    | string text =>
      change LineOutput.string (Function.update mem.tmp i text i) = .string text
      rw [Function.update_self]
  | int i =>
    cases o with
    | string text => exact h.elim
    | int value =>
      change LineOutput.int (Function.update mem.ints i value i) = .int value
      rw [Function.update_self]

/-- Nothing of what was there is left where values are stored. -/
theorem storeAll_get {dests : List Dest} {outputs : List LineOutput}
    (h : List.Forall₂ Dest.Takes dests outputs) (mem mem' : Memory) :
    ∀ d ∈ dests, (mem.storeAll dests outputs).get d = (mem'.storeAll dests outputs).get d := by
  induction h generalizing mem mem' with
  | nil => exact fun d hd => absurd hd List.not_mem_nil
  | @cons d o dests outputs htakes _ ih =>
    intro d' hd'
    rcases List.mem_cons.mp hd' with rfl | hd'
    · have hstored : (mem.store d' o).get d' = (mem'.store d' o).get d' := by
        rw [store_get htakes, store_get htakes]
      exact storeAll_agree dests outputs hstored
    · exact ih _ _ d' hd'

/-- The places are right for the conversions of a format. -/
def suits : List FormatItem → List Dest → Bool
  | [], [] => true
  | .char _ :: format, dests => suits format dests
  | .decimal :: format, .int _ :: dests => suits format dests
  | .string :: format, .tmp _ :: dests => suits format dests
  | _, _ => false

theorem suits_decimal {format : List FormatItem} {dests : List Dest}
    (h : suits (.decimal :: format) dests = true) :
    ∃ i rest, dests = .int i :: rest ∧ suits format rest = true := by
  cases dests with
  | nil => exact absurd h Bool.false_ne_true
  | cons d dests =>
    cases d with
    | tmp i => exact absurd h Bool.false_ne_true
    | int i => exact ⟨i, dests, rfl, h⟩

theorem suits_string {format : List FormatItem} {dests : List Dest}
    (h : suits (.string :: format) dests = true) :
    ∃ i rest, dests = .tmp i :: rest ∧ suits format rest = true := by
  cases dests with
  | nil => exact absurd h Bool.false_ne_true
  | cons d dests =>
    cases d with
    | int i => exact absurd h Bool.false_ne_true
    | tmp i => exact ⟨i, dests, rfl, h⟩

theorem suits_nil {dests : List Dest} (h : suits [] dests = true) : dests = [] := by
  cases dests with
  | nil => rfl
  | cons d dests => exact absurd h Bool.false_ne_true

/-- When all values are there, each has its place. -/
theorem takes_of_full {format : List FormatItem} {dests : List Dest}
    (hsuits : suits format dests = true) (hwf : wellFormed format = true) {line : List UInt8}
    (hfull : (parseLine format line).length = conversions format) :
    List.Forall₂ Dest.Takes dests (parseLine format line) := by
  induction format, line using parseLine.induct generalizing dests with
  | case1 => exact absurd hwf Bool.false_ne_true
  | case2 item format => exact absurd hfull (by rw [parseLine_nil]; exact (conversions_pos hwf).ne)
  | case3 format c line ih =>
    rw [parseLine, if_pos rfl] at hfull ⊢
    exact ih hsuits hwf hfull
  | case4 f format c line hne =>
    rw [parseLine, if_neg hne] at hfull
    exact absurd hfull (@conversions_pos format hwf).ne
  | case5 line hline =>
    obtain ⟨i, rest, rfl, hrest⟩ := suits_decimal hsuits
    rw [(parseLine_last hline).1, suits_nil hrest]
    exact .cons trivial .nil
  | case6 next format line hline ih =>
    obtain ⟨c, rfl, -, hformat⟩ := wellFormed_next.1 hwf
    obtain ⟨i, rest, rfl, hrest⟩ := suits_decimal hsuits
    rw [parseLine_decimal hline] at hfull ⊢
    exact .cons trivial (ih hrest hformat (Nat.add_right_cancel hfull))
  | case7 line hline =>
    obtain ⟨i, rest, rfl, hrest⟩ := suits_string hsuits
    rw [(parseLine_last hline).2, suits_nil hrest]
    exact .cons trivial .nil
  | case8 next format line hline copied =>
    rename_i ih
    obtain ⟨c, rfl, hformat⟩ := wellFormed_next.2 hwf
    obtain ⟨i, rest, rfl, hrest⟩ := suits_string hsuits
    rw [parseLine_string hline] at hfull ⊢
    exact .cons trivial (ih hrest hformat (Nat.add_right_cancel hfull))

/-- What is made of a line depends on the memory that its values go to, and all of them have a
place there. -/
structure LineKind.Determined (kind : LineKind α) : Prop where
  suits : suits kind.format.items kind.dests = true
  build : ∀ mem mem' : Memory, (∀ d ∈ kind.dests, mem.get d = mem'.get d) →
    (kind.build mem).1 = (kind.build mem').1

theorem parse_agree (h : kind.Determined) (mem mem' : Memory) (line : ConfigLine) :
    (kind.parse mem line).1 = (kind.parse mem' line).1 := by
  unfold LineKind.parse
  dsimp only
  split_ifs with hfull
  · apply congrArg some
    apply h.build
    exact storeAll_get (takes_of_full h.suits kind.format.wf hfull) mem mem'
  · rfl

theorem parseAll_agree (h : kind.Determined) (lines : List ConfigLine) :
    ∀ (malloc malloc' : Nat → Nat → Int) (mem mem' : Memory),
      (kind.parseAll malloc mem lines).1 = (kind.parseAll malloc' mem' lines).1 := by
  induction lines with
  | nil => exact fun _ _ _ _ => rfl
  | cons line lines ih =>
    intro malloc malloc' mem mem'
    unfold LineKind.parseAll
    dsimp only
    rw [parse_agree h { mem with ints := malloc 0 } { mem' with ints := malloc' 0 },
      ih (fun n => malloc (n + 1)) (fun n => malloc' (n + 1)) _
        (kind.parse { mem' with ints := malloc' 0 } line).2]

theorem get_tmp {dests : List Dest} (h : ∀ d ∈ dests, mem.get d = mem'.get d) {i : Nat}
    (hi : .tmp i ∈ dests) : mem.tmp i = mem'.tmp i := LineOutput.string.inj (h (.tmp i) hi)

theorem get_int {dests : List Dest} (h : ∀ d ∈ dests, mem.get d = mem'.get d) {i : Nat}
    (hi : .int i ∈ dests) : mem.ints i = mem'.ints i := LineOutput.int.inj (h (.int i) hi)

theorem mKind_determined : mKind.Determined where
  suits := rfl
  build mem mem' h := by
    unfold mKind at h ⊢
    dsimp only
    rw [get_tmp h (i := 0) (by decide), get_tmp h (i := 1) (by decide),
      get_tmp h (i := 2) (by decide), get_int h (i := 0) (by decide)]

theorem aKind_determined : aKind.Determined where
  suits := rfl
  build mem mem' h := by
    unfold aKind at h ⊢
    dsimp only
    rw [get_tmp h (i := 0) (by decide), get_tmp h (i := 1) (by decide),
      get_tmp h (i := 2) (by decide)]

theorem yKind_determined : yKind.Determined where
  suits := rfl
  build mem mem' h := by
    unfold yKind at h ⊢
    dsimp only
    rw [get_int h (i := 0) (by decide), get_int h (i := 1) (by decide),
      get_int h (i := 2) (by decide), get_int h (i := 3) (by decide),
      get_int h (i := 4) (by decide)]

theorem iKind_determined : iKind.Determined where
  suits := rfl
  build mem mem' h := by
    unfold iKind at h ⊢
    dsimp only
    rw [get_tmp h (i := 0) (by decide), get_tmp h (i := 1) (by decide),
      get_tmp h (i := 2) (by decide), get_tmp h (i := 3) (by decide),
      get_int h (i := 0) (by decide)]

theorem oKind_determined (isLocal : Bool) : (oKind isLocal).Determined where
  suits := rfl
  build mem mem' h := by
    unfold oKind at h ⊢
    dsimp only at h ⊢
    rw [get_tmp h (i := 0) (by decide), get_tmp h (i := 1) (by decide),
      get_tmp h (i := 2) (by decide), get_int h (i := 0) (by decide)]

theorem kKind_determined : kKind.Determined where
  suits := rfl
  build mem mem' h := by
    unfold kKind at h ⊢
    dsimp only
    rw [get_tmp h (i := 0) (by decide), get_tmp h (i := 1) (by decide),
      get_int h (i := 0) (by decide), get_int h (i := 1) (by decide)]

theorem parseConfigLines_agree (malloc malloc' : Nat → Nat → Nat → Int) (mem mem' : Memory)
    (cfg : ConfigText) : parseConfigLines malloc mem cfg = parseConfigLines malloc' mem' cfg := by
  unfold parseConfigLines
  dsimp only
  rw [ParsedConfig.mk.injEq]
  refine ⟨?_, ?_, ?_, ?_⟩
  · rw [parseAll_agree yKind_determined]
  · rw [parseAll_agree iKind_determined]
  · rw [parseAll_agree (oKind_determined false), parseAll_agree (oKind_determined true)]
  · rw [parseAll_agree kKind_determined]

/-! ## What holds of all lines -/

/-- No string is longer than its buffer, with its zero byte. -/
def StringsFit (outputs : List LineOutput) : Prop :=
  ∀ text, .string text ∈ outputs → text.length + 1 ≤ maxTmpStrlen

/-- The values of a line are right if it meets its format; for all lines the strings fit into their
buffers, and what is made of the lines of a configuration does not depend on what was in the memory
that they are read into. -/
theorem configLines_iff (format : LineFormat) (line : ConfigLine) :
    (ParsesRight format line ↔ MeetsFormat format line) ∧
      StringsFit (parseLine format.items line.bytes) ∧
      (∀ (malloc malloc' : Nat → Nat → Nat → Int) (mem mem' : Memory) (cfg : ConfigText),
        parseConfigLines malloc mem cfg = parseConfigLines malloc' mem' cfg) ∧
      ∀ (mem mem' : Memory),
        (mKind.parse mem line).1 = (mKind.parse mem' line).1 ∧
          (aKind.parse mem line).1 = (aKind.parse mem' line).1 := by
  refine ⟨parsesRight_iff format line, string_fits format.items line.bytes,
    parseConfigLines_agree, fun mem mem' => ⟨?_, ?_⟩⟩
  · exact parse_agree mKind_determined mem mem' line
  · exact parse_agree aKind_determined mem mem' line

/-- An A line that ends with an empty string. -/
theorem emptyEnd_not_parsesRight :
    ¬ ∀ (format : LineFormat) (line : ConfigLine), ParsesRight format line := by
  intro hall
  let line : ConfigLine := ⟨[65, 58, 120, 58, 121, 58], by decide⟩
  have hlaid : Laid aFormat.items line.bytes [.string [120], .string [121], .string []] :=
    .char (.char (@Laid.string [120] _ _ _ _ (by decide) (by decide)
      (@Laid.string [121] _ _ _ _ (by decide) (by decide) (.lastString (by decide)))))
  have hfull := (hall aFormat line).full_iff.mpr ⟨_, hlaid⟩
  exact absurd hfull (by decide)

end Serveez.Irc
