import Serveez.Irc.Channels
import Serveez.Lib.Filling
import Mathlib.Algebra.GroupWithZero.Nat

/-!
# Message of the day and nick lists

`irc_motd_callback` keeps the lines of the message of the day in `cfg->MOTD`, an array of
`MAX_MOTD_LINES` pointers to blocks of `MOTD_LINE_LEN` bytes. A line that is longer is read in
pieces. Whether there is a place for one more line is asked after the block for it has been put
there, and the last character of each piece is cut off, whatever it is.

`irc_channel_users` appends the nicks of a channel to a buffer of `MAX_MSG_LEN` bytes.

A function whose access is outside of its array has no result.

* `motdLoop_isSome_iff`, `motdLoop_spec`: when the pieces of a file are stored, and what is stored.
* `ircMotdCallback_isSome_iff`: when all accesses are in the arrays.
* `ircChannelUsers_isSome_iff`: the same for a list of nicks.
-/

namespace Serveez.Irc.ReplyBuffers

open Lib
open Channels (maxMsgLen strcat strcat_eq_some strcat_strcat modeVoice)

/-! ## The message of the day -/

/-- `MAX_MOTD_LINES` -/
def maxMotdLines : Nat := 256

/-- `MOTD_LINE_LEN` -/
def motdLineLen : Nat := 80

abbrev MotdLine : Type := Block UInt8 motdLineLen

/-- `MOTD`, where `none` is a pointer to nothing. -/
abbrev Motd : Type := Block (Option MotdLine) maxMotdLines

structure MotdConfig where
  motd : Motd
  motds : Nat
  lastModified : Int

/-- What `stat` and `fopen` find; a file need not be readable. -/
structure MotdFile where
  mtime : Int
  contents : Option (List UInt8)

inductive MotdReply
  | noMotd
  | modified (time : Int)
  | start
  | line (text : List UInt8)
  | ending

/-- `fgets` for a file: as many bytes as leave room for the terminator, up to the end of a line. -/
def fgets (size : Nat) (file : List UInt8) : Option (List UInt8 × List UInt8) :=
  if file = [] then none
  else
    let n := min ((file.takeWhile (· ≠ 10)).length + 1) (size - 1)
    some (file.take n, file.drop n)

/-- The texts of that many calls of `fgets`. -/
def fgetsTexts : Nat → List UInt8 → List (List UInt8)
  | 0, _ => []
  | calls + 1, file =>
    match fgets motdLineLen file with
    | none => []
    | some (text, rest) => text :: fgetsTexts calls rest

/-- The texts of all calls of `fgets` until there is nothing left. -/
def motdTexts (file : List UInt8) : List (List UInt8) := fgetsTexts file.length file

/-- `cfg->MOTD[n] = line` -/
def store (motd : Motd) (n : Nat) (line : Option MotdLine) : Option Motd :=
  if n < maxMotdLines then some (motd.set n line) else none

/-- `cfg->MOTD[n]`, to use the block there. -/
def lineAt (motd : Motd) (n : Nat) : Option MotdLine := (motd.cells[n]?).join

/-- `line[strlen (line) - 1] = '\0'` -/
def cutLine (line : MotdLine) : Option MotdLine :=
  match (line.string 0).length with
  | 0 => none
  | last + 1 => some (line.set last 0)

/-- The loop over the texts of `fgets`; `fresh` is what is in the blocks of `svz_malloc`. -/
def motdLoop (fresh : Nat → MotdLine) : List (List UInt8) → Nat → Motd → Option (Motd × Nat)
  | [], n, motd => (lineAt motd n).map fun _ => (motd, n)
  | text :: texts, n, motd =>
    (lineAt motd n).bind fun line =>
    (line.strcpy 0 text).bind fun line =>
    if n < maxMotdLines then
      (cutLine line).bind fun line =>
      (store (motd.set n (some line)) (n + 1) (some (fresh (n + 1)))).bind fun motd =>
      motdLoop fresh texts (n + 1) motd
    else some (motd.set n (some line), n)

/-- The part of `irc_motd_callback` that reads the file, with the number of lines. -/
def readMotd (fresh : Nat → MotdLine) (motd : Motd) (file : List UInt8) : Option (Motd × Nat) :=
  (store motd 0 (some (fresh 0))).bind fun motd =>
  (motdLoop fresh (motdTexts file) 0 motd).bind fun read =>
  (store read.1 read.2 none).map fun motd => (motd, read.2)

/-- The blocks up to `n` are freed. -/
def freeMotd (motd : Motd) (n : Nat) : Option Motd :=
  (List.range n).foldlM (fun motd i => (lineAt motd i).bind fun _ => store motd i none) motd

/-- The string in a line, if it ends there. -/
def lineText (line : MotdLine) : Option (List UInt8) :=
  if 0 ∈ line.cells then some (line.string 0) else none

/-- The replies with the lines. -/
def sendMotd (cfg : MotdConfig) : Option (MotdConfig × List MotdReply) :=
  if cfg.motds = 0 then some (cfg, [])
  else
    ((List.range cfg.motds).mapM fun n => (lineAt cfg.motd n).bind lineText).map fun lines =>
      (cfg, .modified cfg.lastModified :: .start :: lines.map .line ++ [.ending])

/-- `irc_motd_callback` -/
def ircMotdCallback (fresh : Nat → MotdLine) (cfg : MotdConfig) (stat : Option MotdFile) :
    Option (MotdConfig × List MotdReply) :=
  match stat with
  | none => some (cfg, [.noMotd])
  | some buf =>
    if cfg.lastModified < buf.mtime then
      let cfg := { cfg with lastModified := buf.mtime }
      match buf.contents with
      | none => some (cfg, [])
      | some file =>
        (freeMotd cfg.motd cfg.motds).bind fun motd =>
        (readMotd fresh motd file).bind fun read =>
        sendMotd { cfg with motd := read.1, motds := read.2 }
    else sendMotd cfg

/-- The configuration before the first call. -/
def MotdConfig.initial : MotdConfig := ⟨Block.replicate _ none, 0, 0⟩

/-- The configurations that calls can come to. -/
inductive Reachable : MotdConfig → Prop
  | initial : Reachable .initial
  | call {cfg cfg' : MotdConfig} {replies : List MotdReply} (fresh : Nat → MotdLine)
      (stat : Option MotdFile) (hcfg : Reachable cfg)
      (hcall : ircMotdCallback fresh cfg stat = some (cfg', replies)) : Reachable cfg'

/-- A file has fewer pieces than there are places, and none of them begins with a zero. -/
structure MotdFits (file : List UInt8) : Prop where
  count : (motdTexts file).length < maxMotdLines
  start : ∀ text ∈ motdTexts file, text.head? ≠ some 0

/-- Each of the lines has a block with a string in it. -/
structure Held (cfg : MotdConfig) : Prop where
  motds_le : cfg.motds ≤ maxMotdLines
  line : ∀ n < cfg.motds, ∃ line, lineAt cfg.motd n = some line ∧ line.Terminated 0

/-! ## The nicks of a channel -/

/-- A client of a channel, with its flag in the channel; `invisible` is `UMODE_INVISIBLE`. -/
structure Member where
  id : Nat
  invisible : Bool
  nick : List UInt8
  cflag : UInt32

/-- `irc_client_in_channel` -/
def ircClientInChannel (client : Nat) (members : List Member) : Option Nat :=
  (members.map Member.id).idxOf? client

/-- The loop of `irc_channel_users`; `inside` is whether the client that asks is in the channel. -/
def usersLoop (inside : Bool) : List UInt8 → List Member → Option (List UInt8)
  | nicklist, [] => some nicklist
  | nicklist, cl :: members =>
    if cl.invisible = false ∧ inside = true then
      (if cl.cflag &&& modeOperator ≠ 0 then strcat nicklist [64]
        else if cl.cflag &&& modeVoice ≠ 0 then strcat nicklist [43]
        else some nicklist).bind fun nicklist =>
      (strcat nicklist cl.nick).bind fun nicklist =>
      (strcat nicklist [32]).bind fun nicklist =>
      usersLoop inside nicklist members
    else usersLoop inside nicklist members

/-- `irc_channel_users`, with the buffer that the reply is printed from. -/
def ircChannelUsers (client : Nat) (members : List Member) : Option (List UInt8) :=
  usersLoop (ircClientInChannel client members).isSome [] members

/-- The sign in front of a nick. -/
def nickSign (cflag : UInt32) : List UInt8 :=
  if cflag &&& modeOperator ≠ 0 then [64] else if cflag &&& modeVoice ≠ 0 then [43] else []

/-- The clients that can be seen. -/
def visible (members : List Member) : List Member := members.filter (!·.invisible)

/-- What the signs and nicks of those that can be seen take up, with a space behind each, if the
client that asks is one of the members. -/
def listedLength (client : Nat) (members : List Member) : Nat :=
  if ∃ cl ∈ members, cl.id = client then
    ((visible members).map fun cl => (nickSign cl.cflag).length + cl.nick.length + 1).sum
  else 0

/-! ## The pieces of a file -/

theorem fgets_spec {size : Nat} {file text rest : List UInt8} (hsize : 1 < size)
    (h : fgets size file = some (text, rest)) :
    text ++ rest = file ∧ text ≠ [] ∧ text.length < size := by
  unfold fgets at h
  split at h
  · cases h
  · rename_i hne
    cases h
    have hpos : 0 < file.length := List.length_pos_of_ne_nil hne
    refine ⟨List.take_append_drop _ _, ?_, ?_⟩
    · apply List.ne_nil_of_length_pos
      rw [List.length_take]
      omega
    · rw [List.length_take]
      omega

theorem mem_fgetsTexts {calls : Nat} {file text : List UInt8} (h : text ∈ fgetsTexts calls file) :
    text ≠ [] ∧ text.length < motdLineLen := by
  induction calls generalizing file with
  | zero => cases h
  | succ calls ih =>
    rw [fgetsTexts] at h
    split at h
    · cases h
    · rename_i first rest hsome
      rcases List.mem_cons.mp h with rfl | h
      · exact (fgets_spec (by decide) hsome).2
      · exact ih h

/-- Empty lines are pieces of one character. -/
theorem motdTexts_lines (n : Nat) : motdTexts (List.replicate n 10) = List.replicate n [10] := by
  have hcalls : ∀ calls, fgetsTexts calls (List.replicate calls 10) =
      List.replicate calls [10] := by
    intro calls
    induction calls with
    | zero => rfl
    | succ calls ih =>
      have hline : fgets motdLineLen (List.replicate (calls + 1) 10) =
          some ([10], List.replicate calls 10) := by
        simp [fgets, List.replicate_succ, motdLineLen]
      rw [fgetsTexts, hline]
      dsimp only
      rw [ih, ← List.replicate_succ]
  rw [motdTexts, List.length_replicate]
  exact hcalls n

/-! ## The array of lines -/

section Lines

variable {fresh : Nat → MotdLine} {motd motd' : Motd} {n n' i : Nat} {text : List UInt8}
  {texts : List (List UInt8)} {line : MotdLine}

theorem store_eq (motd : Motd) (h : n < maxMotdLines) (line : Option MotdLine) :
    store motd n line = some (motd.set n line) := if_pos h

theorem lineAt_set_self (motd : Motd) (h : n < maxMotdLines) (line : Option MotdLine) :
    lineAt (motd.set n line) n = line := by
  have hlt : n < motd.cells.length := by
    rw [motd.size]
    exact h
  simp [lineAt, Block.set, hlt]

theorem lineAt_set_ne (motd : Motd) (h : n ≠ i) (line : Option MotdLine) :
    lineAt (motd.set n line) i = lineAt motd i := by
  simp [lineAt, Block.set, h]

theorem lt_of_lineAt (h : lineAt motd n = some line) : n < maxMotdLines := by
  have hget : motd.cells[n]? = some (some line) := Option.join_eq_some_iff.mp h
  obtain ⟨hlt, -⟩ := List.getElem?_eq_some_iff.mp hget
  rw [motd.size] at hlt
  exact hlt

/-- The last character of the string is overwritten; there is none in front of a zero. -/
theorem cutLine_write (line : MotdLine) (hne : text ≠ []) (h : text.length < motdLineLen) :
    (text.head? = some 0 → cutLine (line.write 0 text h) = none) ∧
    (text.head? ≠ some 0 → ∃ after, cutLine (line.write 0 text h) = some after ∧
      after.Terminated 0 ∧ after.string 0 = (stringOf 0 text).dropLast) := by
  have hstring : (line.write 0 text h).string 0 = stringOf 0 text := stringOf_append_nul text _
  obtain ⟨c, rest, rfl⟩ := List.exists_cons_of_ne_nil hne
  constructor
  · intro hzero
    obtain rfl := Option.some.inj hzero
    unfold cutLine
    rw [hstring]
    rfl
  · intro hstart
    have hc : c ≠ 0 := fun hc => hstart (congrArg some hc)
    have hcons : stringOf 0 (c :: rest) ≠ [] := by simp [stringOf, hc]
    have hnul : 0 ∉ (stringOf 0 (c :: rest)).dropLast := fun hmem =>
      nul_notMem_stringOf 0 (c :: rest) (List.dropLast_subset _ hmem)
    obtain ⟨more, hcells⟩ : (line.write 0 (c :: rest) h).string 0 <+:
        (line.write 0 (c :: rest) h).cells := List.takeWhile_prefix _
    rw [hstring] at hcells
    rw [← List.dropLast_append_getLast hcons] at hcells
    have hlen : ((line.write 0 (c :: rest) h).string 0).length =
        (stringOf 0 (c :: rest)).dropLast.length + 1 := by
      rw [hstring, List.length_dropLast]
      have hpos := List.length_pos_of_ne_nil hcons
      omega
    have hset : ((line.write 0 (c :: rest) h).set (stringOf 0 (c :: rest)).dropLast.length 0).cells
        = (stringOf 0 (c :: rest)).dropLast ++ 0 :: more := by
      unfold Block.set
      dsimp only
      rw [← hcells, List.append_assoc, List.singleton_append, List.set_append_right _ _ (by simp)]
      simp
    refine ⟨(line.write 0 (c :: rest) h).set (stringOf 0 (c :: rest)).dropLast.length 0,
      ?_, ?_, ?_⟩
    · unfold cutLine
      rw [hlen]
    · unfold Block.Terminated
      rw [hset]
      simp
    · unfold Block.string
      rw [hset]
      exact stringOf_append hnul more

/-- A piece is stored if it does not begin with a zero and there is a place for one more block. -/
theorem motdLoop_cons (fresh : Nat → MotdLine) (texts : List (List UInt8))
    (hline : lineAt motd n = some line) (hne : text ≠ []) (h : text.length < motdLineLen) :
    motdLoop fresh (text :: texts) n motd = none ∧ ¬ (n + 1 < maxMotdLines ∧ text.head? ≠ some 0) ∨
    ∃ motd', motdLoop fresh (text :: texts) n motd = motdLoop fresh texts (n + 1) motd' ∧
      n + 1 < maxMotdLines ∧ text.head? ≠ some 0 ∧
      lineAt motd' (n + 1) = some (fresh (n + 1)) ∧ (∀ i < n, lineAt motd' i = lineAt motd i) ∧
      ∃ after, lineAt motd' n = some after ∧ after.Terminated 0 ∧
        after.string 0 = (stringOf 0 text).dropLast := by
  have hn : n < maxMotdLines := lt_of_lineAt hline
  have hcopy : line.strcpy 0 text = some (line.write 0 text h) := dif_pos h
  obtain ⟨hzero, hcut⟩ := cutLine_write line hne h
  by_cases hstart : text.head? = some 0
  · refine Or.inl ⟨?_, fun hboth => hboth.2 hstart⟩
    simp only [motdLoop, hline, Option.bind_some, hcopy, hn, if_true, hzero hstart,
      Option.bind_none]
  · obtain ⟨after, hafter, hterminated, hstring⟩ := hcut hstart
    have hloop : motdLoop fresh (text :: texts) n motd =
        (store (motd.set n (some after)) (n + 1) (some (fresh (n + 1)))).bind fun motd =>
          motdLoop fresh texts (n + 1) motd := by
      simp only [motdLoop, hline, Option.bind_some, hcopy, hn, if_true, hafter]
    by_cases hroom : n + 1 < maxMotdLines
    · rw [store_eq _ hroom, Option.bind_some] at hloop
      refine Or.inr ⟨_, hloop, hroom, hstart, lineAt_set_self _ hroom _, ?_, after, ?_,
        hterminated, hstring⟩
      · intro i hi
        rw [lineAt_set_ne _ (by omega), lineAt_set_ne _ (by omega)]
      · rw [lineAt_set_ne _ (by omega), lineAt_set_self _ hn]
    · refine Or.inl ⟨?_, fun hboth => hroom hboth.1⟩
      rw [hloop, store, if_neg hroom]
      rfl

theorem motdLoop_isSome_iff (hline : lineAt motd n = some line)
    (htexts : ∀ text ∈ texts, text ≠ [] ∧ text.length < motdLineLen) :
    (motdLoop fresh texts n motd).isSome = true ↔
      n + texts.length < maxMotdLines ∧ ∀ text ∈ texts, text.head? ≠ some 0 := by
  induction texts generalizing n motd line with
  | nil =>
    have hn := lt_of_lineAt hline
    simp [motdLoop, hline, hn]
  | cons text texts ih =>
    obtain ⟨hne, hlen⟩ := htexts text List.mem_cons_self
    have hrest : ∀ text ∈ texts, text ≠ [] ∧ text.length < motdLineLen :=
      fun other hother => htexts other (List.mem_cons_of_mem text hother)
    rw [List.length_cons, List.forall_mem_cons]
    rcases motdLoop_cons fresh texts hline hne hlen with
      ⟨hnone, hbad⟩ | ⟨motd', hloop, -, hstart, hnext, -⟩
    · rw [hnone]
      refine iff_of_false Bool.false_ne_true ?_
      rintro ⟨hcount, hstart, -⟩
      exact hbad ⟨by omega, hstart⟩
    · rw [hloop, ih hnext hrest, Nat.add_right_comm, Nat.add_assoc]
      simp [hstart]

theorem motdLoop_spec (hline : lineAt motd n = some line)
    (htexts : ∀ text ∈ texts, text ≠ [] ∧ text.length < motdLineLen)
    (h : motdLoop fresh texts n motd = some (motd', n')) :
    n' = n + texts.length ∧ (∀ i < n, lineAt motd' i = lineAt motd i) ∧
      ∀ i text, texts[i]? = some text → ∃ after, lineAt motd' (n + i) = some after ∧
        after.Terminated 0 ∧ after.string 0 = (stringOf 0 text).dropLast := by
  induction texts generalizing n motd line with
  | nil =>
    simp only [motdLoop, hline, Option.map_some, Option.some.injEq, Prod.mk.injEq] at h
    obtain ⟨rfl, rfl⟩ := h
    exact ⟨rfl, fun _ _ => rfl, by simp⟩
  | cons text texts ih =>
    obtain ⟨hne, hlen⟩ := htexts text List.mem_cons_self
    have hrest : ∀ text ∈ texts, text ≠ [] ∧ text.length < motdLineLen :=
      fun other hother => htexts other (List.mem_cons_of_mem text hother)
    rcases motdLoop_cons fresh texts hline hne hlen with
      ⟨hnone, -⟩ | ⟨motd₁, hloop, -, -, hnext, hbefore, after, hafter, hterminated, hstring⟩
    · rw [hnone] at h
      cases h
    · obtain ⟨hcount, hkept, hlines⟩ := ih hnext hrest (hloop ▸ h)
      refine ⟨by rw [hcount, List.length_cons]; omega, ?_, ?_⟩
      · intro i hi
        rw [hkept i (by omega), hbefore i hi]
      · intro i other hother
        cases i with
        | zero =>
          obtain rfl := Option.some.inj hother
          exact ⟨after, by rw [Nat.add_zero, hkept n (by omega), hafter], hterminated, hstring⟩
        | succ i =>
          rw [List.getElem?_cons_succ] at hother
          obtain ⟨found, hfound⟩ := hlines i other hother
          rw [Nat.add_right_comm, Nat.add_assoc] at hfound
          exact ⟨found, hfound⟩

theorem motdTexts_fit {file : List UInt8} :
    ∀ text ∈ motdTexts file, text ≠ [] ∧ text.length < motdLineLen :=
  fun _ htext => mem_fgetsTexts htext

theorem lineAt_first (motd : Motd) (line : MotdLine) :
    lineAt (motd.set 0 (some line)) 0 = some line :=
  lineAt_set_self motd (by decide) (some line)

theorem readMotd_eq (fresh : Nat → MotdLine) (motd : Motd) (file : List UInt8) :
    readMotd fresh motd file =
      (motdLoop fresh (motdTexts file) 0 (motd.set 0 (some (fresh 0)))).bind fun read =>
        (store read.1 read.2 none).map fun motd => (motd, read.2) := by
  rw [readMotd, store_eq motd (by decide), Option.bind_some]

theorem readMotd_isSome_iff (fresh : Nat → MotdLine) (motd : Motd) (file : List UInt8) :
    (readMotd fresh motd file).isSome = true ↔ MotdFits file := by
  have htexts : ∀ text ∈ motdTexts file, text ≠ [] ∧ text.length < motdLineLen := motdTexts_fit
  have hloop := @motdLoop_isSome_iff fresh _ _ _ _ (lineAt_first motd (fresh 0)) htexts
  rw [Nat.zero_add] at hloop
  rw [readMotd_eq]
  cases hread : motdLoop fresh (motdTexts file) 0 (motd.set 0 (some (fresh 0))) with
  | none =>
    rw [hread] at hloop
    refine iff_of_false (by simp) fun hfits => ?_
    exact Bool.false_ne_true (hloop.mpr ⟨hfits.count, hfits.start⟩)
  | some result =>
    rw [hread] at hloop
    obtain ⟨hcount, hstart⟩ := hloop.mp rfl
    obtain ⟨hn, -, -⟩ := motdLoop_spec (lineAt_first motd (fresh 0)) motdTexts_fit hread
    refine iff_of_true ?_ ⟨hcount, hstart⟩
    rw [Option.bind_some, store_eq _ (by omega)]
    rfl

theorem readMotd_spec {file : List UInt8} (h : readMotd fresh motd file = some (motd', n)) :
    n = (motdTexts file).length ∧ n < maxMotdLines ∧
      ∀ i text, (motdTexts file)[i]? = some text → ∃ after, lineAt motd' i = some after ∧
        after.Terminated 0 ∧ after.string 0 = (stringOf 0 text).dropLast := by
  have hfits : MotdFits file := by
    rw [← readMotd_isSome_iff fresh motd, h]
    rfl
  rw [readMotd_eq] at h
  obtain ⟨⟨motd₁, n₁⟩, hread, hlast⟩ := Option.bind_eq_some_iff.mp h
  obtain ⟨hn, -, hlines⟩ := motdLoop_spec (lineAt_first motd (fresh 0)) motdTexts_fit hread
  rw [Nat.zero_add] at hn
  have hcount := hfits.count
  dsimp only at hlast
  rw [store_eq _ (by omega)] at hlast
  cases hlast
  refine ⟨hn, by omega, ?_⟩
  intro i text htext
  obtain ⟨hi, -⟩ := List.getElem?_eq_some_iff.mp htext
  obtain ⟨after, hafter, hrest⟩ := hlines i text htext
  rw [Nat.zero_add] at hafter
  exact ⟨after, by rw [lineAt_set_ne _ (by omega), hafter], hrest⟩

/-! ## Calls -/

theorem freeMotd_succ (motd : Motd) (n : Nat) :
    freeMotd motd (n + 1) = (freeMotd motd n).bind fun motd =>
      (lineAt motd n).bind fun _ => store motd n none := by
  simp [freeMotd, List.range_succ, List.foldlM_append, Option.bind_eq_bind]

/-- The blocks behind those that are freed stay. -/
theorem freeMotd_spec (hn : n ≤ maxMotdLines)
    (hlines : ∀ i < n, ∃ line, lineAt motd i = some line) :
    ∃ motd', freeMotd motd n = some motd' ∧ ∀ i, n ≤ i → lineAt motd' i = lineAt motd i := by
  induction n with
  | zero => exact ⟨motd, rfl, fun _ _ => rfl⟩
  | succ n ih =>
    obtain ⟨motd₁, hfree, hkept⟩ := ih (by omega) fun i hi => hlines i (by omega)
    obtain ⟨line, hline⟩ := hlines n (by omega)
    refine ⟨motd₁.set n none, ?_, ?_⟩
    · rw [freeMotd_succ, hfree, Option.bind_some, hkept n (Nat.le_refl n), hline,
        Option.bind_some, store_eq _ (by omega)]
    · intro i hi
      rw [lineAt_set_ne _ (by omega), hkept i (by omega)]

end Lines

section Calls

variable {fresh : Nat → MotdLine} {cfg cfg' : MotdConfig} {replies : List MotdReply}
  {stat : Option MotdFile} {file : List UInt8}

theorem mapM_isSome {α β : Type} {f : α → Option β} {as : List α}
    (h : ∀ a ∈ as, (f a).isSome = true) : (as.mapM f).isSome = true := by
  induction as with
  | nil => rfl
  | cons a as ih =>
    obtain ⟨b, hb⟩ := Option.isSome_iff_exists.mp (h a List.mem_cons_self)
    obtain ⟨bs, hbs⟩ := Option.isSome_iff_exists.mp
      (ih fun other hother => h other (List.mem_cons_of_mem a hother))
    simp [List.mapM_cons, hb, hbs]

/-- All lines are read up to the ends of their strings. -/
theorem sendMotd_isSome (h : Held cfg) : (sendMotd cfg).isSome = true := by
  unfold sendMotd
  split
  · rfl
  · rw [Option.isSome_map]
    apply mapM_isSome
    intro n hn
    obtain ⟨line, hline, hterminated⟩ := h.line n (List.mem_range.mp hn)
    rw [hline, Option.bind_some, lineText, if_pos (show 0 ∈ line.cells from hterminated)]
    rfl

theorem sendMotd_cfg (h : sendMotd cfg = some (cfg', replies)) : cfg' = cfg := by
  unfold sendMotd at h
  split at h
  · cases h
    rfl
  · obtain ⟨lines, -, heq⟩ := Option.map_eq_some_iff.mp h
    cases heq
    rfl

theorem held_readMotd {motd motd' : Motd} {n : Nat}
    (h : readMotd fresh motd file = some (motd', n)) (time : Int) : Held ⟨motd', n, time⟩ := by
  obtain ⟨hn, hlt, hlines⟩ := readMotd_spec h
  refine ⟨Nat.le_of_lt hlt, ?_⟩
  intro i hi
  obtain ⟨after, hafter, hterminated, -⟩ :=
    hlines i _ (List.getElem?_eq_getElem (show i < (motdTexts file).length from hn ▸ hi))
  exact ⟨after, hafter, hterminated⟩

/-- The file is read by a call. -/
def Reads (cfg : MotdConfig) (stat : Option MotdFile) (file : List UInt8) : Prop :=
  ∃ buf, stat = some buf ∧ cfg.lastModified < buf.mtime ∧ buf.contents = some file

theorem Reads.unique {file' : List UInt8} (h : Reads cfg stat file) (h' : Reads cfg stat file') :
    file = file' := by
  obtain ⟨buf, rfl, -, hfile⟩ := h
  obtain ⟨other, hother, -, hfile'⟩ := h'
  obtain rfl := Option.some.inj hother
  exact Option.some.inj (hfile.symm.trans hfile')

/-- A call either reads a file, or it has a result that is as well formed as what it was given. -/
theorem ircMotdCallback_cases (hcfg : Held cfg) (fresh : Nat → MotdLine) (stat : Option MotdFile) :
    (∃ file motd time, Reads cfg stat file ∧ ircMotdCallback fresh cfg stat =
      (readMotd fresh motd file).bind fun read => sendMotd ⟨read.1, read.2, time⟩) ∨
    (∀ file, ¬ Reads cfg stat file) ∧
      ∃ cfg' replies, ircMotdCallback fresh cfg stat = some (cfg', replies) ∧ Held cfg' := by
  cases stat with
  | none =>
    refine Or.inr ⟨?_, cfg, _, rfl, hcfg⟩
    rintro file ⟨buf, hbuf, -⟩
    cases hbuf
  | some buf =>
    by_cases hnew : cfg.lastModified < buf.mtime
    · cases hcontents : buf.contents with
      | none =>
        refine Or.inr ⟨?_, { cfg with lastModified := buf.mtime }, [], ?_,
          ⟨hcfg.motds_le, hcfg.line⟩⟩
        · rintro file ⟨other, hother, -, hfile⟩
          obtain rfl := Option.some.inj hother
          rw [hcontents] at hfile
          cases hfile
        · simp only [ircMotdCallback, hnew, if_true, hcontents]
      | some file =>
        obtain ⟨motd, hfree, -⟩ := freeMotd_spec hcfg.motds_le fun i hi => by
          obtain ⟨line, hline, -⟩ := hcfg.line i hi
          exact ⟨line, hline⟩
        refine Or.inl ⟨file, motd, buf.mtime, ⟨buf, rfl, hnew, hcontents⟩, ?_⟩
        simp only [ircMotdCallback, hnew, if_true, hcontents, hfree, Option.bind_some]
    · obtain ⟨⟨cfg', replies⟩, hsend⟩ := Option.isSome_iff_exists.mp (sendMotd_isSome hcfg)
      refine Or.inr ⟨?_, cfg', replies, ?_, sendMotd_cfg hsend ▸ hcfg⟩
      · rintro file ⟨other, hother, hlt, -⟩
        obtain rfl := Option.some.inj hother
        exact hnew hlt
      · simp only [ircMotdCallback, hnew, if_false, hsend]

/-- The accesses of a call are in the arrays exactly if the file that it reads fits. -/
theorem ircMotdCallback_isSome_iff (hcfg : Held cfg) :
    (ircMotdCallback fresh cfg stat).isSome = true ↔
      ∀ file, Reads cfg stat file → MotdFits file := by
  rcases ircMotdCallback_cases hcfg fresh stat with
    ⟨file, motd, time, hreads, heq⟩ | ⟨hnot, cfg', replies, heq, -⟩
  · have hiff := readMotd_isSome_iff fresh motd file
    rw [heq]
    constructor
    · intro hsome other hother
      obtain rfl := hreads.unique hother
      cases hread : readMotd fresh motd file with
      | none =>
        rw [hread] at hsome
        cases hsome
      | some read => exact hiff.mp (hread ▸ rfl)
    · intro hfits
      obtain ⟨⟨motd', n⟩, hread⟩ := Option.isSome_iff_exists.mp (hiff.mpr (hfits file hreads))
      rw [hread, Option.bind_some]
      exact sendMotd_isSome (held_readMotd hread time)
  · rw [heq]
    exact iff_of_true rfl fun file hreads => absurd hreads (hnot file)

theorem held_of_call (hcfg : Held cfg)
    (h : ircMotdCallback fresh cfg stat = some (cfg', replies)) : Held cfg' := by
  rcases ircMotdCallback_cases hcfg fresh stat with
    ⟨file, motd, time, -, heq⟩ | ⟨-, cfg₁, replies₁, heq, hheld⟩
  · obtain ⟨read, hread, hsend⟩ := Option.bind_eq_some_iff.mp (heq.symm.trans h)
    rw [sendMotd_cfg hsend]
    exact held_readMotd hread time
  · obtain ⟨rfl, rfl⟩ := Prod.mk.inj (Option.some.inj (heq.symm.trans h))
    exact hheld

theorem held_of_reachable (h : Reachable cfg) : Held cfg := by
  induction h with
  | initial => exact ⟨Nat.zero_le _, fun n hn => absurd hn (Nat.not_lt_zero n)⟩
  | call fresh stat _ hcall ih => exact held_of_call ih hcall

end Calls

/-! ## Lists of nicks -/

def listed (cl : Member) : List UInt8 := nickSign cl.cflag ++ cl.nick ++ [32]

theorem strcat_nickSign {nicklist : List UInt8} (h : nicklist.length < maxMsgLen)
    (cflag : UInt32) :
    (if cflag &&& modeOperator ≠ 0 then strcat nicklist [64]
      else if cflag &&& modeVoice ≠ 0 then strcat nicklist [43]
      else some nicklist) = strcat nicklist (nickSign cflag) := by
  unfold nickSign
  split_ifs
  · rfl
  · rfl
  · exact (Channels.strcat_nil h).symm

/-- One after the other or all at once. -/
theorem usersLoop_eq {nicklist : List UInt8} (h : nicklist.length < maxMsgLen)
    (members : List Member) :
    usersLoop true nicklist members = strcat nicklist ((visible members).flatMap listed) := by
  induction members generalizing nicklist with
  | nil => exact (Channels.strcat_nil h).symm
  | cons cl members ih =>
    cases hcl : cl.invisible with
    | true =>
      have hvisible : visible (cl :: members) = visible members := by simp [visible, hcl]
      simp only [usersLoop, hcl, Bool.true_eq_false, false_and, if_false, hvisible, ih h]
    | false =>
      have hvisible : visible (cl :: members) = cl :: visible members := by simp [visible, hcl]
      have hentry : ((strcat nicklist (nickSign cl.cflag)).bind (strcat · cl.nick)).bind
          (strcat · [32]) = strcat nicklist (listed cl) := by
        rw [strcat_strcat, strcat_strcat]
        rfl
      simp only [usersLoop, hcl, and_self, if_true]
      rw [strcat_nickSign h, ← Option.bind_assoc, ← Option.bind_assoc, hentry, hvisible,
        List.flatMap_cons, ← strcat_strcat]
      apply Option.bind_congr
      intro after hafter
      obtain ⟨hlt, rfl⟩ := strcat_eq_some.mp hafter
      exact ih (by rw [List.length_append]; exact hlt)

theorem usersLoop_outside (nicklist : List UInt8) (members : List Member) :
    usersLoop false nicklist members = some nicklist := by
  induction members with
  | nil => rfl
  | cons cl members ih => simp [usersLoop, ih]

theorem ircClientInChannel_isSome (client : Nat) (members : List Member) :
    (ircClientInChannel client members).isSome = true ↔ ∃ cl ∈ members, cl.id = client := by
  simp [ircClientInChannel, List.isSome_idxOf?]

theorem length_listed (members : List Member) :
    (members.flatMap listed).length =
      (members.map fun cl => (nickSign cl.cflag).length + cl.nick.length + 1).sum := by
  simp [listed, List.length_flatMap, Nat.add_assoc]

/-- All that is appended is in the buffer exactly if there is room for all of it. -/
theorem ircChannelUsers_isSome_iff (client : Nat) (members : List Member) :
    (∃ nicklist, ircChannelUsers client members = some nicklist ∧
      nicklist.length < maxMsgLen) ↔ listedLength client members < maxMsgLen := by
  have hinside := ircClientInChannel_isSome client members
  unfold ircChannelUsers listedLength
  cases hfound : (ircClientInChannel client members).isSome with
  | false =>
    rw [hfound] at hinside
    rw [if_neg (fun h => Bool.false_ne_true (hinside.mpr h)), usersLoop_outside]
    exact iff_of_true ⟨[], rfl, by decide⟩ (by decide)
  | true =>
    rw [hfound] at hinside
    rw [if_pos (hinside.mp rfl), usersLoop_eq (by decide), ← length_listed]
    constructor
    · rintro ⟨nicklist, hcat, hlt⟩
      obtain ⟨-, rfl⟩ := strcat_eq_some.mp hcat
      exact hlt
    · intro hlt
      exact ⟨_, strcat_eq_some.mpr ⟨by simpa using hlt, rfl⟩, hlt⟩

/-! ## Both buffers -/

/-- For each configuration that calls come to, the accesses of one more call are in the arrays
exactly if the file that it reads has fewer than 256 pieces of which none begins with a zero. The
list of nicks is shorter than a message exactly if the nicks are. -/
theorem replyBuffers_iff {cfg : MotdConfig} (hcfg : Reachable cfg) (fresh : Nat → MotdLine)
    (stat : Option MotdFile) (client : Nat) (members : List Member) :
    ((ircMotdCallback fresh cfg stat).isSome = true ↔
      ∀ file, Reads cfg stat file → MotdFits file) ∧
    ((∃ nicklist, ircChannelUsers client members = some nicklist ∧
      nicklist.length < maxMsgLen) ↔ listedLength client members < maxMsgLen) :=
  ⟨ircMotdCallback_isSome_iff (held_of_reachable hcfg),
    ircChannelUsers_isSome_iff client members⟩

def blank (_ : Nat) : MotdLine := Block.replicate _ 7

def member (id : Nat) : Member := ⟨id, false, List.replicate 16 (UInt8.ofNat (65 + id)), 0⟩

/-- Two lines, of which the last one has no end, and two clients. -/
theorem replyBuffers_two :
    (ircMotdCallback blank .initial (some ⟨1, some [104, 105, 10, 33]⟩)).isSome = true ∧
    ∃ nicklist, ircChannelUsers 1 [member 0, member 1] = some nicklist ∧
      nicklist.length < maxMsgLen := by
  obtain ⟨hmotd, husers⟩ := replyBuffers_iff .initial blank
    (some ⟨1, some [104, 105, 10, 33]⟩) 1 [member 0, member 1]
  refine ⟨hmotd.mpr ?_, husers.mpr (by decide)⟩
  rintro file ⟨buf, hbuf, -, hfile⟩
  obtain rfl := Option.some.inj hbuf
  obtain rfl := Option.some.inj hfile
  exact ⟨by decide, by decide⟩

/-- As many lines as there are places, and 31 clients with nicks of 16 characters. -/
theorem replyBuffers_overflow :
    ircMotdCallback blank .initial (some ⟨1, some (List.replicate maxMotdLines 10)⟩) = none ∧
    ¬ ∃ nicklist, ircChannelUsers 0 ((List.range 31).map member) = some nicklist ∧
      nicklist.length < maxMsgLen := by
  constructor
  · rw [← Option.not_isSome_iff_eq_none, ircMotdCallback_isSome_iff (held_of_reachable .initial)]
    intro hfits
    have hcount := (hfits _ ⟨_, rfl, by decide, rfl⟩).count
    rw [motdTexts_lines, List.length_replicate] at hcount
    exact absurd hcount (by decide)
  · rw [ircChannelUsers_isSome_iff]
    decide

end Serveez.Irc.ReplyBuffers
