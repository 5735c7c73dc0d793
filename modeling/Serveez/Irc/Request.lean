import Serveez.Irc.Messages
import Serveez.Lib.Filling

/-!
# Requests of IRC

`irc_parse_request` copies the parts of a line into the arrays of `irc_request`, which were cleared
before, and `irc_parse_target` those of the first parameter. A write behind the end of an array has
no result. A line is followed by its terminator, which is none of the characters that are looked
for, so the end of the line ends every loop.

* `storeTarget_iff`: which targets are stored, and in which fields.
* `ircParseRequest_iff`: which lines are parsed, and what is in the arrays afterwards.
-/

namespace Serveez.Irc.Request

open Lib
open Channels (maxMsgLen maxParams)
open Messages (maxNameLen)

/-- `MAX_TARGETS` -/
def maxTargets : Nat := 64

/-- `irc_target_t` -/
structure IrcTarget where
  channel : Block UInt8 maxNameLen
  user : Block UInt8 maxNameLen
  host : Block UInt8 maxNameLen
  nick : Block UInt8 maxNickLen
  mask : Block UInt8 maxNameLen

/-- `irc_request_t` -/
structure IrcRequest where
  server : Block UInt8 maxNameLen
  nick : Block UInt8 maxNickLen
  user : Block UInt8 maxNameLen
  host : Block UInt8 maxNameLen
  request : Block UInt8 maxNameLen
  para : Block (Block UInt8 maxMsgLen) maxParams
  paras : Nat
  target : Block IrcTarget maxTargets
  targets : Nat

def zeroed (n : Nat) : Block UInt8 n := Block.replicate n 0

def IrcTarget.zero : IrcTarget := ⟨zeroed _, zeroed _, zeroed _, zeroed _, zeroed _⟩

/-- `memset` -/
def IrcRequest.zero : IrcRequest :=
  ⟨zeroed _, zeroed _, zeroed _, zeroed _, zeroed _, Block.replicate _ (zeroed _), 0,
    Block.replicate _ .zero, 0⟩

/-! ## `irc_parse_target` -/

/-- A target that is not empty goes into the fields of its kind. -/
def storeTarget (target : IrcTarget) (item : List UInt8) : Option IrcTarget :=
  -- local channel
  if item.head? = some 38 then
    (target.channel.copy item).map fun channel => { target with channel := channel }
  -- mask
  else if item.head? = some 36 then
    (target.mask.copy item).map fun mask => { target with mask := mask }
  -- channel or mask
  else if item.head? = some 35 then
    (target.mask.copy item).bind fun mask =>
    (target.channel.copy item).map fun channel => { target with mask := mask, channel := channel }
  -- nick or user@host
  else
    let name := item.takeWhile (· ≠ 64)
    (target.user.copy name).bind fun user =>
    (target.nick.copy name).bind fun nick =>
    match item.dropWhile (· ≠ 64) with
    | [] => some { target with user := user, nick := nick }
    | _ :: host =>
      (target.host.copy host).map fun host =>
        { target with user := user, nick := zeroed _, host := host }

/-- The targets of a parameter, from the first character on. -/
def targetTexts : Nat → List UInt8 → List (List UInt8)
  | 0, _ => []
  | rounds + 1, p =>
    if p = [] then []
    else p.takeWhile (· ≠ 44) :: targetTexts rounds (p.dropWhile (· ≠ 44)).tail

/-- `strlen` reads up to the terminator. -/
def cText {n : Nat} (b : Block UInt8 n) : Option (List UInt8) :=
  if 0 ∈ b.cells then some (b.string 0) else none

/-- `irc_parse_target` -/
def ircParseTarget (request : IrcRequest) (para : Nat) : Option IrcRequest :=
  if request.paras ≤ para then some { request with targets := 0 }
  else
    ((request.para.cells[para]?).bind cText).bind fun p =>
    let items := targetTexts p.length p
    (request.target.storeAll storeTarget (· ≠ []) 0 items).map fun target =>
      { request with target := target, targets := items.length }

/-! ## `irc_parse_request` -/

/-- The parts of a message origin, and the rest of the line. -/
structure Origin where
  name : List UInt8
  user : List UInt8
  host : List UInt8
  rest : List UInt8

/-- The message origin, with its colon. -/
def splitOrigin (p : List UInt8) : Origin :=
  if p.head? = some 58 then
    -- server or nick
    let name := p.takeWhile (fun c => c ≠ 33 ∧ c ≠ 64 ∧ c ≠ 32)
    let p := p.dropWhile (fun c => c ≠ 33 ∧ c ≠ 64 ∧ c ≠ 32)
    -- user follows
    let user := if p.head? = some 33 then p.tail.takeWhile (fun c => c ≠ 64 ∧ c ≠ 32) else []
    let p := if p.head? = some 33 then p.tail.dropWhile (fun c => c ≠ 64 ∧ c ≠ 32) else p
    -- host follows
    let host := if p.head? = some 64 then p.tail.takeWhile (· ≠ 32) else []
    let p := if p.head? = some 64 then p.tail.dropWhile (· ≠ 32) else p
    ⟨name, user, host, p.dropWhile (· = 32)⟩
  else ⟨[], [], [], p⟩

/-- The parameters of a line, the last of which may be a trailing one. -/
def paraTexts : Nat → List UInt8 → List (List UInt8)
  | 0, _ => []
  | rounds + 1, p =>
    match p.dropWhile (· = 32) with
    | [] => []
    | c :: rest =>
      if c = 58 then [rest]
      else (c :: rest).takeWhile (· ≠ 32) :: paraTexts rounds ((c :: rest).dropWhile (· ≠ 32))

/-- The first character of a parameter. Behind the parameters stands `paras`, which is 0. -/
def firstChar (para : Block (Block UInt8 maxMsgLen) maxParams) (n : Nat) : UInt8 :=
  (para.cells[n]?).elim 0 (·.cells.headD 0)

/-- `irc_parse_request` -/
def ircParseRequest (line : List UInt8) : Option IrcRequest :=
  let request := IrcRequest.zero
  let origin := splitOrigin line
  (request.server.copy origin.name).bind fun server =>
  (request.nick.copy origin.name).bind fun nick =>
  (request.user.copy origin.user).bind fun user =>
  (request.host.copy origin.host).bind fun host =>
  let p := origin.rest
  (request.request.copy (p.takeWhile (· ≠ 32))).bind fun command =>
  let p := p.dropWhile (· ≠ 32)
  let texts := paraTexts p.length p
  (request.para.storeAll Block.copy (· ≠ []) 0 texts).bind fun para =>
  let paras :=
    if 0 < texts.length ∧ firstChar para (texts.length - 1) = 0 then texts.length - 1
    else texts.length
  ircParseTarget
    { request with
      server := server, nick := nick, user := user, host := host, request := command
      para := para, paras := paras } 0

/-! ## What a line has -/

def commandOf (line : List UInt8) : List UInt8 := (splitOrigin line).rest.takeWhile (· ≠ 32)

def parasOf (line : List UInt8) : List (List UInt8) :=
  let p := (splitOrigin line).rest.dropWhile (· ≠ 32)
  paraTexts p.length p

/-- The targets of a line are those in the string that its first parameter holds. -/
def targetsOf (line : List UInt8) : List (List UInt8) :=
  let p := stringOf 0 ((parasOf line).headD [])
  targetTexts p.length p

/-- The fields of a target each have room. -/
def TargetMeets (room : Nat → List UInt8 → Prop) (item : List UInt8) : Prop :=
  if item.head? = some 38 ∨ item.head? = some 36 ∨ item.head? = some 35 then room maxNameLen item
  else
    let name := item.takeWhile (· ≠ 64)
    match item.dropWhile (· ≠ 64) with
    | [] => room maxNickLen name
    | _ :: host => name.length ≤ maxNickLen ∧ room maxNameLen host

/-- Each part of a line has room, and there are entries for all parameters and targets. -/
structure LineMeets (room : Nat → List UInt8 → Prop) (line : List UInt8) : Prop where
  name : room maxNickLen (splitOrigin line).name
  user : room maxNameLen (splitOrigin line).user
  host : room maxNameLen (splitOrigin line).host
  command : room maxNameLen (commandOf line)
  paras : ∀ text ∈ (parasOf line).take maxParams, room maxMsgLen text
  morePara : ∀ text ∈ (parasOf line).drop maxParams, text = []
  first : Fits 0 maxMsgLen ((parasOf line).headD [])
  targets : ∀ item ∈ (targetsOf line).take maxTargets, TargetMeets room item
  moreTargets : ∀ item ∈ (targetsOf line).drop maxTargets, item = []

/-- Room for the text alone. -/
def HasRoom (n : Nat) (text : List UInt8) : Prop := text.length ≤ n

def field (n : Nat) (text : List UInt8) : Block UInt8 n := Block.laid n 0 id text

/-- The fields of a target. -/
def targetOf (item : List UInt8) : IrcTarget :=
  if item.head? = some 38 then { IrcTarget.zero with channel := field _ item }
  else if item.head? = some 36 then { IrcTarget.zero with mask := field _ item }
  else if item.head? = some 35 then
    { IrcTarget.zero with mask := field _ item, channel := field _ item }
  else
    let name := item.takeWhile (· ≠ 64)
    match item.dropWhile (· ≠ 64) with
    | [] => { IrcTarget.zero with user := field _ name, nick := field _ name }
    | _ :: host => { IrcTarget.zero with user := field _ name, host := field _ host }

/-- The number of parameters; the last one does not count if it holds the empty string. -/
def parasCount (line : List UInt8) : Nat :=
  if ((parasOf line).getLast?.elim false (fun text => text.headD 0 = 0)) then
    (parasOf line).length - 1
  else (parasOf line).length

/-- The request of a line. -/
def requestOf (line : List UInt8) : IrcRequest where
  server := field _ (splitOrigin line).name
  nick := field _ (splitOrigin line).name
  user := field _ (splitOrigin line).user
  host := field _ (splitOrigin line).host
  request := field _ (commandOf line)
  para := Block.laid _ (zeroed _) (field maxMsgLen) (parasOf line)
  paras := parasCount line
  target := Block.laid _ .zero targetOf (targetsOf line)
  targets := (targetsOf line).length

/-! ## The fields -/

variable {n : Nat} {text : List UInt8} {line : List UInt8} {item : List UInt8}

theorem copy_zeroed {b : Block UInt8 n} :
    (zeroed n).copy text = some b ↔ HasRoom n text ∧ b = field n text := Block.copy_iff

theorem field_nil (n : Nat) : field n [] = zeroed n := Block.laid_nil n 0 id

theorem terminated_field (h : HasRoom n text) : (field n text).Terminated 0 ↔ Fits 0 n text :=
  Block.terminated_text h

theorem string_field (h : HasRoom n text) : (field n text).string 0 = stringOf 0 text :=
  Block.string_text h

theorem cText_field {p : List UInt8} (h : HasRoom n text) :
    cText (field n text) = some p ↔ Fits 0 n text ∧ p = stringOf 0 text := by
  rw [cText, ← terminated_field h, ← string_field h, Block.Terminated]
  by_cases hterminated : 0 ∈ (field n text).cells
  · rw [if_pos hterminated, Option.some_inj, and_iff_right hterminated, eq_comm]
  · rw [if_neg hterminated]
    exact iff_of_false (fun h => Option.some_ne_none _ h.symm) (fun h => hterminated h.1)

theorem targetOf_nil : targetOf [] = .zero := by
  show ({ IrcTarget.zero with user := field _ [], nick := field _ [] } : IrcTarget) = _
  rw [field_nil, field_nil]
  rfl

/-- A target is stored if its fields have room. -/
theorem storeTarget_iff {target : IrcTarget} : storeTarget .zero item = some target ↔
    TargetMeets HasRoom item ∧ target = targetOf item := by
  unfold storeTarget TargetMeets targetOf
  by_cases hlocal : item.head? = some 38
  · rw [if_pos hlocal, if_pos (Or.inl hlocal), if_pos hlocal, Option.map_eq_some_iff]
    constructor
    · rintro ⟨channel, hchannel, rfl⟩
      obtain ⟨hroom, rfl⟩ := copy_zeroed.mp hchannel
      exact ⟨hroom, rfl⟩
    · rintro ⟨hroom, rfl⟩
      exact ⟨_, copy_zeroed.mpr ⟨hroom, rfl⟩, rfl⟩
  by_cases hmask : item.head? = some 36
  · rw [if_neg hlocal, if_pos hmask, if_pos (Or.inr (Or.inl hmask)), if_neg hlocal, if_pos hmask,
      Option.map_eq_some_iff]
    constructor
    · rintro ⟨mask, hcopy, rfl⟩
      obtain ⟨hroom, rfl⟩ := copy_zeroed.mp hcopy
      exact ⟨hroom, rfl⟩
    · rintro ⟨hroom, rfl⟩
      exact ⟨_, copy_zeroed.mpr ⟨hroom, rfl⟩, rfl⟩
  by_cases hboth : item.head? = some 35
  · rw [if_neg hlocal, if_neg hmask, if_pos hboth, if_pos (Or.inr (Or.inr hboth)), if_neg hlocal,
      if_neg hmask, if_pos hboth, Option.bind_eq_some_iff]
    constructor
    · rintro ⟨mask, hcopy, hrest⟩
      obtain ⟨channel, hchannel, rfl⟩ := Option.map_eq_some_iff.mp hrest
      obtain ⟨hroom, rfl⟩ := copy_zeroed.mp hcopy
      obtain ⟨-, rfl⟩ := copy_zeroed.mp hchannel
      exact ⟨hroom, rfl⟩
    · rintro ⟨hroom, rfl⟩
      exact ⟨_, copy_zeroed.mpr ⟨hroom, rfl⟩, Option.map_eq_some_iff.mpr
        ⟨_, copy_zeroed.mpr ⟨hroom, rfl⟩, rfl⟩⟩
  have hnick : ¬ (item.head? = some 38 ∨ item.head? = some 36 ∨ item.head? = some 35) := by
    rintro (h | h | h)
    · exact hlocal h
    · exact hmask h
    · exact hboth h
  rw [if_neg hlocal, if_neg hmask, if_neg hboth, if_neg hnick, if_neg hlocal, if_neg hmask,
    if_neg hboth]
  dsimp only
  generalize item.takeWhile (· ≠ 64) = name
  have hname (hroom : HasRoom maxNickLen name) : HasRoom maxNameLen name :=
    Nat.le_trans hroom (by decide)
  cases item.dropWhile (· ≠ 64) with
  | nil =>
    dsimp only
    constructor
    · intro h
      obtain ⟨user, huser, h⟩ := Option.bind_eq_some_iff.mp h
      obtain ⟨nick, hcopy, h⟩ := Option.bind_eq_some_iff.mp h
      obtain ⟨-, rfl⟩ := copy_zeroed.mp huser
      obtain ⟨hroom, rfl⟩ := copy_zeroed.mp hcopy
      exact ⟨hroom, (Option.some.inj h).symm⟩
    · rintro ⟨hroom, rfl⟩
      refine Option.bind_eq_some_iff.mpr ⟨_, copy_zeroed.mpr ⟨hname hroom, rfl⟩, ?_⟩
      exact Option.bind_eq_some_iff.mpr ⟨_, copy_zeroed.mpr ⟨hroom, rfl⟩, rfl⟩
  | cons c host =>
    dsimp only
    constructor
    · intro h
      obtain ⟨user, huser, h⟩ := Option.bind_eq_some_iff.mp h
      obtain ⟨nick, hcopy, h⟩ := Option.bind_eq_some_iff.mp h
      obtain ⟨block, hhost, rfl⟩ := Option.map_eq_some_iff.mp h
      obtain ⟨-, rfl⟩ := copy_zeroed.mp huser
      obtain ⟨hroom, -⟩ := copy_zeroed.mp hcopy
      obtain ⟨hmore, rfl⟩ := copy_zeroed.mp hhost
      exact ⟨⟨hroom, hmore⟩, rfl⟩
    · rintro ⟨⟨hroom, hmore⟩, rfl⟩
      refine Option.bind_eq_some_iff.mpr ⟨_, copy_zeroed.mpr ⟨hname hroom, rfl⟩, ?_⟩
      refine Option.bind_eq_some_iff.mpr ⟨_, copy_zeroed.mpr ⟨hroom, rfl⟩, ?_⟩
      exact Option.map_eq_some_iff.mpr ⟨_, copy_zeroed.mpr ⟨hmore, rfl⟩, rfl⟩

/-! ## The parameters and targets -/

theorem targetMeets_nil : TargetMeets HasRoom [] := Nat.zero_le _

theorem puts_iff : (decide (text ≠ [])) = false ↔ text = [] := by
  rw [decide_eq_false_iff_not, not_not]

theorem storeAll_targets {items : List (List UInt8)} {target : Block IrcTarget maxTargets} :
    (IrcRequest.zero.target.storeAll storeTarget (· ≠ []) 0 items) = some target ↔
      (∀ item ∈ items.take maxTargets, TargetMeets HasRoom item) ∧
        (∀ item ∈ items.drop maxTargets, item = []) ∧
        target = Block.laid _ .zero targetOf items := by
  have hblank (item : List UInt8) (h : decide (item ≠ []) = false) : targetOf item = .zero := by
    rw [puts_iff.mp h, targetOf_nil]
  refine (Block.storeAll_laid (fun _ _ _ => storeTarget_iff) hblank).trans ?_
  refine and_congr (forall₂_congr (fun item _ => ?_))
    (and_congr_left' (forall₂_congr (fun item _ => puts_iff)))
  constructor
  · intro h
    by_cases hnil : item = []
    · rw [hnil]
      exact targetMeets_nil
    · exact h (decide_eq_true hnil)
  · exact fun h _ => h

theorem storeAll_paras {texts : List (List UInt8)}
    {para : Block (Block UInt8 maxMsgLen) maxParams} :
    (IrcRequest.zero.para.storeAll Block.copy (· ≠ []) 0 texts) = some para ↔
      (∀ text ∈ texts.take maxParams, HasRoom maxMsgLen text) ∧
        (∀ text ∈ texts.drop maxParams, text = []) ∧
        para = Block.laid _ (zeroed _) (field maxMsgLen) texts := by
  have hblank (text : List UInt8) (h : decide (text ≠ []) = false) :
      field maxMsgLen text = zeroed _ := by
    rw [puts_iff.mp h, field_nil]
  refine (Block.storeAll_laid (fun _ _ _ => copy_zeroed) hblank).trans ?_
  refine and_congr (forall₂_congr (fun text _ => ?_))
    (and_congr_left' (forall₂_congr (fun text _ => puts_iff)))
  constructor
  · intro h
    by_cases hnil : text = []
    · rw [hnil]
      exact Nat.zero_le _
    · exact h (decide_eq_true hnil)
  · exact fun h _ => h

theorem firstChar_laid {texts : List (List UInt8)} (hstored : ∀ text ∈ texts.take maxParams,
    HasRoom maxMsgLen text) (hmore : ∀ text ∈ texts.drop maxParams, text = []) {i : Nat}
    {text : List UInt8} (htext : texts[i]? = some text) :
    firstChar (Block.laid _ (zeroed _) (field maxMsgLen) texts) i = text.headD 0 := by
  unfold firstChar
  by_cases hi : i < maxParams
  · have hmem : text ∈ texts.take maxParams := by
      refine List.mem_of_getElem? (i := i) ?_
      rw [List.getElem?_take_of_lt hi, htext]
    rw [Block.getElem?_laid hi htext, Option.elim_some, field, Block.cells_text (hstored text hmem)]
    cases text with
    | nil => rfl
    | cons c text => rfl
  · have hmem : text ∈ texts.drop maxParams := by
      refine List.mem_of_getElem? (i := i - maxParams) ?_
      rw [List.getElem?_drop, Nat.add_sub_cancel' (Nat.not_lt.mp hi), htext]
    rw [hmore text hmem, List.getElem?_eq_none, Option.elim_none, List.headD_nil]
    rw [Block.size]
    exact Nat.not_lt.mp hi

/-- The parameters, counted without the last one if it holds the empty string. -/
theorem parasCount_eq (hstored : ∀ text ∈ (parasOf line).take maxParams, HasRoom maxMsgLen text)
    (hmore : ∀ text ∈ (parasOf line).drop maxParams, text = []) :
    (if 0 < (parasOf line).length ∧ firstChar
        (Block.laid _ (zeroed _) (field maxMsgLen) (parasOf line)) ((parasOf line).length - 1) = 0
      then (parasOf line).length - 1 else (parasOf line).length) = parasCount line := by
  unfold parasCount
  cases hlast : (parasOf line).getLast? with
  | none =>
    rw [List.getLast?_eq_none_iff.mp hlast]
    rfl
  | some text =>
    have hne : parasOf line ≠ [] := fun h => by
      rw [h] at hlast
      exact Option.some_ne_none _ hlast.symm
    rw [List.getLast?_eq_getElem?] at hlast
    rw [firstChar_laid hstored hmore hlast, Option.elim_some]
    by_cases hzero : text.headD 0 = 0
    · rw [if_pos ⟨List.length_pos_iff.mpr hne, hzero⟩, if_pos (decide_eq_true hzero)]
    · rw [if_neg (fun h => hzero h.2), if_neg (fun h => hzero (of_decide_eq_true h))]

/-! ## The whole request -/

theorem stringOf_headD_zero (h : text.headD 0 = 0) : stringOf 0 text = [] := by
  cases text with
  | nil => rfl
  | cons c text =>
    rw [List.headD_cons] at h
    rw [h]
    rfl

theorem fits_of_headD (hn : 0 < n) (hroom : HasRoom n text) (h : text.headD 0 = 0) :
    Fits 0 n text := by
  cases text with
  | nil => exact Or.inl hn
  | cons c text =>
    rw [List.headD_cons] at h
    rw [h] at hroom ⊢
    exact (Nat.lt_or_eq_of_le hroom).imp_right (fun heq => ⟨heq, List.mem_cons_self⟩)

/-- If no parameter counts, the first one holds the empty string. -/
theorem headD_of_parasCount (h : parasCount line = 0) :
    ((parasOf line).headD []).headD 0 = 0 := by
  unfold parasCount at h
  rcases hparas : parasOf line with _ | ⟨text, texts⟩
  · rfl
  · rw [hparas] at h
    cases texts with
    | nil =>
      rw [List.headD_cons]
      by_contra hne
      rw [List.getLast?_singleton, Option.elim_some,
        if_neg (fun hzero => hne (of_decide_eq_true hzero))] at h
      exact Nat.one_ne_zero h
    | cons more texts =>
      rw [List.length_cons, List.length_cons] at h
      split at h <;> omega

theorem targetsOf_of_parasCount (h : parasCount line = 0) : targetsOf line = [] := by
  unfold targetsOf
  rw [stringOf_headD_zero (headD_of_parasCount h)]
  rfl

theorem ircParseTarget_iff {request r : IrcRequest}
    (hroom : HasRoom maxMsgLen ((parasOf line).headD []))
    (hpara : request.para = Block.laid _ (zeroed _) (field maxMsgLen) (parasOf line))
    (hparas : request.paras = parasCount line)
    (htarget : request.target = IrcRequest.zero.target) :
    ircParseTarget request 0 = some r ↔ Fits 0 maxMsgLen ((parasOf line).headD []) ∧
      (∀ item ∈ (targetsOf line).take maxTargets, TargetMeets HasRoom item) ∧
      (∀ item ∈ (targetsOf line).drop maxTargets, item = []) ∧
      r = { request with
        target := Block.laid _ .zero targetOf (targetsOf line)
        targets := (targetsOf line).length } := by
  unfold ircParseTarget
  by_cases hzero : parasCount line = 0
  · have hsame : Block.laid maxTargets IrcTarget.zero targetOf [] = request.target := by
      rw [Block.laid_nil, htarget]
      rfl
    rw [if_pos (by omega), targetsOf_of_parasCount hzero, hsame, Option.some_inj]
    constructor
    · rintro rfl
      exact ⟨fits_of_headD (by decide) hroom (headD_of_parasCount hzero),
        fun _ h => absurd h List.not_mem_nil, fun _ h => absurd h List.not_mem_nil, rfl⟩
    · exact fun h => h.2.2.2.symm
  · have hfirst : (parasOf line)[0]? = some ((parasOf line).headD []) := by
      cases hlist : parasOf line with
      | nil =>
        refine absurd ?_ hzero
        unfold parasCount
        rw [hlist]
        rfl
      | cons text texts => rfl
    rw [if_neg (by omega), hpara, Block.getElem?_laid (by decide) hfirst, Option.bind_some, htarget]
    constructor
    · intro h
      obtain ⟨p, hp, h⟩ := Option.bind_eq_some_iff.mp h
      obtain ⟨hfits, rfl⟩ := (cText_field hroom).mp hp
      obtain ⟨target, hstore, rfl⟩ := Option.map_eq_some_iff.mp h
      obtain ⟨hmeets, hmore, rfl⟩ := storeAll_targets.mp hstore
      exact ⟨hfits, hmeets, hmore, rfl⟩
    · rintro ⟨hfits, hmeets, hmore, rfl⟩
      refine Option.bind_eq_some_iff.mpr ⟨_, (cText_field hroom).mpr ⟨hfits, rfl⟩, ?_⟩
      exact Option.map_eq_some_iff.mpr ⟨_, storeAll_targets.mpr ⟨hmeets, hmore, rfl⟩, rfl⟩

theorem within_headD {texts : List (List UInt8)}
    (hstored : ∀ text ∈ texts.take maxParams, HasRoom maxMsgLen text) :
    HasRoom maxMsgLen (texts.headD []) := by
  cases texts with
  | nil => exact Nat.zero_le _
  | cons text texts => exact hstored text List.mem_cons_self

/-- Which lines are parsed, and the request afterwards. -/
theorem ircParseRequest_iff {r : IrcRequest} :
    ircParseRequest line = some r ↔ LineMeets HasRoom line ∧ r = requestOf line := by
  constructor
  · intro h
    obtain ⟨server, hserver, h⟩ := Option.bind_eq_some_iff.mp h
    obtain ⟨nick, hnick, h⟩ := Option.bind_eq_some_iff.mp h
    obtain ⟨user, huser, h⟩ := Option.bind_eq_some_iff.mp h
    obtain ⟨host, hhost, h⟩ := Option.bind_eq_some_iff.mp h
    obtain ⟨command, hcommand, h⟩ := Option.bind_eq_some_iff.mp h
    obtain ⟨para, hpara, h⟩ := Option.bind_eq_some_iff.mp h
    obtain ⟨-, rfl⟩ := copy_zeroed.mp hserver
    obtain ⟨hname, rfl⟩ := copy_zeroed.mp hnick
    obtain ⟨huserRoom, rfl⟩ := copy_zeroed.mp huser
    obtain ⟨hhostRoom, rfl⟩ := copy_zeroed.mp hhost
    obtain ⟨hcommandRoom, rfl⟩ := copy_zeroed.mp hcommand
    obtain ⟨hstored, hmore, rfl⟩ := storeAll_paras.mp hpara
    have hparas := parasCount_eq hstored hmore
    dsimp only at h
    obtain ⟨hfits, hmeets, hnone, hr⟩ :=
      (ircParseTarget_iff (within_headD hstored) (by rfl) (by exact hparas) (by rfl)).mp h
    refine ⟨⟨hname, huserRoom, hhostRoom, hcommandRoom, hstored, hmore, hfits, hmeets, hnone⟩, ?_⟩
    exact hr.trans (congrArg (fun n => { requestOf line with paras := n }) hparas)
  · rintro ⟨h, rfl⟩
    have hname : HasRoom maxNameLen (splitOrigin line).name := Nat.le_trans h.name (by decide)
    have hparas := parasCount_eq h.paras h.morePara
    refine Option.bind_eq_some_iff.mpr ⟨_, copy_zeroed.mpr ⟨hname, rfl⟩, ?_⟩
    refine Option.bind_eq_some_iff.mpr ⟨_, copy_zeroed.mpr ⟨h.name, rfl⟩, ?_⟩
    refine Option.bind_eq_some_iff.mpr ⟨_, copy_zeroed.mpr ⟨h.user, rfl⟩, ?_⟩
    refine Option.bind_eq_some_iff.mpr ⟨_, copy_zeroed.mpr ⟨h.host, rfl⟩, ?_⟩
    refine Option.bind_eq_some_iff.mpr ⟨_, copy_zeroed.mpr ⟨h.command, rfl⟩, ?_⟩
    refine Option.bind_eq_some_iff.mpr
      ⟨_, storeAll_paras.mpr ⟨h.paras, h.morePara, rfl⟩, ?_⟩
    dsimp only
    refine (ircParseTarget_iff (within_headD h.paras) (by rfl) (by exact hparas)
      (by rfl)).mpr ⟨h.first, h.targets, h.moreTargets, ?_⟩
    exact congrArg (fun n => { requestOf line with paras := n }) hparas.symm

end Serveez.Irc.Request
