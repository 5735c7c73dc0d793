import Serveez.Irc.Request
import Serveez.Irc.ListItems

/-!
# Bounds of a line

The loops that copy the parts of a line look at the end of the line only, the parameters and targets
are counted without a limit, and each mode with a parameter takes the next one.

* `requestOf_terminated`: when the strings of a request end in their arrays.
* `parseTarget_ends_iff`: the same when the targets of another parameter are parsed.
* `modeParas_iff`: which parameters the modes look at.
* `lineBounds_iff`: when all stays inside.
-/

namespace Serveez.Irc.LineBounds

open Lib Request ListItems
open Channels (maxMsgLen maxParams)
open Messages (maxNameLen)

/-- All strings of a target end in their arrays. -/
structure TargetEnds (target : IrcTarget) : Prop where
  channel : target.channel.Terminated 0
  user : target.user.Terminated 0
  host : target.host.Terminated 0
  nick : target.nick.Terminated 0
  mask : target.mask.Terminated 0

/-- All strings of a request end in their arrays. -/
structure RequestEnds (r : Request.IrcRequest) : Prop where
  server : r.server.Terminated 0
  nick : r.nick.Terminated 0
  user : r.user.Terminated 0
  host : r.host.Terminated 0
  request : r.request.Terminated 0
  para : ∀ row ∈ r.para.cells, row.Terminated 0
  target : ∀ target ∈ r.target.cells, TargetEnds target

/-- A line is parsed with all writes in the arrays, and all strings end there. -/
def SafeLine (line : List UInt8) : Prop :=
  ∃ request, ircParseRequest line = some request ∧ RequestEnds request

/-- The targets that are in a parameter of a line. -/
def targetsAt (line : List UInt8) (para : Nat) : List (List UInt8) :=
  let p := stringOf 0 ((parasOf line).getD para [])
  targetTexts p.length p

/-- A line is parsed, and then the targets of one of its parameters, as WHOIS does with the second,
with all writes in the arrays and all strings ended there. -/
def SafeTargets (line : List UInt8) (para : Nat) : Prop :=
  ∃ request, ircParseRequest line = some request ∧ RequestEnds request ∧
    ∃ r, ircParseTarget request para = some r ∧ RequestEnds r

/-- If the parameter is there it has an entry, its targets fit, and there are not too many. -/
def ParaMeets (line : List UInt8) (para : Nat) : Prop :=
  para < parasCount line → para < maxParams ∧
    (∀ item ∈ (targetsAt line para).take maxTargets, TargetMeets (Fits 0) item) ∧
    ∀ item ∈ (targetsAt line para).drop maxTargets, item = []

/-- An item is copied with all writes in the static buffer, and ends there. -/
def SafeItem (target : Block UInt8 maxNameLen) (para : CString maxMsgLen) (nr : Nat) : Prop :=
  ∃ b, ircGetTarget target para.text nr = some b ∧ b.Terminated 0

/-! ## Modes -/

/-- The parameters that the loop of `irc_mode_callback` looks at. -/
def modeParas (paras : Nat) : Bool → Nat → List UInt8 → List Nat
  | _, _, [] => []
  | set, para, c :: req =>
    if c = 43 then modeParas paras true para req
    else if c = 45 then modeParas paras false para req
    else if c = 98 then
      if paras ≤ para then modeParas paras set para req
      else para :: modeParas paras set (para + 1) req
    else if c = 111 ∨ c = 118 then para :: modeParas paras set (para + 1) req
    else if c = 108 ∨ c = 107 then
      para :: modeParas paras set (if set then para + 1 else para) req
    else modeParas paras set para req

/-- All parameters of the modes are below `MAX_PARAMS`. -/
def SafeModes (paras : Nat) (modes : List UInt8) : Prop :=
  ∀ para ∈ modeParas paras true 2 modes, para < maxParams

/-- Whether modes are set after some modes, of which the last one comes first. -/
def setAfter : List UInt8 → Bool
  | [] => true
  | c :: before => if c = 43 then true else if c = 45 then false else setAfter before

/-- A mode with a parameter; `b` has one only if there is one left. -/
def HasPara (paras taken : Nat) (c : UInt8) : Prop :=
  c = 111 ∨ c = 118 ∨ c = 108 ∨ c = 107 ∨ c = 98 ∧ taken + 2 < paras

/-- The next mode finds another parameter; a limit or a key that is removed leaves its own. -/
def Takes (paras taken : Nat) (set : Bool) (c : UInt8) : Prop :=
  HasPara paras taken c ∧ (c = 108 ∨ c = 107 → set = true)

instance (paras taken : Nat) (c : UInt8) : Decidable (HasPara paras taken c) :=
  inferInstanceAs (Decidable (c = 111 ∨ c = 118 ∨ c = 108 ∨ c = 107 ∨ c = 98 ∧ taken + 2 < paras))

instance (paras taken : Nat) (set : Bool) (c : UInt8) : Decidable (Takes paras taken set c) :=
  inferInstanceAs (Decidable (HasPara paras taken c ∧ (c = 108 ∨ c = 107 → set = true)))

/-- How many parameters some modes take, of which the last one comes first. -/
def takenAfter (paras : Nat) : List UInt8 → Nat
  | [] => 0
  | c :: before =>
    takenAfter paras before +
      if Takes paras (takenAfter paras before) (setAfter before) c then 1 else 0

/-- Before each mode with a parameter there are not too many that take one. -/
def ModesMeet (paras : Nat) (modes : List UInt8) : Prop :=
  ∀ before c rest, modes = before ++ c :: rest →
    HasPara paras (takenAfter paras before.reverse) c →
    takenAfter paras before.reverse + 2 < maxParams

/-! ## Requests -/

variable {line item : List UInt8} {n : Nat}

theorem terminated_zeroed (hn : 0 < n) : (zeroed n).Terminated 0 := by
  rw [Block.Terminated, zeroed, Block.replicate]
  exact List.mem_replicate.mpr ⟨Nat.ne_of_gt hn, rfl⟩

/-- The last byte of each array is still zero. -/
structure TargetClear (target : IrcTarget) : Prop where
  channel : target.channel.cells.getLast? = some 0
  user : target.user.cells.getLast? = some 0
  host : target.host.cells.getLast? = some 0
  nick : target.nick.cells.getLast? = some 0
  mask : target.mask.cells.getLast? = some 0

theorem TargetClear.ends {target : IrcTarget} (h : TargetClear target) : TargetEnds target :=
  ⟨List.mem_of_getLast? h.channel, List.mem_of_getLast? h.user, List.mem_of_getLast? h.host,
    List.mem_of_getLast? h.nick, List.mem_of_getLast? h.mask⟩

/-- Where there is room for a terminator behind a text, the last byte is zero. -/
theorem clear_field {text : List UInt8} (h : text.length < n) :
    (field n text).cells.getLast? = some 0 := by
  have hne : n - text.length ≠ 0 := by omega
  rw [field, Block.cells_text (Nat.le_of_lt h), List.getLast?_append, List.getLast?_replicate,
    if_neg hne]
  rfl

theorem clear_zeroed (hn : 0 < n) : (zeroed n).cells.getLast? = some 0 := by
  rw [← field_nil]
  exact clear_field hn

theorem clear_zero : TargetClear .zero :=
  have h : (zeroed maxNameLen).cells.getLast? = some 0 := clear_zeroed (by decide)
  ⟨h, h, h, clear_zeroed (by decide), h⟩

theorem ends_zero : TargetEnds .zero := clear_zero.ends

/-- A name that has room in a nick ends in a longer array. -/
theorem fits_name {name : List UInt8} (h : name.length ≤ maxNickLen) : Fits 0 maxNameLen name :=
  Or.inl (Nat.lt_of_le_of_lt h (by decide))

theorem hasRoom_of_fits {text : List UInt8} (h : Fits 0 n text) : HasRoom n text :=
  h.elim Nat.le_of_lt (fun hfull => Nat.le_of_eq hfull.1)

theorem targetEnds_iff {target : IrcTarget} : TargetEnds target ↔
    target.channel.Terminated 0 ∧ target.user.Terminated 0 ∧ target.host.Terminated 0 ∧
      target.nick.Terminated 0 ∧ target.mask.Terminated 0 :=
  ⟨fun h => ⟨h.channel, h.user, h.host, h.nick, h.mask⟩,
    fun ⟨channel, user, host, nick, mask⟩ => ⟨channel, user, host, nick, mask⟩⟩

/-- A target over an old one, of which it leaves the last bytes. -/
theorem storeTarget_ends_iff {target : IrcTarget} (h : TargetClear target) :
    (∃ t, storeTarget target item = some t ∧ TargetEnds t) ↔ TargetMeets (Fits 0) item := by
  have hends := targetEnds_iff.mp h.ends
  have hchannel : _ ↔ Fits 0 maxNameLen item := Block.copy_terminated_iff h.channel
  have hmask : _ ↔ Fits 0 maxNameLen item := Block.copy_terminated_iff h.mask
  unfold storeTarget TargetMeets
  by_cases hlocal : item.head? = some 38
  · simp [hlocal, targetEnds_iff, hends, hchannel]
  by_cases hmasked : item.head? = some 36
  · simp [hmasked, targetEnds_iff, hends, hmask]
  by_cases hboth : item.head? = some 35
  · rw [if_neg hlocal, if_neg hmasked, if_pos hboth, if_pos (Or.inr (Or.inr hboth))]
    simp only [targetEnds_iff, Option.bind_eq_some_iff, Option.map_eq_some_iff]
    grind
  simp only [hlocal, hmasked, hboth, or_self, if_false, targetEnds_iff, Option.bind_eq_some_iff]
  generalize item.takeWhile (· ≠ 64) = name
  have hnick : _ ↔ Fits 0 maxNickLen name := Block.copy_terminated_iff h.nick
  have huser : _ ↔ Fits 0 maxNameLen name := Block.copy_terminated_iff h.user
  cases item.dropWhile (· ≠ 64) with
  | nil =>
    have hlonger (hfits : Fits 0 maxNickLen name) := fits_name (hasRoom_of_fits hfits)
    grind
  | cons c host =>
    have hhost : _ ↔ Fits 0 maxNameLen host := Block.copy_terminated_iff h.host
    have hroom : (∃ a, target.nick.copy name = some a) ↔ name.length ≤ maxNickLen :=
      ⟨fun ⟨_, ha⟩ => (Block.copy_cells_iff.mp ha).1, fun hle => (Block.exists_copy hle).imp
        fun _ ha => ha.1⟩
    have hzero : (zeroed maxNickLen).Terminated 0 := terminated_zeroed (by decide)
    simp only [Option.map_eq_some_iff]
    grind [fits_name]

theorem targetOf_ends (h : TargetMeets HasRoom item) :
    TargetEnds (targetOf item) ↔ TargetMeets (Fits 0) item := by
  rw [← storeTarget_ends_iff clear_zero]
  constructor
  · exact fun hends => ⟨_, storeTarget_iff.mpr ⟨h, rfl⟩, hends⟩
  · rintro ⟨t, ht, hends⟩
    rw [← (storeTarget_iff.mp ht).2]
    exact hends

/-- The strings of a request end in their arrays exactly if they fit. -/
theorem requestOf_terminated (h : LineMeets HasRoom line) :
    RequestEnds (requestOf line) ↔ LineMeets (Fits 0) line := by
  have hrow : (zeroed maxMsgLen).Terminated 0 := terminated_zeroed (by decide)
  have hpara : (∀ row ∈ (requestOf line).para.cells, row.Terminated 0) ↔
      ∀ text ∈ (parasOf line).take maxParams, Fits 0 maxMsgLen text := by
    refine (Block.forall_mem_laid hrow).trans ?_
    exact forall₂_congr (fun text htext => terminated_field (h.paras text htext))
  have htarget : (∀ target ∈ (requestOf line).target.cells, TargetEnds target) ↔
      ∀ item ∈ (targetsOf line).take maxTargets, TargetMeets (Fits 0) item := by
    refine (Block.forall_mem_laid ends_zero).trans ?_
    exact forall₂_congr (fun item hitem => targetOf_ends (h.targets item hitem))
  constructor
  · intro hends
    exact
      { name := (terminated_field h.name).mp hends.nick
        user := (terminated_field h.user).mp hends.user
        host := (terminated_field h.host).mp hends.host
        command := (terminated_field h.command).mp hends.request
        paras := hpara.mp hends.para
        morePara := h.morePara
        first := h.first
        targets := htarget.mp hends.target
        moreTargets := h.moreTargets }
  · intro hfits
    exact
      { server := (terminated_field (Nat.le_trans h.name (by decide))).mpr (fits_name h.name)
        nick := (terminated_field h.name).mpr hfits.name
        user := (terminated_field h.user).mpr hfits.user
        host := (terminated_field h.host).mpr hfits.host
        request := (terminated_field h.command).mpr hfits.command
        para := hpara.mpr hfits.paras
        target := htarget.mpr hfits.targets }

theorem targetMeets_hasRoom (h : TargetMeets (Fits 0) item) : TargetMeets HasRoom item := by
  unfold TargetMeets at h ⊢
  split at h
  · next hfirst =>
    rw [if_pos hfirst]
    exact hasRoom_of_fits h
  · next hfirst =>
    rw [if_neg hfirst]
    dsimp only at h ⊢
    split at h
    · exact hasRoom_of_fits h
    · exact ⟨h.1, hasRoom_of_fits h.2⟩

theorem lineMeets_hasRoom (h : LineMeets (Fits 0) line) : LineMeets HasRoom line where
  name := hasRoom_of_fits h.name
  user := hasRoom_of_fits h.user
  host := hasRoom_of_fits h.host
  command := hasRoom_of_fits h.command
  paras text htext := hasRoom_of_fits (h.paras text htext)
  morePara := h.morePara
  first := h.first
  targets item hitem := targetMeets_hasRoom (h.targets item hitem)
  moreTargets := h.moreTargets

theorem safeLine_iff : SafeLine line ↔ LineMeets (Fits 0) line := by
  constructor
  · rintro ⟨request, hparse, hends⟩
    obtain ⟨hmeets, rfl⟩ := ircParseRequest_iff.mp hparse
    exact (requestOf_terminated hmeets).mp hends
  · intro h
    have hmeets := lineMeets_hasRoom h
    exact ⟨_, ircParseRequest_iff.mpr ⟨hmeets, rfl⟩, (requestOf_terminated hmeets).mpr h⟩

/-! ## The targets of any parameter -/

theorem zero_notMem_targetTexts {rounds : Nat} {p : List UInt8} (hp : 0 ∉ p)
    (hitem : item ∈ targetTexts rounds p) : 0 ∉ item := by
  induction rounds generalizing p with
  | zero => exact absurd hitem List.not_mem_nil
  | succ rounds ih =>
    rw [targetTexts] at hitem
    split_ifs at hitem
    · exact absurd hitem List.not_mem_nil
    · rcases List.mem_cons.mp hitem with rfl | hitem
      · exact fun hmem => hp ((List.takeWhile_prefix _).subset hmem)
      · refine ih (fun hmem => hp ?_) hitem
        exact (List.dropWhile_suffix _).subset (List.mem_of_mem_tail hmem)

/-- A string that fits leaves the last byte of its array. -/
theorem targetOf_clear (h : TargetMeets (Fits 0) item) (hzero : 0 ∉ item) :
    TargetClear (targetOf item) := by
  have hclear {n : Nat} {text : List UInt8} (hfits : Fits 0 n text) (hsub : text ⊆ item) :
      (field n text).cells.getLast? = some 0 :=
    clear_field (hfits.resolve_right fun hfull => hzero (hsub hfull.2))
  have hself : item ⊆ item := List.Subset.refl item
  unfold TargetMeets at h
  unfold targetOf
  split_ifs with hlocal hmask hboth
  · rw [if_pos (Or.inl hlocal)] at h
    exact { clear_zero with channel := hclear h hself }
  · rw [if_pos (Or.inr (Or.inl hmask))] at h
    exact { clear_zero with mask := hclear h hself }
  · rw [if_pos (Or.inr (Or.inr hboth))] at h
    exact { clear_zero with mask := hclear h hself, channel := hclear h hself }
  · have hname : item.takeWhile (· ≠ 64) ⊆ item := (List.takeWhile_prefix _).subset
    have hhost : item.dropWhile (· ≠ 64) ⊆ item := (List.dropWhile_suffix _).subset
    rw [if_neg (by simp [hlocal, hmask, hboth])] at h
    dsimp only at h ⊢
    generalize item.takeWhile (· ≠ 64) = name at h hname
    cases hrest : item.dropWhile (· ≠ 64) with
    | nil =>
      rw [hrest] at h
      have huser := hclear (fits_name (hasRoom_of_fits h)) hname
      exact { clear_zero with user := huser, nick := hclear h hname }
    | cons c host =>
      rw [hrest] at h hhost
      have huser := hclear (fits_name h.1) hname
      have hmore : host ⊆ item := fun _ hd => hhost (List.mem_cons_of_mem c hd)
      exact { clear_zero with user := huser, host := hclear h.2 hmore }

/-- The targets of a parameter are parsed over those of the first one. -/
theorem parseTarget_ends_iff (h : LineMeets (Fits 0) line) (para : Nat) :
    (∃ r, ircParseTarget (requestOf line) para = some r ∧ RequestEnds r) ↔ ParaMeets line para := by
  have hends : RequestEnds (requestOf line) := (requestOf_terminated (lineMeets_hasRoom h)).mpr h
  unfold ircParseTarget ParaMeets
  by_cases hpara : (requestOf line).paras ≤ para
  · rw [if_pos hpara]
    exact iff_of_true ⟨_, rfl, { hends with }⟩ fun hlt => absurd hpara (Nat.not_le.mpr hlt)
  have hcount : para < parasCount line := Nat.not_le.mp hpara
  rw [if_neg hpara, forall_prop_of_true hcount]
  by_cases hindex : para < maxParams
  · -- the string that the parameter holds
    have hlength : para < (parasOf line).length := by
      unfold parasCount at hcount
      split at hcount <;> omega
    obtain ⟨text, htext⟩ : ∃ text, (parasOf line)[para]? = some text :=
      ⟨_, List.getElem?_eq_getElem hlength⟩
    have hmem : text ∈ (parasOf line).take maxParams := by
      refine List.mem_of_getElem? (i := para) ?_
      rw [List.getElem?_take_of_lt hindex, htext]
    have hstring : cText (field maxMsgLen text) = some (stringOf 0 text) :=
      (cText_field (hasRoom_of_fits (h.paras text hmem))).mpr ⟨h.paras text hmem, rfl⟩
    have hitems : targetTexts (stringOf 0 text).length (stringOf 0 text) = targetsAt line para := by
      unfold targetsAt
      rw [List.getD_eq_getElem?_getD, htext, Option.getD_some]
    have hold : ∀ target ∈ (requestOf line).target.cells, TargetClear target := by
      refine (Block.forall_mem_laid clear_zero).mpr fun item hitem => ?_
      refine targetOf_clear (h.targets item hitem) ?_
      exact zero_notMem_targetTexts (nul_notMem_stringOf 0 _) (List.mem_of_mem_take hitem)
    have hstore : (∃ target, (requestOf line).target.storeAll storeTarget (· ≠ []) 0
          (targetsAt line para) = some target ∧ ∀ t ∈ target.cells, TargetEnds t) ↔ _ :=
      Block.storeAll_over_iff (fun _ => TargetClear.ends)
        (fun _ _ _ => storeTarget_ends_iff) hold
    rw [show (requestOf line).para.cells[para]? = some (field maxMsgLen text) from
      Block.getElem?_laid hindex htext, Option.bind_some, hstring, Option.bind_some]
    dsimp only
    rw [hitems]
    constructor
    · rintro ⟨r, hr, hall⟩
      obtain ⟨target, htarget, rfl⟩ := Option.map_eq_some_iff.mp hr
      obtain ⟨hmeets, hmore⟩ := hstore.mp ⟨target, htarget, hall.target⟩
      refine ⟨hindex, fun item hitem => ?_, fun item hitem => puts_iff.mp (hmore item hitem)⟩
      by_cases hnil : item = []
      · rw [hnil]
        exact Or.inl (by decide)
      · exact hmeets item hitem (decide_eq_true hnil)
    · rintro ⟨-, hmeets, hmore⟩
      obtain ⟨target, htarget, hall⟩ := hstore.mpr
        ⟨fun item hitem _ => hmeets item hitem, fun item hitem => puts_iff.mpr (hmore item hitem)⟩
      exact ⟨_, Option.map_eq_some_iff.mpr ⟨target, htarget, rfl⟩, { hends with target := hall }⟩
  · rw [List.getElem?_eq_none (by rw [Block.size]; exact Nat.not_lt.mp hindex)]
    exact iff_of_false (fun ⟨_, hnone, _⟩ => Option.some_ne_none _ hnone.symm)
      fun hmeets => hindex hmeets.1

theorem safeTargets_iff (para : Nat) :
    SafeTargets line para ↔ LineMeets (Fits 0) line ∧ ParaMeets line para := by
  constructor
  · rintro ⟨request, hparse, hends, hrest⟩
    have hmeets := safeLine_iff.mp ⟨request, hparse, hends⟩
    obtain ⟨-, rfl⟩ := ircParseRequest_iff.mp hparse
    exact ⟨hmeets, (parseTarget_ends_iff hmeets para).mp hrest⟩
  · rintro ⟨hmeets, hpara⟩
    have hroom := lineMeets_hasRoom hmeets
    exact ⟨_, ircParseRequest_iff.mpr ⟨hroom, rfl⟩, (requestOf_terminated hroom).mpr hmeets,
      (parseTarget_ends_iff hmeets para).mpr hpara⟩

/-! ## Items -/

theorem safeItem_iff {target : Block UInt8 maxNameLen} {para : CString maxMsgLen} {nr : Nat} :
    SafeItem target para nr ↔
      (takenItem (para.text.splitOn 44) nr).length + 1 < maxNameLen := by
  constructor
  · rintro ⟨b, hb, hends⟩
    exact ((getTarget_iff para.ends).mp ⟨b, hb, hends, rfl⟩).1
  · intro h
    obtain ⟨b, hb, hends, -⟩ := (getTarget_iff para.ends).mpr ⟨h, rfl⟩
    exact ⟨b, hb, hends⟩

/-! ## The modes -/

/-- A mode looks at its parameter, and the others follow. -/
theorem modeParas_cons (paras : Nat) (done modes : List UInt8) (c : UInt8) :
    modeParas paras (setAfter done) (takenAfter paras done + 2) (c :: modes) =
      (if HasPara paras (takenAfter paras done) c then [takenAfter paras done + 2] else []) ++
        modeParas paras (setAfter (c :: done)) (takenAfter paras (c :: done) + 2) modes := by
  rw [modeParas, setAfter, takenAfter]
  by_cases hplus : c = 43
  · simp [hplus, HasPara, Takes]
  by_cases hminus : c = 45
  · simp [hminus, HasPara, Takes]
  rw [if_neg hplus, if_neg hminus, if_neg hplus, if_neg hminus]
  by_cases hban : c = 98
  · by_cases hleft : takenAfter paras done + 2 < paras
    · simp [hban, HasPara, Takes, hleft, Nat.not_le.mpr hleft, Nat.add_right_comm]
    · simp [hban, HasPara, Takes, hleft, Nat.not_lt.mp hleft]
  rw [if_neg hban]
  by_cases hclient : c = 111 ∨ c = 118
  · have hnot : ¬ (c = 108 ∨ c = 107) := by
      rcases hclient with rfl | rfl
      · decide
      · decide
    have hpara : HasPara paras (takenAfter paras done) c := hclient.imp_right Or.inl
    simp [hclient, hpara, hnot, Takes, Nat.add_right_comm]
  rw [if_neg hclient]
  by_cases harg : c = 108 ∨ c = 107
  · have hpara : HasPara paras (takenAfter paras done) c :=
      Or.inr (Or.inr (harg.imp_right Or.inl))
    by_cases hset : setAfter done = true
    · simp [harg, hpara, Takes, hset, Nat.add_right_comm]
    · simp [harg, hpara, Takes, hset]
  · have hnone : ¬ HasPara paras (takenAfter paras done) c := by
      rintro (h | h | h | h | ⟨h, -⟩)
      · exact hclient (Or.inl h)
      · exact hclient (Or.inr h)
      · exact harg (Or.inl h)
      · exact harg (Or.inr h)
      · exact hban h
    simp [harg, hnone, Takes]

theorem forall_cons_cut {P : List UInt8 → UInt8 → Prop} {c : UInt8} {modes : List UInt8} :
    (∀ before d rest, c :: modes = before ++ d :: rest → P before d) ↔
      P [] c ∧ ∀ before d rest, modes = before ++ d :: rest → P (c :: before) d := by
  constructor
  · intro h
    exact ⟨h [] c modes rfl, fun before d rest heq => h (c :: before) d rest (by rw [heq]; rfl)⟩
  · rintro ⟨hfirst, hrest⟩ before d rest heq
    cases before with
    | nil =>
      obtain ⟨rfl, -⟩ := List.cons.inj heq
      exact hfirst
    | cons c' before =>
      obtain ⟨rfl, htail⟩ := List.cons.inj heq
      exact hrest before d rest htail

/-- The loop stands behind some modes, of which the last one comes first. -/
theorem modeParas_iff (paras : Nat) (done modes : List UInt8) :
    (∀ para ∈ modeParas paras (setAfter done) (takenAfter paras done + 2) modes,
        para < maxParams) ↔
      ∀ before c rest, modes = before ++ c :: rest →
        HasPara paras (takenAfter paras (before.reverse ++ done)) c →
        takenAfter paras (before.reverse ++ done) + 2 < maxParams := by
  induction modes generalizing done with
  | nil =>
    refine iff_of_true (fun _ h => absurd h List.not_mem_nil) (fun before c rest h => ?_)
    exact absurd h.symm (List.append_ne_nil_of_right_ne_nil before (List.cons_ne_nil c rest))
  | cons c modes ih =>
    have hshift (before : List UInt8) :
        (c :: before).reverse ++ done = before.reverse ++ (c :: done) := by
      rw [List.reverse_cons, List.append_assoc, List.singleton_append]
    rw [modeParas_cons, List.forall_mem_append, ih, forall_cons_cut]
    simp only [hshift, List.reverse_nil, List.nil_append]
    refine and_congr_left' ?_
    split
    · next hpara =>
      refine ⟨fun h _ => h _ (List.mem_singleton_self _), fun h para hmem => ?_⟩
      rw [List.mem_singleton.mp hmem]
      exact h hpara
    · next hnone =>
      exact iff_of_true (fun _ h => absurd h List.not_mem_nil) (fun h => absurd h hnone)

/-- A line is parsed inside of the arrays exactly if its parts fit and there are not too many; so
are the targets of any of its parameters. An item of a list is copied inside of its buffer exactly
if there is room for a byte behind it, and the parameters of the modes are there exactly if not too
many are taken before. -/
theorem lineBounds_iff (line : List UInt8) (index : Nat) (target : Block UInt8 maxNameLen)
    (para : CString maxMsgLen) (nr paras : Nat) (modes : List UInt8) :
    (SafeLine line ↔ LineMeets (Fits 0) line) ∧
      (SafeTargets line index ↔ LineMeets (Fits 0) line ∧ ParaMeets line index) ∧
      (SafeItem target para nr ↔
        (takenItem (para.text.splitOn 44) nr).length + 1 < maxNameLen) ∧
      (SafeModes paras modes ↔ ModesMeet paras modes) := by
  refine ⟨safeLine_iff, safeTargets_iff index, safeItem_iff, ?_⟩
  have hmodes := modeParas_iff paras [] modes
  simp only [List.append_nil] at hmodes
  exact hmodes

/-- NICK with a nick of 17 characters. -/
theorem longNick_not_safeLine : ¬ ∀ line, SafeLine line := by
  intro hall
  let nick : List UInt8 := List.replicate 17 97
  let line : List UInt8 := [78, 73, 67, 75, 32] ++ nick
  have hmeets := safeLine_iff.mp (hall line)
  have hmem : nick ∈ (targetsOf line).take maxTargets := by decide +kernel
  have hroom := targetMeets_hasRoom (hmeets.targets nick hmem)
  have hlong : ¬ TargetMeets HasRoom nick := by
    intro h
    exact absurd (show 17 ≤ 16 from h) (by decide)
  exact hlong hroom

end Serveez.Irc.LineBounds
