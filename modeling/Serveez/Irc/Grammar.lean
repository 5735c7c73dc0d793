import Serveez.Irc.Request
import Mathlib.Algebra.Order.Group.Nat

/-!
# What a message says

A message has an origin, a command, parameters and a trailing text, and its first parameter is a
list of targets. The name in front is copied with its colon, and a trailing text that is empty does
not count as a parameter.

* `paraTexts_joined`: the parameters of a line that is built from some.
* `targetTexts_eq`: the targets of a parameter are its pieces at the commas.
* `recovered_iff`: which messages are recovered.
-/

namespace Serveez.Irc.Grammar

open Lib Request
open Channels (maxMsgLen maxParams)
open Messages (maxNameLen)

/-- `nick ['!' user] ['@' host]` -/
structure Sender where
  nick : CString maxNickLen
  user : Option (CString maxNameLen)
  host : Option (CString maxNameLen)
  nickChars : ∀ c ∈ nick.text, c ≠ 33 ∧ c ≠ 64 ∧ c ≠ 32
  userChars : ∀ text ∈ user, ∀ c ∈ text.text, c ≠ 64 ∧ c ≠ 32
  hostChars : ∀ text ∈ host, ∀ c ∈ text.text, c ≠ 32

/-- A command or a parameter is a word that does not begin with a colon. -/
structure Word (n : Nat) extends CString n where
  nonempty : text ≠ []
  noSpace : 32 ∉ text
  noColon : text.head? ≠ some 58

structure Message where
  sender : Option Sender
  command : Word maxNameLen
  paras : List (Word maxMsgLen)
  trailing : Option (CString maxMsgLen)
  few : paras.length + trailing.toList.length ≤ maxParams

/-- All parameters, with the trailing text. -/
def Message.texts (m : Message) : List (List UInt8) :=
  m.paras.map (·.text) ++ m.trailing.toList.map (·.text)

/-- One or more spaces. -/
def spaces (more : Nat) : List UInt8 := List.replicate (more + 1) 32

def Sender.line (s : Sender) : List UInt8 :=
  58 :: s.nick.text ++ s.user.elim [] (33 :: ·.text) ++ s.host.elim [] (64 :: ·.text)

/-- The parameters from the `n`th on, each behind its spaces. -/
def joined (more : Nat → Nat) :
    Nat → List (Word maxMsgLen) → Option (CString maxMsgLen) → List UInt8
  | n, [], trailing => trailing.elim [] (fun text => spaces (more n) ++ 58 :: text.text)
  | n, para :: paras, trailing =>
    spaces (more n) ++ (para.text ++ joined more (n + 1) paras trailing)

/-- The line of a message; `more` spaces are there besides the ones that are needed. -/
def Message.line (m : Message) (more : Nat → Nat) : List UInt8 :=
  m.sender.elim [] (fun s => s.line ++ spaces (more 0)) ++
    (m.command.text ++ joined more 1 m.paras m.trailing)

/-- The pieces between commas; there is none behind a comma at the end. -/
def piecesOf (text : List UInt8) : List (List UInt8) :=
  let pieces := text.splitOn 44
  if pieces.getLast? = some [] then pieces.dropLast else pieces

/-- The targets of the first parameter. -/
def Message.items (m : Message) : List (List UInt8) := piecesOf (m.texts.headD [])

/-! ## What is recovered -/

/-- An array holds a text with its terminator. -/
def Holds {n : Nat} (b : Block UInt8 n) (text : List UInt8) : Prop :=
  b.Terminated 0 ∧ b.string 0 = text

/-- A target is in the fields of its kind. -/
def InField (target : Request.IrcTarget) (item : List UInt8) : Prop :=
  if item.head? = some 38 then Holds target.channel item
  else if item.head? = some 36 then Holds target.mask item
  else if item.head? = some 35 then Holds target.mask item ∧ Holds target.channel item
  else
    match item.dropWhile (· ≠ 64) with
    | [] => Holds target.nick item
    | _ :: host => Holds target.user (item.takeWhile (· ≠ 64)) ∧ Holds target.host host

/-- A request says what the message says. -/
structure Says (m : Message) (r : Request.IrcRequest) : Prop where
  nick : Holds r.nick (m.sender.elim [] (·.nick.text))
  user : Holds r.user ((m.sender.bind Sender.user).elim [] (·.text))
  host : Holds r.host ((m.sender.bind Sender.host).elim [] (·.text))
  command : Holds r.request m.command.text
  count : r.paras = m.texts.length
  paras : ∀ (n : Nat) text, m.texts[n]? = some text →
    ∃ row, r.para.cells[n]? = some row ∧ Holds row text
  targetCount : r.targets = m.items.length
  targets : ∀ (n : Nat) item, m.items[n]? = some item →
    ∃ target, r.target.cells[n]? = some target ∧ InField target item

/-- The line of a message is parsed, and the request says what the message says. -/
def Recovered (m : Message) (more : Nat → Nat) : Prop :=
  ∃ r, ircParseRequest (m.line more) = some r ∧ Says m r

/-- Room for a text with its terminator. -/
def Shorter (n : Nat) (text : List UInt8) : Prop := text.length < n

/-- There is no origin, the trailing text is not empty, and the first parameter has not too many
targets, each with room in its fields. -/
structure Meets (m : Message) : Prop where
  sender : m.sender = none
  trailing : ∀ text ∈ m.trailing, text.text ≠ []
  items : ∀ item ∈ m.items, TargetMeets Shorter item
  few : m.items.length ≤ maxTargets

/-! ## Words -/

variable {word rest p : List UInt8} {more : Nat → Nat} {m : Message}

/-- A word ends at a space or at the end. -/
theorem word_cut (hword : 32 ∉ word) (hrest : rest = [] ∨ rest.head? = some 32) :
    (word ++ rest).takeWhile (· ≠ 32) = word ∧ (word ++ rest).dropWhile (· ≠ 32) = rest := by
  rcases hrest with rfl | hhead
  · rw [List.append_nil]
    exact ⟨takeWhile_ne_self hword, dropWhile_ne_self hword⟩
  · obtain ⟨tail, rfl⟩ : ∃ tail, rest = 32 :: tail := by
      cases rest with
      | nil => exact absurd hhead.symm (Option.some_ne_none _)
      | cons c tail => exact ⟨tail, by rw [Option.some.inj hhead]⟩
    exact ⟨takeWhile_ne_cut hword tail, dropWhile_ne_cut hword tail⟩

theorem dropWhile_spaces (n : Nat) (h : p.head? ≠ some 32) :
    (spaces n ++ p).dropWhile (· = 32) = p := by
  have hall : ∀ c ∈ spaces n, decide (c = 32) = true :=
    fun c hc => decide_eq_true (List.mem_replicate.mp hc).2
  rw [List.dropWhile_append_of_pos hall]
  cases p with
  | nil => rfl
  | cons c p => exact List.dropWhile_cons_of_neg (by simpa using h)

theorem joined_head (more : Nat → Nat) (n : Nat) (paras : List (Word maxMsgLen))
    (trailing : Option (CString maxMsgLen)) :
    joined more n paras trailing = [] ∨ (joined more n paras trailing).head? = some 32 := by
  cases paras with
  | nil =>
    cases trailing with
    | none => exact Or.inl rfl
    | some text => exact Or.inr rfl
  | cons para paras => exact Or.inr rfl

/-- The parameters of a line that has been built from them. -/
theorem paraTexts_joined {rounds : Nat} (n : Nat) (paras : List (Word maxMsgLen))
    (trailing : Option (CString maxMsgLen))
    (hrounds : (joined more n paras trailing).length ≤ rounds) :
    paraTexts rounds (joined more n paras trailing) =
      paras.map (·.text) ++ trailing.toList.map (·.text) := by
  induction paras generalizing n rounds with
  | nil =>
    cases trailing with
    | none => cases rounds <;> rfl
    | some text =>
      have hpos : 0 < rounds := Nat.lt_of_lt_of_le (by simp [joined, spaces]) hrounds
      obtain ⟨rounds, rfl⟩ := Nat.exists_eq_succ_of_ne_zero (Nat.ne_of_gt hpos)
      have hcolon : (58 :: text.text).head? ≠ some 32 := by
        rw [List.head?_cons]
        decide
      rw [paraTexts, joined, Option.elim_some, dropWhile_spaces _ hcolon]
      rfl
  | cons para paras ih =>
    obtain ⟨c, text, htext⟩ := List.exists_cons_of_ne_nil para.nonempty
    have hc32 : c ≠ 32 := fun hsame => para.noSpace (by rw [htext, hsame]; exact List.mem_cons_self)
    have hc58 : c ≠ 58 := fun hsame => para.noColon (by rw [htext, hsame]; rfl)
    rw [joined, List.length_append, List.length_append, spaces, List.length_replicate] at hrounds
    obtain ⟨rounds, rfl⟩ := Nat.exists_eq_succ_of_ne_zero (show rounds ≠ 0 by omega)
    have hhead : (para.text ++ joined more (n + 1) paras trailing).head? ≠ some 32 := by
      rw [htext]
      exact fun h => hc32 (Option.some.inj h)
    obtain ⟨htake, hdrop⟩ := word_cut para.noSpace (joined_head more (n + 1) paras trailing)
    have hcons : para.text ++ joined more (n + 1) paras trailing =
        c :: (text ++ joined more (n + 1) paras trailing) := by
      rw [htext, List.cons_append]
    rw [paraTexts, joined, dropWhile_spaces _ hhead, hcons]
    dsimp only
    rw [if_neg hc58, ← hcons, htake, hdrop, ih (n + 1) (by omega), List.map_cons, List.cons_append]

/-! ## Targets -/

theorem targetTexts_eq {rounds : Nat} (hrounds : p.length ≤ rounds) :
    targetTexts rounds p = piecesOf p := by
  induction rounds generalizing p with
  | zero =>
    rw [List.eq_nil_of_length_eq_zero (Nat.le_zero.mp hrounds)]
    rfl
  | succ rounds ih =>
    rw [targetTexts]
    by_cases hnil : p = []
    · rw [if_pos hnil, hnil]
      rfl
    rw [if_neg hnil]
    by_cases hmem : 44 ∈ p
    · obtain ⟨text, rest, rfl, htext⟩ := List.eq_append_cons_of_mem hmem
      rw [takeWhile_ne_cut htext, dropWhile_ne_cut htext, List.tail_cons]
      rw [List.length_append, List.length_cons] at hrounds
      rw [ih (by omega)]
      unfold piecesOf
      rw [List.splitOn_append_cons_self_of_not_mem htext]
      obtain ⟨first, pieces, hsplit⟩ := List.exists_cons_of_ne_nil (List.splitOn_ne_nil 44 rest)
      rw [hsplit]
      dsimp only
      rw [List.getLast?_cons_cons, List.dropLast_cons_cons]
      split <;> rfl
    · rw [takeWhile_ne_self hmem, dropWhile_ne_self hmem, List.tail_nil, ih (Nat.zero_le _)]
      unfold piecesOf
      rw [List.splitOn_eq_singleton hmem]
      dsimp only
      rw [List.getLast?_singleton, if_neg (fun h => hnil (Option.some.inj h))]
      rfl

theorem mem_of_mem_piecesOf {text item : List UInt8} (hitem : item ∈ piecesOf text) {c : UInt8}
    (hc : c ∈ item) : c ∈ text := by
  refine mem_of_mem_splitOn (a := 44) ?_ hc
  unfold piecesOf at hitem
  dsimp only at hitem
  split at hitem
  · exact (List.dropLast_sublist _).subset hitem
  · exact hitem

/-! ## Fields -/

variable {n : Nat} {text item : List UInt8}

theorem holds_field (h0 : 0 ∉ text) (hroom : HasRoom n text) :
    Holds (field n text) text ↔ Shorter n text := by
  rw [Holds, terminated_field hroom, string_field hroom, stringOf_eq_self h0, eq_self, and_true]
  exact or_iff_left (fun h => h0 h.2)

theorem shorter_hasRoom (h : Shorter n text) : HasRoom n text := Nat.le_of_lt h

theorem targetMeets_shorter (h : TargetMeets Shorter item) : TargetMeets HasRoom item := by
  unfold TargetMeets at h ⊢
  split at h
  · next hfirst =>
    rw [if_pos hfirst]
    exact shorter_hasRoom h
  · next hfirst =>
    rw [if_neg hfirst]
    dsimp only at h ⊢
    split at h
    · exact shorter_hasRoom h
    · exact ⟨h.1, shorter_hasRoom h.2⟩

/-- A target is in its fields exactly if they have room for the terminators. -/
theorem inField_iff (h0 : 0 ∉ item) (h : TargetMeets HasRoom item) :
    InField (targetOf item) item ↔ TargetMeets Shorter item := by
  unfold TargetMeets at h ⊢
  unfold InField targetOf
  by_cases hlocal : item.head? = some 38
  · rw [if_pos (Or.inl hlocal)] at h ⊢
    rw [if_pos hlocal, if_pos hlocal]
    exact holds_field h0 h
  by_cases hmask : item.head? = some 36
  · rw [if_pos (Or.inr (Or.inl hmask))] at h ⊢
    rw [if_neg hlocal, if_pos hmask, if_neg hlocal, if_pos hmask]
    exact holds_field h0 h
  by_cases hboth : item.head? = some 35
  · rw [if_pos (Or.inr (Or.inr hboth))] at h ⊢
    rw [if_neg hlocal, if_neg hmask, if_pos hboth, if_neg hlocal, if_neg hmask, if_pos hboth]
    dsimp only
    rw [and_self]
    exact holds_field h0 h
  have hnick : ¬ (item.head? = some 38 ∨ item.head? = some 36 ∨ item.head? = some 35) := by
    rintro (h | h | h)
    · exact hlocal h
    · exact hmask h
    · exact hboth h
  have hname : 0 ∉ item.takeWhile (· ≠ 64) := fun hmem =>
    h0 ((List.takeWhile_prefix _).subset hmem)
  rw [if_neg hnick] at h ⊢
  rw [if_neg hlocal, if_neg hmask, if_neg hboth, if_neg hlocal, if_neg hmask, if_neg hboth]
  dsimp only at h ⊢
  cases hrest : item.dropWhile (· ≠ 64) with
  | nil =>
    have hwhole : item.takeWhile (· ≠ 64) = item := by
      have happend := List.takeWhile_append_dropWhile (p := (· ≠ 64)) (l := item)
      rwa [hrest, List.append_nil] at happend
    rw [hrest] at h
    rw [hwhole] at h ⊢
    exact holds_field h0 h
  | cons c host =>
    have hhost : 0 ∉ host := fun hmem =>
      h0 ((List.dropWhile_suffix _).subset (hrest ▸ List.mem_cons_of_mem _ hmem))
    rw [hrest] at h
    dsimp only
    have huser : Shorter maxNameLen (item.takeWhile (· ≠ 64)) :=
      Nat.lt_of_le_of_lt h.1 (by decide)
    rw [holds_field hname (shorter_hasRoom huser), holds_field hhost h.2, and_iff_right huser,
      and_iff_right h.1]

/-! ## Messages without an origin -/

theorem texts_spec (m : Message) : ∀ text ∈ m.texts, 0 ∉ text ∧ Shorter maxMsgLen text := by
  intro text htext
  rcases List.mem_append.mp htext with hmem | hmem
  · obtain ⟨para, -, rfl⟩ := List.mem_map.mp hmem
    exact ⟨para.ends, para.fits⟩
  · obtain ⟨trailing, -, rfl⟩ := List.mem_map.mp hmem
    exact ⟨trailing.ends, trailing.fits⟩

theorem texts_few (m : Message) : m.texts.length ≤ maxParams := by
  rw [Message.texts, List.length_append, List.length_map, List.length_map]
  exact m.few

theorem first_spec (m : Message) :
    0 ∉ m.texts.headD [] ∧ Shorter maxMsgLen (m.texts.headD []) := by
  cases htexts : m.texts with
  | nil => exact ⟨List.not_mem_nil, (by decide : 0 < maxMsgLen)⟩
  | cons text texts => exact texts_spec m text (by rw [htexts]; exact List.mem_cons_self)

theorem zero_notMem_items (m : Message) : ∀ item ∈ m.items, 0 ∉ item :=
  fun _ hitem hzero => (first_spec m).1 (mem_of_mem_piecesOf hitem hzero)

theorem splitOrigin_line (more : Nat → Nat) (h : m.sender = none) :
    splitOrigin (m.line more) = ⟨[], [], [], m.line more⟩ := by
  unfold splitOrigin
  refine if_neg ?_
  rw [Message.line, h, Option.elim_none, List.nil_append,
    List.head?_append_of_ne_nil _ m.command.nonempty]
  exact m.command.noColon

theorem line_cut (more : Nat → Nat) (h : m.sender = none) :
    commandOf (m.line more) = m.command.text ∧ parasOf (m.line more) = m.texts := by
  obtain ⟨htake, hdrop⟩ := word_cut m.command.noSpace (joined_head more 1 m.paras m.trailing)
  unfold commandOf parasOf
  rw [splitOrigin_line more h]
  dsimp only
  have hline : m.line more = m.command.text ++ joined more 1 m.paras m.trailing := by
    rw [Message.line, h, Option.elim_none, List.nil_append]
  rw [hline, htake, hdrop]
  exact ⟨rfl, paraTexts_joined 1 m.paras m.trailing (Nat.le_refl _)⟩

theorem targetsOf_line (more : Nat → Nat) (h : m.sender = none) :
    targetsOf (m.line more) = m.items := by
  unfold targetsOf
  rw [(line_cut more h).2, stringOf_eq_self (first_spec m).1, targetTexts_eq (Nat.le_refl _)]
  rfl

/-- All parameters count exactly if the trailing text is not empty. -/
theorem parasCount_line (h : m.sender = none) :
    parasCount (m.line more) = m.texts.length ↔ ∀ text ∈ m.trailing, text.text ≠ [] := by
  have hzero (text : List UInt8) (h0 : 0 ∉ text) : text.headD 0 = 0 ↔ text = [] := by
    cases text with
    | nil => exact iff_of_true rfl rfl
    | cons c text =>
      refine iff_of_false (fun hc => h0 ?_) (List.cons_ne_nil c text)
      rw [← show c = 0 from hc]
      exact List.mem_cons_self
  have hlast : (m.texts.getLast?.elim false (fun text => text.headD 0 = 0)) = true ↔
      ∃ text ∈ m.trailing, text.text = [] := by
    unfold Message.texts
    cases htrailing : m.trailing with
    | some text =>
      rw [Option.toList_some, List.map_singleton, List.getLast?_concat, Option.elim_some,
        decide_eq_true_eq, hzero _ text.ends]
      exact ⟨fun hnil => ⟨text, rfl, hnil⟩, fun ⟨t, ht, hnil⟩ => Option.some.inj ht ▸ hnil⟩
    | none =>
      rw [Option.toList_none, List.map_nil, List.append_nil]
      refine iff_of_false (fun hempty => ?_) (fun ⟨_, ht, _⟩ => Option.some_ne_none _ ht.symm)
      cases hpara : m.paras.getLast? with
      | none =>
        rw [List.getLast?_map, hpara] at hempty
        exact Bool.false_ne_true hempty
      | some para =>
        rw [List.getLast?_map, hpara, Option.map_some, Option.elim_some, decide_eq_true_eq,
          hzero _ para.ends] at hempty
        exact para.nonempty hempty
  unfold parasCount
  rw [(line_cut more h).2]
  by_cases hempty : ∃ text ∈ m.trailing, text.text = []
  · obtain ⟨text, htext, hnil⟩ := hempty
    rw [if_pos (hlast.mpr ⟨text, htext, hnil⟩)]
    refine iff_of_false (fun hlength => ?_) (fun hall => hall text htext hnil)
    have hpos : 0 < m.texts.length := by
      rw [Message.texts, List.length_append, show m.trailing = some text from htext]
      exact Nat.succ_pos _
    omega
  · rw [if_neg (fun h => hempty (hlast.mp h))]
    exact iff_of_true rfl (fun text htext hnil => hempty ⟨text, htext, hnil⟩)

/-- The line of a message that meets the conditions is parsed within the arrays. -/
theorem lineMeets_of_meets (more : Nat → Nat) (hm : Meets m) : LineMeets HasRoom (m.line more) := by
  obtain ⟨hcommand, hparas⟩ := line_cut more hm.sender
  have htargets := targetsOf_line more hm.sender
  have hname := splitOrigin_line more hm.sender
  exact
    { name := by rw [hname]; exact Nat.zero_le _
      user := by rw [hname]; exact Nat.zero_le _
      host := by rw [hname]; exact Nat.zero_le _
      command := by rw [hcommand]; exact shorter_hasRoom m.command.fits
      paras := by
        intro text htext
        rw [hparas] at htext
        exact shorter_hasRoom (texts_spec m text (List.mem_of_mem_take htext)).2
      morePara := by
        intro text htext
        rw [hparas, List.drop_of_length_le (texts_few m)] at htext
        exact absurd htext List.not_mem_nil
      first := by rw [hparas]; exact Or.inl (first_spec m).2
      targets := by
        intro item hitem
        rw [htargets] at hitem
        exact targetMeets_shorter (hm.items item (List.mem_of_mem_take hitem))
      moreTargets := by
        intro item hitem
        rw [htargets, List.drop_of_length_le hm.few] at hitem
        exact absurd hitem List.not_mem_nil }

theorem says_of_meets (more : Nat → Nat) (hm : Meets m) : Says m (requestOf (m.line more)) := by
  obtain ⟨hcommand, hparas⟩ := line_cut more hm.sender
  have htargets := targetsOf_line more hm.sender
  have hname := splitOrigin_line more hm.sender
  have hempty (n : Nat) (hn : 0 < n) : Holds (field n []) [] :=
    (holds_field List.not_mem_nil (Nat.zero_le n)).mpr hn
  exact
    { nick := by rw [requestOf, hname, hm.sender]; exact hempty _ (by decide)
      user := by rw [requestOf, hname, hm.sender]; exact hempty _ (by decide)
      host := by rw [requestOf, hname, hm.sender]; exact hempty _ (by decide)
      command := by
        rw [requestOf, hcommand]
        exact (holds_field m.command.ends (shorter_hasRoom m.command.fits)).mpr m.command.fits
      count := (parasCount_line hm.sender).mpr hm.trailing
      paras := by
        intro n text htext
        have hn : n < maxParams :=
          Nat.lt_of_lt_of_le (List.getElem?_eq_some_iff.mp htext).1 (texts_few m)
        obtain ⟨h0, hshort⟩ := texts_spec m text (List.mem_of_getElem? htext)
        refine ⟨_, Block.getElem?_laid hn (by rw [hparas]; exact htext), ?_⟩
        exact (holds_field h0 (shorter_hasRoom hshort)).mpr hshort
      targetCount := by rw [requestOf, htargets]
      targets := by
        intro n item hitem
        have hn : n < maxTargets :=
          Nat.lt_of_lt_of_le (List.getElem?_eq_some_iff.mp hitem).1 hm.few
        have hmem := List.mem_of_getElem? hitem
        have hshort := hm.items item hmem
        refine ⟨_, Block.getElem?_laid hn (by rw [htargets]; exact hitem), ?_⟩
        exact (inField_iff (zero_notMem_items m item hmem) (targetMeets_shorter hshort)).mpr
          hshort }

/-- A message without an origin that is given back meets the conditions. -/
theorem meets_of_says (h : m.sender = none) (hmeets : LineMeets HasRoom (m.line more))
    (hgiven : Says m (requestOf (m.line more))) : Meets m := by
  have htargets := targetsOf_line more h
  have hitems : ∀ (n : Nat) item, m.items[n]? = some item → n < maxTargets ∧
      TargetMeets Shorter item := by
    intro n item hitem
    obtain ⟨target, htarget, hin⟩ := hgiven.targets n item hitem
    have hn : n < maxTargets := by
      have hlt := (List.getElem?_eq_some_iff.mp htarget).1
      rwa [Block.size] at hlt
    have hmem : item ∈ (targetsOf (m.line more)).take maxTargets := by
      refine List.mem_of_getElem? (i := n) ?_
      rw [List.getElem?_take_of_lt hn, htargets, hitem]
    have hlaid : (requestOf (m.line more)).target.cells[n]? = some (targetOf item) :=
      Block.getElem?_laid hn (by rw [htargets, hitem])
    obtain rfl := Option.some.inj (hlaid.symm.trans htarget)
    have h0 := zero_notMem_items m item (List.mem_of_getElem? hitem)
    exact ⟨hn, (inField_iff h0 (hmeets.targets item hmem)).mp hin⟩
  refine ⟨h, (parasCount_line h).mp hgiven.count, fun item hitem => ?_, ?_⟩
  · obtain ⟨n, hn⟩ := List.mem_iff_getElem?.mp hitem
    exact (hitems n item hn).2
  · by_contra hmany
    have hlt : maxTargets < m.items.length := Nat.not_le.mp hmany
    exact absurd (hitems maxTargets _ (List.getElem?_eq_getElem hlt)).1 (Nat.lt_irrefl _)

/-- Where there is no origin. -/
theorem recovered_none (h : m.sender = none) : Recovered m more ↔ Meets m := by
  constructor
  · rintro ⟨r, hparse, hgiven⟩
    obtain ⟨hmeets, rfl⟩ := ircParseRequest_iff.mp hparse
    exact meets_of_says h hmeets hgiven
  · intro hm
    exact ⟨_, ircParseRequest_iff.mpr ⟨lineMeets_of_meets more hm, rfl⟩, says_of_meets more hm⟩

/-! ## Messages with an origin -/

/-- The nick is held with the colon before it. -/
theorem not_recovered {s : Sender} (h : m.sender = some s) : ¬ Recovered m more := by
  rintro ⟨r, hparse, hgiven⟩
  obtain ⟨hmeets, rfl⟩ := ircParseRequest_iff.mp hparse
  have hnick := hgiven.nick.2
  rw [h, Option.elim_some, requestOf, string_field hmeets.name] at hnick
  obtain ⟨rest, hline⟩ : ∃ rest, m.line more = (58 :: s.nick.text) ++ rest := by
    rw [Message.line, h, Option.elim_some, Sender.line, List.append_assoc, List.append_assoc,
      List.append_assoc]
    exact ⟨_, rfl⟩
  have hpass : ∀ c ∈ 58 :: s.nick.text, decide (c ≠ (33 : UInt8) ∧ c ≠ 64 ∧ c ≠ 32) = true := by
    intro c hc
    rcases List.mem_cons.mp hc with rfl | hmem
    · decide
    · exact decide_eq_true (s.nickChars c hmem)
  obtain ⟨tail, hname⟩ : ∃ tail,
      (splitOrigin (m.line more)).name = (58 :: s.nick.text) ++ tail := by
    have hcolon : ((58 :: s.nick.text) ++ rest).head? = some 58 := rfl
    rw [hline, splitOrigin, if_pos hcolon]
    dsimp only
    rw [List.takeWhile_append_of_pos hpass]
    exact ⟨_, rfl⟩
  have hnul : ∀ c ∈ 58 :: s.nick.text, decide (c ≠ (0 : UInt8)) = true := by
    intro c hc
    rcases List.mem_cons.mp hc with rfl | hmem
    · decide
    · exact decide_eq_true (fun hzero => s.nick.ends (hzero ▸ hmem))
  rw [hname, stringOf, List.takeWhile_append_of_pos hnul] at hnick
  have hlength := congrArg List.length hnick
  rw [List.length_append, List.length_cons] at hlength
  omega

/-- A message is recovered exactly if it has no origin, its trailing text is not empty, and the
targets of its first parameter have room. -/
theorem recovered_iff (m : Message) (more : Nat → Nat) : Recovered m more ↔ Meets m := by
  cases h : m.sender with
  | none => exact recovered_none h
  | some s =>
    refine iff_of_false (not_recovered h) (fun hmeets => ?_)
    exact Option.some_ne_none s (h.symm.trans hmeets.sender)

/-- A message with an origin. -/
theorem origin_not_recovered : ¬ ∀ (m : Message) (more : Nat → Nat), Recovered m more := by
  intro hall
  let nick : CString maxNickLen := ⟨[97], by simp, by decide⟩
  let sender : Sender := ⟨nick, none, none, by simp [nick], by simp, by simp⟩
  let command : Word maxNameLen := ⟨⟨[80], by simp, by decide⟩, by simp, by simp, by simp⟩
  let m : Message := ⟨some sender, command, [], none, by decide⟩
  exact not_recovered rfl (hall m (fun _ => 0))

end Serveez.Irc.Grammar
