import Serveez.Irc.Messages
import Mathlib.Logic.Function.Iterate

/-!
# The text of a message behind some targets

* `Stands.step`: what a target leaves in the buffer.
* `readsAlike_iff`: when what is printed of it is the text of the sender.
* `privLoop_alone`: the targets receive what they would receive alone, just if this is so for each.
-/

set_option linter.unusedSectionVars false

namespace Serveez.Irc.Messages

open Lib Channels

variable {κ : Type} [DecidableEq κ]

/-! ## What the targets do to the text -/

/-- What a target comes to. A round has no result where memory is read that is free, or the flag
of a client that is not in the channel. -/
inductive Aim
  | nobody
  | nothing
  | fault
  | reached (recipients : List Nat)

def aim (key : List UInt8 → κ) (s : MessageState κ) (client : IrcClient) (target : IrcTarget) :
    Aim :=
  match ircFindNick key s.channels.irc target.nick.text with
  | some id =>
    if (s.channels.irc.clientAt id).isNone then .fault
    else if s.away id then .nothing
    else .reached [id]
  | none =>
    match ircFindChannel key s.channels.irc target.channel.text with
    | none => .nobody
    | some id =>
      match s.channels.irc.channelAt id with
      | none => .fault
      | some channel =>
        match maySend (s.channels.settings id) channel client.id with
        | none => .fault
        | some false => .nothing
        | some true => .reached (channel.client.filter (· ≠ client.id))

def Aim.isNobody : Aim → Bool
  | .nobody => true
  | _ => false

def Aim.isReached : Aim → Bool
  | .reached _ => true
  | _ => false

/-- The names that are written over the text. -/
def names (key : List UInt8 → κ) (s : MessageState κ) (client : IrcClient)
    (before : List IrcTarget) : List (List UInt8) :=
  (before.filter (fun target => (aim key s client target).isNobody)).map IrcTarget.name

/-- How many targets are reached behind the last name that is written over the text. -/
def turns (key : List UInt8 → κ) (s : MessageState κ) (client : IrcClient)
    (before : List IrcTarget) : Nat :=
  (before.reverse.takeWhile (fun target => !(aim key s client target).isNobody)).countP
    (fun target => (aim key s client target).isReached)

/-- The last name, or the text, encrypted as often as the sender's key has been applied to it. -/
def standing (k : UInt8) (text : List UInt8) (names : List (List UInt8)) (turns : Nat) :
    List UInt8 :=
  (ircEncryptText k)^[turns] (names.getLast?.getD text)

/-- To a client, what stands in the buffer reads like the text of the sender. If both have a
password, a text ends at the byte that the two keys make the end of a string. -/
def ReadsAlike (s : MessageState κ) (client cl : IrcClient) (names : List (List UInt8))
    (turns : Nat) (first : TextBuffer) : Prop :=
  if client.flag.pass then
    let text := standing (s.key client.id) first.text names turns
    let stop := s.key client.id ^^^ s.key cl.id
    if cl.flag.pass then text.takeWhile (· ≠ stop) = first.text.takeWhile (· ≠ stop)
    else text = first.text
  else
    ∃ buffer, names.foldlM TextBuffer.write first = some buffer ∧
      ∃ text, shown s cl buffer = some text ∧ shown s cl first = some text

/-- A target behind others may be served. -/
def Clear (key : List UInt8 → κ) (s : MessageState κ) (client : IrcClient) (first : TextBuffer)
    (before : List IrcTarget) (target : IrcTarget) : Prop :=
  let k := s.key client.id
  let names := names key s client before
  let turns := turns key s client before
  match aim key s client target with
  | .fault => False
  | .reached recipients =>
    (client.flag.pass = true → (ircEncryptText k first.text).length < maxMsgLen ∧
      (ircEncryptText k (standing k first.text names turns)).length < maxMsgLen) ∧
    ∀ id ∈ recipients, ∃ cl, s.channels.irc.clientAt id = some cl ∧
      ReadsAlike s client cl names turns first
  | _ => True

/-- What NOTICE sends reads like what PRIVMSG sends. -/
def NoticeAlike (key : List UInt8 → κ) (s : MessageState κ) (client : IrcClient)
    (first note : TextBuffer) (target : IrcTarget) : Prop :=
  ∀ id cl, ircFindNick key s.channels.irc target.nick.text = some id → s.away id = false →
    s.channels.irc.clientAt id = some cl → cl.flag.pass = true →
    if client.flag.pass then
      s.key cl.id = 0 ∧ ircCryptPrefix ∉ ircEncryptText (s.key client.id) first.text
    else
      shown s cl first = some first.text ∧ (ircDecryptText (s.key cl.id) note.block).isSome = true

/-- The text fits into the buffers, each target may be served behind those before it, and a single
nick reads a NOTICE like a PRIVMSG. -/
def Undisturbed (key : List UInt8 → κ) (s : MessageState κ) (client : IrcClient)
    (paras : List (CString maxMsgLen)) (targets : List IrcTarget) : Prop :=
  2 ≤ paras.length → ∃ first note, s.priv.write (textOf paras) = some first ∧
    s.note.write (textOf paras) = some note ∧
    (textOf paras ≠ [] →
      (∀ before target after, targets = before ++ target :: after →
        Clear key s client first before target) ∧
      ∀ target, targets = [target] → NoticeAlike key s client first note target)

/-! ## A round -/

variable {key : List UInt8 → κ} {s : MessageState κ} {client : IrcClient} {target : IrcTarget}

theorem name_lt (target : IrcTarget) : target.name.length < maxMsgLen := by
  have hchannel := target.channel.fits
  have hnick := target.nick.fits
  have huser := target.user.fits
  have hhost := target.host.fits
  unfold IrcTarget.name maxMsgLen
  unfold maxNameLen at hchannel huser hhost
  unfold maxNickLen at hnick
  split_ifs
  · omega
  · omega
  · omega
  · rw [List.length_append, List.length_cons]
    omega

theorem zero_notMem_name (target : IrcTarget) : 0 ∉ target.name := by
  unfold IrcTarget.name
  split_ifs
  · exact target.channel.ends
  · exact target.nick.ends
  · exact target.nick.ends
  · intro h
    rcases List.mem_append.mp h with h | h
    · exact target.user.ends h
    · rcases List.mem_cons.mp h with h | h
      · exact absurd h (by decide)
      · exact target.host.ends h

theorem messages_append (replies replies' : List Reply) :
    messages (replies ++ replies') = messages replies ++ messages replies' :=
  List.filterMap_append

/-- A round, by what the target comes to; the text does not matter for it. -/
theorem privTarget_cases (key : List UInt8 → κ) (s : MessageState κ) (client : IrcClient)
    (target : IrcTarget) :
    (aim key s client target = .nobody ∧ ∀ text, privTarget key s client target text =
      (text.write target.name).map fun text => ([.noSuchNick text.text], text)) ∨
    (aim key s client target = .nothing ∧ ∃ replies, messages replies = [] ∧
      ∀ text, privTarget key s client target text = some (replies, text)) ∨
    (aim key s client target = .fault ∧ ∀ text, privTarget key s client target text = none) ∨
    (∃ recipients name outside, aim key s client target = .reached recipients ∧
      recipients = named key s client target ∧ messages outside = [] ∧
      ∀ text, privTarget key s client target text =
        (deliver s client name recipients text).map fun delivered =>
          (outside ++ delivered.1, delivered.2)) := by
  unfold aim privTarget named
  cases ircFindNick key s.channels.irc target.nick.text with
  | some id =>
    dsimp only
    cases s.channels.irc.clientAt id with
    | none => exact Or.inr (Or.inr (Or.inl ⟨rfl, fun _ => rfl⟩))
    | some cl =>
      dsimp only [Option.bind_some]
      rw [if_neg (by simp)]
      cases s.away id with
      | true => exact Or.inr (Or.inl ⟨if_pos rfl, [.absent cl.nick], rfl, fun _ => if_pos rfl⟩)
      | false =>
        refine Or.inr (Or.inr (Or.inr ⟨[id], cl.nick, [], if_neg Bool.false_ne_true, rfl, rfl,
          fun text => ?_⟩))
        rw [if_neg Bool.false_ne_true]
        exact Option.map_id_fun.symm ▸ rfl
  | none =>
    dsimp only
    cases ircFindChannel key s.channels.irc target.channel.text with
    | none => exact Or.inl ⟨rfl, fun _ => rfl⟩
    | some id =>
      dsimp only [Option.bind_some]
      cases s.channels.irc.channelAt id with
      | none => exact Or.inr (Or.inr (Or.inl ⟨rfl, fun _ => rfl⟩))
      | some channel =>
        have houtside : messages (if client.id ∈ channel.client then []
            else [.notOnChannel channel.name]) = [] := by
          split <;> rfl
        dsimp only [Option.bind_some]
        cases maySend (s.channels.settings id) channel client.id with
        | none => exact Or.inr (Or.inr (Or.inl ⟨rfl, fun _ => rfl⟩))
        | some may =>
          cases may with
          | false =>
            refine Or.inr (Or.inl ⟨rfl, _, ?_, fun _ => rfl⟩)
            rw [messages_append, houtside]
            rfl
          | true =>
            exact Or.inr (Or.inr (Or.inr ⟨_, _, _, rfl, rfl, houtside, fun _ => rfl⟩))

/-! ## What stands in the buffer -/

/-- What stands in the buffer behind some targets, from the text of the sender on. -/
structure Stands (key : List UInt8 → κ) (s : MessageState κ) (client : IrcClient)
    (first : TextBuffer) (before : List IrcTarget) (text : TextBuffer) : Prop where
  encrypted : client.flag.pass = true → text.text = standing (s.key client.id) first.text
    (names key s client before) (turns key s client before)
  plain : client.flag.pass = false →
    (names key s client before).foldlM TextBuffer.write first = some text

theorem Stands.first (first : TextBuffer) : Stands key s client first [] first :=
  ⟨fun _ => rfl, fun _ => rfl⟩

section Before

variable {before : List IrcTarget}

theorem names_nobody (haim : aim key s client target = .nobody) :
    names key s client (before ++ [target]) = names key s client before ++ [target.name] := by
  unfold names
  rw [List.filter_append, List.filter_cons_of_pos (by rw [haim]; rfl), List.map_append]
  rfl

theorem names_other (haim : (aim key s client target).isNobody = false) :
    names key s client (before ++ [target]) = names key s client before := by
  unfold names
  rw [List.filter_append, List.filter_cons_of_neg (by rw [haim]; exact Bool.false_ne_true),
    List.filter_nil, List.append_nil]

theorem turns_nobody (haim : aim key s client target = .nobody) :
    turns key s client (before ++ [target]) = 0 := by
  unfold turns
  rw [List.reverse_append, List.reverse_singleton, List.singleton_append,
    List.takeWhile_cons_of_neg (by rw [haim]; exact Bool.false_ne_true)]
  rfl

theorem turns_other (haim : (aim key s client target).isNobody = false) :
    turns key s client (before ++ [target]) =
      turns key s client before + if (aim key s client target).isReached then 1 else 0 := by
  unfold turns
  rw [List.reverse_append, List.reverse_singleton, List.singleton_append,
    List.takeWhile_cons_of_pos (by rw [haim]; rfl), List.countP_cons]

theorem standing_nobody (k : UInt8) (text : List UInt8) (names : List (List UInt8))
    (name : List UInt8) : standing k text (names ++ [name]) 0 = name := by
  unfold standing
  rw [List.getLast?_concat]
  rfl

theorem standing_succ (k : UInt8) (text : List UInt8) (names : List (List UInt8)) (turns : Nat) :
    standing k text names (turns + 1) = ircEncryptText k (standing k text names turns) :=
  Function.iterate_succ_apply' _ _ _

theorem Stands.step {first text text' : TextBuffer} {replies : List Reply}
    (h : Stands key s client first before text)
    (hround : privTarget key s client target text = some (replies, text')) :
    Stands key s client first (before ++ [target]) text' := by
  rcases privTarget_cases key s client target with ⟨haim, hround'⟩ | ⟨haim, replies', -, hround'⟩ |
    ⟨haim, hround'⟩ | ⟨recipients, name, outside, haim, -, -, hround'⟩ <;>
    rw [hround'] at hround
  · obtain ⟨buffer, hwrite, heq⟩ := Option.map_eq_some_iff.mp hround
    obtain rfl := congrArg Prod.snd heq
    refine ⟨fun _ => ?_, fun hplain => ?_⟩
    · rw [names_nobody haim, turns_nobody haim, standing_nobody]
      exact TextBuffer.text_write (zero_notMem_name target) hwrite
    · rw [names_nobody haim, List.foldlM_append, h.plain hplain]
      show (TextBuffer.write text target.name).bind some = some buffer
      rw [hwrite, Option.bind_some]
  · obtain rfl := congrArg Prod.snd (Option.some.inj hround)
    have hnot : (aim key s client target).isNobody = false := by
      rw [haim]
      rfl
    refine ⟨fun hpass => ?_, fun hplain => ?_⟩
    · rw [names_other hnot, turns_other hnot, haim]
      exact h.encrypted hpass
    · rw [names_other hnot]
      exact h.plain hplain
  · exact absurd hround.symm (Option.some_ne_none _)
  · obtain ⟨delivered, hdeliver, heq⟩ := Option.map_eq_some_iff.mp hround
    obtain ⟨buffer, hscramble, hprint⟩ := Option.bind_eq_some_iff.mp hdeliver
    obtain ⟨printed, -, rfl⟩ := Option.map_eq_some_iff.mp hprint
    obtain rfl := congrArg Prod.snd heq
    have hnot : (aim key s client target).isNobody = false := by
      rw [haim]
      rfl
    unfold scramble at hscramble
    refine ⟨fun hpass => ?_, fun hplain => ?_⟩
    · rw [if_pos hpass] at hscramble
      rw [names_other hnot, turns_other hnot, haim]
      show buffer.text = standing _ _ _ (turns key s client before + 1)
      rw [standing_succ, ← h.encrypted hpass]
      exact TextBuffer.text_write (zero_notMem_encrypt _ _) hscramble
    · rw [if_neg (by rw [hplain]; exact Bool.false_ne_true)] at hscramble
      obtain rfl := Option.some.inj hscramble
      rw [names_other hnot]
      exact h.plain hplain

end Before

/-! ## What is printed -/

theorem printTo_cons {name : Option (List UInt8)} {text : TextBuffer} {id : Nat} {ids : List Nat}
    {replies : List Reply} :
    printTo s name text (id :: ids) = some replies ↔
      ∃ cl, s.channels.irc.clientAt id = some cl ∧ ∃ t, shown s cl text = some t ∧
        ∃ rest, printTo s name text ids = some rest ∧ .message id name t :: rest = replies := by
  rw [printTo, Option.bind_eq_some_iff]
  refine exists_congr (fun cl => and_congr_right (fun _ => ?_))
  rw [Option.bind_eq_some_iff]
  refine exists_congr (fun t => and_congr_right (fun _ => ?_))
  exact Option.map_eq_some_iff

theorem printTo_alike {name : Option (List UInt8)} {text text' : TextBuffer} {ids : List Nat} :
    (∃ replies, printTo s name text ids = some replies ∧
      ∃ replies', printTo s name text' ids = some replies' ∧
        messages replies = messages replies') ↔
    ∀ id ∈ ids, ∃ cl, s.channels.irc.clientAt id = some cl ∧
      ∃ t, shown s cl text = some t ∧ shown s cl text' = some t := by
  induction ids with
  | nil =>
    refine ⟨fun _ id hid => absurd hid List.not_mem_nil, fun _ => ⟨[], rfl, [], rfl, rfl⟩⟩
  | cons id ids ih =>
    have hmessage (t : List UInt8) (rest : List Reply) :
        messages (.message id name t :: rest) = (id, t) :: messages rest := rfl
    constructor
    · rintro ⟨replies, hprint, replies', hprint', hsame⟩
      obtain ⟨cl, hcl, t, ht, rest, hrest, rfl⟩ := printTo_cons.mp hprint
      obtain ⟨cl', hcl', t', ht', rest', hrest', rfl⟩ := printTo_cons.mp hprint'
      obtain rfl := Option.some.inj (hcl.symm.trans hcl')
      rw [hmessage, hmessage] at hsame
      obtain ⟨hhead, htail⟩ := List.cons_eq_cons.mp hsame
      obtain rfl : t = t' := congrArg Prod.snd hhead
      have hids := ih.mp ⟨rest, hrest, rest', hrest', htail⟩
      exact List.forall_mem_cons.mpr ⟨⟨cl, hcl, t, ht, ht'⟩, hids⟩
    · intro h
      obtain ⟨⟨cl, hcl, t, ht, ht'⟩, hids⟩ := List.forall_mem_cons.mp h
      obtain ⟨rest, hrest, rest', hrest', hsame⟩ := ih.mpr hids
      refine ⟨_, printTo_cons.mpr ⟨cl, hcl, t, ht, rest, hrest, rfl⟩,
        _, printTo_cons.mpr ⟨cl, hcl, t, ht', rest', hrest', rfl⟩, ?_⟩
      rw [hmessage, hmessage, hsame]

theorem scramble_eq_some (hpass : client.flag.pass = true) {text text' : TextBuffer} :
    scramble s client text = some text' ↔
      text.write (ircEncryptText (s.key client.id) text.text) = some text' := by
  unfold scramble
  rw [if_pos hpass]

theorem shown_scramble (hpass : client.flag.pass = true) {text text' : TextBuffer}
    (hscramble : scramble s client text = some text') (cl : IrcClient) :
    shown s cl text' = some (if cl.flag.pass then
        cString (text.text.map (· ^^^ s.key client.id ^^^ s.key cl.id))
      else ircEncryptText (s.key client.id) text.text) := by
  have hwrite := (scramble_eq_some hpass).mp hscramble
  unfold shown
  split
  · rw [(TextBuffer.write_eq_some.mp hwrite).2, ircDecryptText_encrypt]
    rfl
  · rw [TextBuffer.text_write (zero_notMem_encrypt _ _) hwrite]

theorem cString_keys (k k' : UInt8) (text : List UInt8) :
    cString (text.map (· ^^^ k ^^^ k')) =
      (text.takeWhile (· ≠ k ^^^ k')).map (· ^^^ k ^^^ k') := by
  unfold cString
  rw [List.takeWhile_map]
  congr 2
  funext c
  show decide (c ^^^ k ^^^ k' ≠ 0) = decide (c ≠ k ^^^ k')
  rw [UInt8.xor_assoc]
  exact decide_eq_decide.mpr (not_congr UInt8.xor_eq_zero_iff)

theorem map_keys_inj {k k' : UInt8} {text text' : List UInt8} :
    text.map (· ^^^ k ^^^ k') = text'.map (· ^^^ k ^^^ k') ↔ text = text' := by
  refine (List.map_injective_iff.mpr (fun c c' h => ?_)).eq_iff
  exact UInt8.xor_left_inj k |>.mp (UInt8.xor_left_inj k' |>.mp h)

theorem exists_some_iff {a b : List UInt8} : (∃ t, some a = some t ∧ some b = some t) ↔ a = b :=
  ⟨fun ⟨_, ha, hb⟩ => Option.some.inj (ha.trans hb.symm), fun h => ⟨a, rfl, congrArg some h.symm⟩⟩

theorem readsAlike_iff {first text first' text' : TextBuffer} {before : List IrcTarget}
    (h : Stands key s client first before text) (htext : scramble s client text = some text')
    (hfirst : scramble s client first = some first') (cl : IrcClient) :
    (∃ t, shown s cl text' = some t ∧ shown s cl first' = some t) ↔
      ReadsAlike s client cl (names key s client before) (turns key s client before) first := by
  unfold ReadsAlike
  cases hpass : client.flag.pass with
  | true =>
    rw [if_pos rfl, shown_scramble hpass htext, shown_scramble hpass hfirst, exists_some_iff,
      h.encrypted hpass]
    dsimp only
    split
    · rw [cString_keys, cString_keys, map_keys_inj]
    · exact ircEncryptText_inj
  | false =>
    unfold scramble at htext hfirst
    rw [hpass, if_neg Bool.false_ne_true] at htext hfirst
    obtain rfl := Option.some.inj htext
    obtain rfl := Option.some.inj hfirst
    rw [if_neg Bool.false_ne_true, h.plain hpass]
    exact ⟨fun hread => ⟨text, rfl, hread⟩,
      fun ⟨buffer, hbuffer, hread⟩ => Option.some.inj hbuffer ▸ hread⟩

/-! ## One target and many -/

/-- A target is served like it would be alone. -/
def Alone (key : List UInt8 → κ) (s : MessageState κ) (client : IrcClient) (first : TextBuffer)
    (target : IrcTarget) (replies : List Reply) : Prop :=
  ∃ alone, privTarget key s client target first = some alone ∧
    messages replies = messages alone.1

theorem deliver_alike {first text : TextBuffer} {before : List IrcTarget}
    (h : Stands key s client first before text) (name : Option (List UInt8))
    (recipients : List Nat) :
    (∃ r, deliver s client name recipients text = some r ∧
      ∃ r', deliver s client name recipients first = some r' ∧
        messages r.1 = messages r'.1) ↔
    (client.flag.pass = true →
      (ircEncryptText (s.key client.id) first.text).length < maxMsgLen ∧
      (ircEncryptText (s.key client.id) (standing (s.key client.id) first.text
        (names key s client before) (turns key s client before))).length < maxMsgLen) ∧
    ∀ id ∈ recipients, ∃ cl, s.channels.irc.clientAt id = some cl ∧
      ReadsAlike s client cl (names key s client before) (turns key s client before) first := by
  have hfits {buffer : TextBuffer} : (∃ buffer', scramble s client buffer = some buffer') ↔
      (client.flag.pass = true →
        (ircEncryptText (s.key client.id) buffer.text).length < maxMsgLen) := by
    unfold scramble
    split
    · next hpass =>
      rw [← Option.isSome_iff_exists, TextBuffer.write_isSome]
      exact ⟨fun hlt _ => hlt, fun hlt => hlt hpass⟩
    · next hpass => exact ⟨fun _ htrue => absurd htrue hpass, fun _ => ⟨buffer, rfl⟩⟩
  have hdeliver {buffer : TextBuffer} {r : List Reply × TextBuffer} :
      deliver s client name recipients buffer = some r ↔
        ∃ buffer', scramble s client buffer = some buffer' ∧
          ∃ replies, printTo s name buffer' recipients = some replies ∧
            (replies, buffer') = r := by
    unfold deliver
    rw [Option.bind_eq_some_iff]
    refine exists_congr (fun buffer' => and_congr_right (fun _ => ?_))
    exact Option.map_eq_some_iff
  constructor
  · rintro ⟨r, hr, r', hr', hsame⟩
    obtain ⟨text', htext', replies, hreplies, rfl⟩ := hdeliver.mp hr
    obtain ⟨first', hfirst', replies', hreplies', rfl⟩ := hdeliver.mp hr'
    refine ⟨fun hpass => ⟨hfits.mp ⟨first', hfirst'⟩ hpass, ?_⟩, fun id hid => ?_⟩
    · rw [← h.encrypted hpass]
      exact hfits.mp ⟨text', htext'⟩ hpass
    · obtain ⟨cl, hcl, hread⟩ :=
        printTo_alike.mp ⟨replies, hreplies, replies', hreplies', hsame⟩ id hid
      exact ⟨cl, hcl, (readsAlike_iff h htext' hfirst' cl).mp hread⟩
  · rintro ⟨hlt, hreads⟩
    obtain ⟨first', hfirst'⟩ := hfits.mpr (fun hpass => (hlt hpass).1)
    obtain ⟨text', htext'⟩ := hfits.mpr (fun hpass => by
      rw [h.encrypted hpass]
      exact (hlt hpass).2)
    obtain ⟨replies, hreplies, replies', hreplies', hsame⟩ := printTo_alike.mpr (fun id hid => by
      obtain ⟨cl, hcl, hread⟩ := hreads id hid
      exact ⟨cl, hcl, (readsAlike_iff h htext' hfirst' cl).mpr hread⟩)
    exact ⟨_, hdeliver.mpr ⟨text', htext', replies, hreplies, rfl⟩,
      _, hdeliver.mpr ⟨first', hfirst', replies', hreplies', rfl⟩, hsame⟩

/-- A target that is reached is served like alone if it is clear; the others always are, unless a
round has no result. -/
theorem alone_iff {first text : TextBuffer} {before : List IrcTarget}
    (h : Stands key s client first before text) :
    (∃ r, privTarget key s client target text = some r ∧
      Alone key s client first target r.1) ↔ Clear key s client first before target := by
  unfold Alone Clear
  rcases privTarget_cases key s client target with ⟨haim, hround⟩ | ⟨haim, replies, -, hround⟩ |
    ⟨haim, hround⟩ | ⟨recipients, name, outside, haim, -, -, hround⟩ <;>
    rw [haim, hround text, hround first] <;> dsimp only
  · refine iff_true_intro ?_
    have hwrite (buffer : TextBuffer) : ∃ buffer', buffer.write target.name = some buffer' :=
      Option.isSome_iff_exists.mp ((TextBuffer.write_isSome buffer).mpr (name_lt target))
    obtain ⟨text', htext'⟩ := hwrite text
    obtain ⟨first', hfirst'⟩ := hwrite first
    rw [htext', hfirst']
    exact ⟨_, rfl, _, rfl, rfl⟩
  · exact iff_true_intro ⟨_, rfl, _, rfl, rfl⟩
  · exact ⟨fun ⟨_, hnone, _⟩ => Option.some_ne_none _ hnone.symm, False.elim⟩
  · rw [← deliver_alike h name recipients]
    constructor
    · rintro ⟨r, hr, r', hr', hsame⟩
      obtain ⟨delivered, hdelivered, rfl⟩ := Option.map_eq_some_iff.mp hr
      obtain ⟨delivered', hdelivered', rfl⟩ := Option.map_eq_some_iff.mp hr'
      rw [messages_append, messages_append] at hsame
      exact ⟨delivered, hdelivered, delivered', hdelivered', List.append_cancel_left hsame⟩
    · rintro ⟨delivered, hdelivered, delivered', hdelivered', hsame⟩
      rw [hdelivered, hdelivered']
      refine ⟨_, rfl, _, rfl, ?_⟩
      rw [messages_append, messages_append, hsame]

/-- The targets are served like alone if each of them is clear behind those before it. -/
theorem privLoop_alone {first text : TextBuffer} {before targets : List IrcTarget}
    (h : Stands key s client first before text) :
    (∃ r, privLoop key s client targets text = some r ∧
      ∀ n target, targets[n]? = some target →
        Alone key s client first target (r.1.getD n [])) ↔
    ∀ before' target after, targets = before' ++ target :: after →
      Clear key s client first (before ++ before') target := by
  induction targets generalizing before text with
  | nil =>
    refine ⟨fun _ before' target after hsplit => ?_, fun _ => ⟨_, rfl, fun n target hn => ?_⟩⟩
    · exact absurd hsplit.symm (List.append_ne_nil_of_right_ne_nil _ (List.cons_ne_nil _ _))
    · exact absurd hn.symm (Option.some_ne_none _)
  | cons target targets ih =>
    constructor
    · rintro ⟨r, hr, hall⟩ before' target' after hsplit
      obtain ⟨round, hround, hr⟩ := Option.bind_eq_some_iff.mp hr
      obtain ⟨rest, hrest, rfl⟩ := Option.map_eq_some_iff.mp hr
      cases before' with
      | nil =>
        obtain ⟨rfl, -⟩ := List.cons_eq_cons.mp hsplit
        rw [List.append_nil]
        exact (alone_iff h).mp ⟨round, hround, hall 0 target rfl⟩
      | cons target₁ before' =>
        obtain ⟨rfl, htargets⟩ := List.cons_eq_cons.mp hsplit
        have hclear := (ih (h.step hround)).mp
          ⟨rest, hrest, fun n target' hn => hall (n + 1) target' hn⟩ before' target' after htargets
        rwa [List.append_assoc] at hclear
    · intro hclear
      have hhead := hclear [] target targets rfl
      rw [List.append_nil] at hhead
      obtain ⟨round, hround, halone⟩ := (alone_iff h).mpr hhead
      obtain ⟨rest, hrest, hall⟩ := (ih (h.step hround)).mpr (fun before' target' after hsplit => by
        have hnext := hclear (target :: before') target' after (by rw [hsplit]; rfl)
        rwa [List.append_assoc])
      refine ⟨(round.1 :: rest.1, rest.2), ?_, fun n target' hn => ?_⟩
      · rw [privLoop, hround, Option.bind_some, hrest]
        rfl
      · cases n with
        | zero =>
          obtain rfl := Option.some.inj hn
          exact halone
        | succ n => exact hall n target' hn

end Serveez.Irc.Messages
