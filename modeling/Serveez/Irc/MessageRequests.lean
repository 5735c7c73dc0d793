import Serveez.Irc.MessageBuffer

/-!
# Requests for messages

* `served_iff`, `notice_iff`: when PRIVMSG and NOTICE serve their targets alike.
* `delivered_iff`: the targets receive what they would receive alone just when the text that stands
  in the buffer reads for each of them like the text of the sender.
-/

namespace Serveez.Irc.Messages

open Lib Channels

variable {κ : Type} [DecidableEq κ] {key : List UInt8 → κ} {s : MessageState κ}
  {client : IrcClient} {target : IrcTarget}

section Request

variable {paras : List (CString maxMsgLen)} {targets : List IrcTarget} {first note : TextBuffer}

theorem zero_notMem_textOf (paras : List (CString maxMsgLen)) : 0 ∉ textOf paras := by
  intro h
  obtain ⟨para, -, hpara⟩ := List.mem_flatMap.mp h
  exact para.ends hpara

theorem ircPrivCallback_few (h : paras.length < 2) :
    ircPrivCallback key s client paras targets = some (.needMoreParams, s.priv) := if_pos h

theorem ircPrivCallback_write (h : 2 ≤ paras.length)
    (hfirst : s.priv.write (textOf paras) = some first) :
    ircPrivCallback key s client paras targets =
      if textOf paras = [] then some (.noText, first)
      else (privLoop key s client targets first).map fun sent => (.sent sent.1, sent.2) := by
  unfold ircPrivCallback
  rw [if_neg (Nat.not_lt.mpr h), hfirst, Option.bind_some,
    TextBuffer.text_write (zero_notMem_textOf paras) hfirst]

theorem ircPrivCallback_sent (h : 2 ≤ paras.length) (hne : textOf paras ≠ [])
    (hfirst : s.priv.write (textOf paras) = some first) {a : Answer × TextBuffer} :
    ircPrivCallback key s client paras targets = some a ↔
      ∃ sent, privLoop key s client targets first = some sent ∧ (.sent sent.1, sent.2) = a := by
  rw [ircPrivCallback_write h hfirst, if_neg hne]
  exact Option.map_eq_some_iff

theorem ircPrivCallback_single (h : 2 ≤ paras.length) (hne : textOf paras ≠ [])
    (hfirst : s.priv.write (textOf paras) = some first) {a : Answer × TextBuffer} :
    ircPrivCallback key s client paras [target] = some a ↔
      ∃ r, privTarget key s client target first = some r ∧ (.sent [r.1], r.2) = a := by
  rw [ircPrivCallback_sent h hne hfirst]
  unfold privLoop
  constructor
  · rintro ⟨sent, hsent, rfl⟩
    obtain ⟨r, hr, hsent⟩ := Option.bind_eq_some_iff.mp hsent
    obtain ⟨rest, hrest, rfl⟩ := Option.map_eq_some_iff.mp hsent
    obtain rfl := Option.some.inj hrest
    exact ⟨r, hr, rfl⟩
  · rintro ⟨r, hr, rfl⟩
    refine ⟨([r.1], r.2), ?_, rfl⟩
    rw [hr]
    rfl

theorem served_iff (h : 2 ≤ paras.length) (hne : textOf paras ≠ [])
    (hfirst : s.priv.write (textOf paras) = some first) :
    (∃ a, ircPrivCallback key s client paras targets = some a ∧
      ∀ n target, targets[n]? = some target →
        ∃ b, ircPrivCallback key s client paras [target] = some b ∧
          messages (a.1.replies.getD n []) = messages (b.1.replies.getD 0 [])) ↔
    ∀ before target after, targets = before ++ target :: after →
      Clear key s client first before target := by
  have hstands : Stands key s client first [] first := Stands.first first
  refine Iff.trans ?_ (privLoop_alone hstands)
  constructor
  · rintro ⟨a, ha, hall⟩
    obtain ⟨sent, hsent, rfl⟩ := (ircPrivCallback_sent h hne hfirst).mp ha
    refine ⟨sent, hsent, fun n target hn => ?_⟩
    obtain ⟨b, hb, hsame⟩ := hall n target hn
    obtain ⟨r, hr, rfl⟩ := (ircPrivCallback_single h hne hfirst).mp hb
    exact ⟨r, hr, hsame⟩
  · rintro ⟨sent, hsent, hall⟩
    refine ⟨_, (ircPrivCallback_sent h hne hfirst).mpr ⟨sent, hsent, rfl⟩, fun n target hn => ?_⟩
    obtain ⟨r, hr, hsame⟩ := hall n target hn
    exact ⟨_, (ircPrivCallback_single h hne hfirst).mpr ⟨r, hr, rfl⟩, hsame⟩

/-- The lines are for the clients that the target names. -/
theorem printTo_receivers {name : Option (List UInt8)} {text : TextBuffer} {ids : List Nat}
    {replies : List Reply} (hprint : printTo s name text ids = some replies) :
    (messages replies).map Prod.fst = ids := by
  induction ids generalizing replies with
  | nil =>
    obtain rfl := Option.some.inj hprint
    rfl
  | cons id ids ih =>
    obtain ⟨cl, -, t, -, rest, hrest, rfl⟩ := printTo_cons.mp hprint
    exact congrArg (id :: ·) (ih hrest)

theorem privTarget_addressed {text : TextBuffer} {r : List Reply × TextBuffer}
    (hround : privTarget key s client target text = some r) :
    ∀ m ∈ messages r.1,
      (aim key s client target).isReached = true ∧ m.1 ∈ named key s client target := by
  intro m hm
  rcases privTarget_cases key s client target with ⟨-, hround'⟩ | ⟨-, replies, hnone, hround'⟩ |
    ⟨-, hround'⟩ | ⟨recipients, name, outside, haim, hnamed, hnone, hround'⟩ <;>
    rw [hround'] at hround
  · obtain ⟨buffer, -, rfl⟩ := Option.map_eq_some_iff.mp hround
    exact absurd hm List.not_mem_nil
  · obtain rfl := Option.some.inj hround
    rw [hnone] at hm
    exact absurd hm List.not_mem_nil
  · exact absurd hround.symm (Option.some_ne_none _)
  · obtain ⟨delivered, hdeliver, rfl⟩ := Option.map_eq_some_iff.mp hround
    obtain ⟨buffer, -, hprint⟩ := Option.bind_eq_some_iff.mp hdeliver
    obtain ⟨printed, hprinted, rfl⟩ := Option.map_eq_some_iff.mp hprint
    rw [messages_append, hnone, List.nil_append] at hm
    refine ⟨haim ▸ rfl, ?_⟩
    rw [← hnamed, ← printTo_receivers hprinted]
    exact List.mem_map_of_mem hm

theorem privLoop_round {text : TextBuffer} {r : List (List Reply) × TextBuffer}
    (hloop : privLoop key s client targets text = some r) {n : Nat}
    (hn : targets[n]? = some target) :
    ∃ text' round, privTarget key s client target text' = some round ∧
      r.1.getD n [] = round.1 := by
  induction targets generalizing n text r with
  | nil => exact absurd hn.symm (Option.some_ne_none _)
  | cons target₁ targets ih =>
    obtain ⟨round, hround, hloop⟩ := Option.bind_eq_some_iff.mp hloop
    obtain ⟨rest, hrest, rfl⟩ := Option.map_eq_some_iff.mp hloop
    cases n with
    | zero =>
      obtain rfl := Option.some.inj hn
      exact ⟨text, round, hround, rfl⟩
    | succ n => exact ih hrest hn

theorem ircPrivCallback_addressed {a : Answer × TextBuffer}
    (ha : ircPrivCallback key s client paras targets = some a) {n : Nat}
    (hn : targets[n]? = some target) :
    ∀ m ∈ messages (a.1.replies.getD n []), m.1 ∈ named key s client target := by
  unfold ircPrivCallback at ha
  split at ha
  · obtain rfl := Option.some.inj ha
    exact fun m hm => absurd hm List.not_mem_nil
  obtain ⟨text, -, ha⟩ := Option.bind_eq_some_iff.mp ha
  split at ha
  · obtain rfl := Option.some.inj ha
    exact fun m hm => absurd hm List.not_mem_nil
  obtain ⟨sent, hsent, rfl⟩ := Option.map_eq_some_iff.mp ha
  obtain ⟨text', round, hround, hreplies⟩ := privLoop_round hsent hn
  show ∀ m ∈ messages (sent.1.getD n []), _
  rw [hreplies]
  exact fun m hm => (privTarget_addressed hround m hm).2

/-- A moderated channel refuses a client that is not in it, or its flag is read before the array. -/
theorem privTarget_outside {channel : IrcChannel} (houtside : Outside key s client target channel)
    (text : TextBuffer) :
    aim key s client target = .fault ∨
      privTarget key s client target text =
        some ([.notOnChannel channel.name, .cannotSend channel.name], text) := by
  obtain ⟨hnick, id, hfind, hchannel, hmoderated, hnot⟩ := houtside
  have hnone : channel.client.idxOf? client.id = none := List.idxOf?_eq_none_iff.mpr hnot
  unfold aim privTarget
  rw [hnick]
  dsimp only
  rw [hfind]
  dsimp only
  rw [hchannel, Option.bind_some]
  unfold maySend
  dsimp only
  rw [hnone]
  by_cases hmessage : (s.channels.settings id).flag &&& modeMessage ≠ 0
  · refine Or.inr ?_
    rw [if_pos ⟨hmessage, rfl⟩, Option.bind_some, if_pos rfl, if_neg hnot]
    rfl
  · refine Or.inl ?_
    rw [if_neg (fun h => hmessage h.1), if_neg hmoderated]
    rfl

theorem ircPrivCallback_outside (h : 2 ≤ paras.length)
    (hfirst : s.priv.write (textOf paras) = some first) {channel : IrcChannel}
    (houtside : Outside key s client target channel)
    (haim : textOf paras ≠ [] → aim key s client target ≠ .fault) :
    ∃ a, ircPrivCallback key s client paras [target] = some a ∧
      messages (a.1.replies.getD 0 []) = [] ∧
      (textOf paras ≠ [] → .cannotSend channel.name ∈ a.1.replies.getD 0 []) := by
  by_cases hne : textOf paras = []
  · refine ⟨_, (ircPrivCallback_write h hfirst).trans (if_pos hne), rfl, fun h => absurd hne h⟩
  · have hround := (privTarget_outside houtside first).resolve_left (haim hne)
    refine ⟨_, (ircPrivCallback_single h hne hfirst).mpr ⟨_, hround, rfl⟩, rfl, fun _ => ?_⟩
    exact List.mem_cons_of_mem _ List.mem_cons_self

theorem ircNoteCallback_nick (h : 2 ≤ paras.length) (hne : textOf paras ≠ [])
    (hnote : s.note.write (textOf paras) = some note) {id : Nat} {cl : IrcClient}
    (hfind : ircFindNick key s.channels.irc target.nick.text = some id)
    (hcl : s.channels.irc.clientAt id = some cl) (hhere : s.away id = false)
    {b : Answer × TextBuffer} :
    ircNoteCallback key s client paras [target] = some b ↔
      ∃ text, scramble s client note = some text ∧ (shown s cl text).isSome = true ∧
        (.sent [[.message id cl.nick text.text]], text) = b := by
  have htext := TextBuffer.text_write (zero_notMem_textOf paras) hnote
  unfold ircNoteCallback
  rw [if_neg (Nat.not_lt.mpr h), hnote, Option.bind_some, if_neg (by rw [htext]; exact hne)]
  have hhead : [target].head?.elim [] (·.nick.text) = target.nick.text := rfl
  rw [hhead, hfind]
  dsimp only
  rw [hcl, Option.bind_some, hhere, if_neg Bool.false_ne_true, Option.bind_eq_some_iff]
  refine exists_congr (fun text => and_congr_right (fun _ => ?_))
  rw [Option.map_eq_some_iff, Option.isSome_iff_exists]
  exact exists_and_right

theorem privTarget_nick {id : Nat} {cl : IrcClient}
    (hfind : ircFindNick key s.channels.irc target.nick.text = some id)
    (hcl : s.channels.irc.clientAt id = some cl) (hhere : s.away id = false)
    {text : TextBuffer} {r : List Reply × TextBuffer} :
    privTarget key s client target text = some r ↔
      ∃ text', scramble s client text = some text' ∧ ∃ t, shown s cl text' = some t ∧
        ([.message id cl.nick t], text') = r := by
  unfold privTarget
  rw [hfind]
  dsimp only
  rw [hcl, Option.bind_some, hhere, if_neg Bool.false_ne_true]
  unfold deliver
  rw [Option.bind_eq_some_iff]
  refine exists_congr (fun text' => and_congr_right (fun _ => ?_))
  rw [Option.map_eq_some_iff]
  constructor
  · rintro ⟨replies, hprint, rfl⟩
    obtain ⟨cl', hcl', t, ht, rest, hrest, rfl⟩ := printTo_cons.mp hprint
    obtain rfl := Option.some.inj (hcl.symm.trans hcl')
    obtain rfl := Option.some.inj hrest
    exact ⟨t, ht, rfl⟩
  · rintro ⟨t, ht, rfl⟩
    exact ⟨_, printTo_cons.mpr ⟨cl, hcl, t, ht, [], rfl, rfl⟩, rfl⟩

/-- What is sent is the same, for a nick that is not away. -/
theorem notice_here (id : Nat) {cl : IrcClient} {text : TextBuffer} {t : List UInt8}
    (hne : textOf paras ≠ []) (hfirst : s.priv.write (textOf paras) = some first)
    (hnote : s.note.write (textOf paras) = some note)
    (htext : scramble s client first = some text) (ht : shown s cl text = some t) :
    (∃ buffer, scramble s client note = some buffer ∧ (shown s cl buffer).isSome = true ∧
      [(id, t)] = [(id, buffer.text)]) ↔
    (cl.flag.pass = true →
      if client.flag.pass then
        s.key cl.id = 0 ∧ ircCryptPrefix ∉ ircEncryptText (s.key client.id) first.text
      else shown s cl first = some first.text ∧
        (ircDecryptText (s.key cl.id) note.block).isSome = true) := by
  have hfirstText := TextBuffer.text_write (zero_notMem_textOf paras) hfirst
  have hnoteText := TextBuffer.text_write (zero_notMem_textOf paras) hnote
  have hpair {u : List UInt8} : [(id, t)] = [(id, u)] ↔ t = u :=
    ⟨fun h => congrArg Prod.snd (List.cons_eq_cons.mp h).1, fun h => h ▸ rfl⟩
  cases hpass : client.flag.pass with
  | true =>
    have hwrite := (scramble_eq_some hpass).mp htext
    obtain ⟨buffer, hbuffer⟩ : ∃ buffer, scramble s client note = some buffer := by
      refine Option.isSome_iff_exists.mp ?_
      unfold scramble
      rw [if_pos hpass, TextBuffer.write_isSome, hnoteText, ← hfirstText]
      exact (TextBuffer.write_eq_some.mp hwrite).1
    have hread := Option.some.inj (ht.symm.trans (shown_scramble hpass htext cl))
    have hshown := shown_scramble hpass hbuffer cl
    have hsent : buffer.text = ircEncryptText (s.key client.id) first.text := by
      rw [hfirstText, ← hnoteText]
      exact TextBuffer.text_write (zero_notMem_encrypt _ _) ((scramble_eq_some hpass).mp hbuffer)
    have hbuffers : (∃ buffer, scramble s client note = some buffer ∧
        (shown s cl buffer).isSome = true ∧ [(id, t)] = [(id, buffer.text)]) ↔
        t = ircEncryptText (s.key client.id) first.text := by
      constructor
      · rintro ⟨buffer', hbuffer', -, hsame⟩
        obtain rfl := Option.some.inj (hbuffer.symm.trans hbuffer')
        exact (hpair.mp hsame).trans hsent
      · intro hsame
        refine ⟨buffer, hbuffer, ?_, hpair.mpr (hsame.trans hsent.symm)⟩
        rw [hshown]
        rfl
    rw [hbuffers, hread, if_pos rfl]
    cases hcl : cl.flag.pass with
    | true =>
      rw [if_pos rfl, cString_eq_encrypt (by rw [hfirstText]; exact hne)]
      exact ⟨fun h _ => h, fun h => h rfl⟩
    | false =>
      rw [if_neg Bool.false_ne_true]
      exact iff_of_true rfl (fun h => absurd h Bool.false_ne_true)
  | false =>
    have hplain (buffer : TextBuffer) : scramble s client buffer = some buffer := by
      unfold scramble
      rw [hpass]
      exact if_neg Bool.false_ne_true
    obtain rfl := Option.some.inj ((hplain first).symm.trans htext)
    rw [if_neg Bool.false_ne_true, hplain note]
    constructor
    · rintro ⟨buffer, hbuffer, hread, hsame⟩ hcl
      obtain rfl := Option.some.inj hbuffer
      refine ⟨?_, ?_⟩
      · rw [ht, hpair.mp hsame, hnoteText, hfirstText]
      · unfold shown at hread
        rwa [if_pos hcl, Option.isSome_map] at hread
    · intro halike
      refine ⟨note, rfl, ?_⟩
      rw [hpair]
      unfold shown at ht halike ⊢
      cases hcl : cl.flag.pass with
      | true =>
        obtain ⟨hsame, hread⟩ := halike hcl
        rw [hcl] at ht hsame
        rw [if_pos rfl, Option.isSome_map]
        exact ⟨hread, Option.some.inj (ht.symm.trans (hsame.trans
          (congrArg some (hfirstText.trans hnoteText.symm))))⟩
      | false =>
        rw [hcl, if_neg Bool.false_ne_true] at ht
        rw [if_neg Bool.false_ne_true]
        exact ⟨rfl, (Option.some.inj ht).symm.trans (hfirstText.trans hnoteText.symm)⟩

theorem notice_iff (h : 2 ≤ paras.length) (hne : textOf paras ≠ [])
    (hfirst : s.priv.write (textOf paras) = some first)
    (hnote : s.note.write (textOf paras) = some note)
    (hclear : Clear key s client first [] target)
    (hfound : (ircFindNick key s.channels.irc target.nick.text).isSome = true) :
    (∃ a b, ircPrivCallback key s client paras [target] = some a ∧
      ircNoteCallback key s client paras [target] = some b ∧
      messages (a.1.replies.getD 0 []) = messages (b.1.replies.getD 0 [])) ↔
    NoticeAlike key s client first note target := by
  obtain ⟨id, hfind⟩ := Option.isSome_iff_exists.mp hfound
  have hstands : Stands key s client first [] first := Stands.first first
  obtain ⟨r, hr, -⟩ := (alone_iff hstands).mpr hclear
  obtain ⟨cl, hcl⟩ : ∃ cl, s.channels.irc.clientAt id = some cl := by
    unfold privTarget at hr
    rw [hfind] at hr
    obtain ⟨cl, hcl, -⟩ := Option.bind_eq_some_iff.mp hr
    exact ⟨cl, hcl⟩
  have hpriv := (ircPrivCallback_single h hne hfirst).mpr ⟨r, hr, rfl⟩
  cases haway : s.away id with
  | true =>
    refine iff_of_true ⟨_, (.sent [[.absent cl.nick]], note), hpriv, ?_, ?_⟩ ?_
    · unfold ircNoteCallback
      rw [if_neg (Nat.not_lt.mpr h), hnote, Option.bind_some, if_neg (by
        rw [TextBuffer.text_write (zero_notMem_textOf paras) hnote]
        exact hne)]
      have hhead : [target].head?.elim [] (·.nick.text) = target.nick.text := rfl
      rw [hhead, hfind]
      dsimp only
      rw [hcl, Option.bind_some, haway, if_pos rfl]
    · unfold privTarget at hr
      rw [hfind] at hr
      dsimp only at hr
      rw [hcl, Option.bind_some, haway, if_pos rfl] at hr
      obtain rfl := Option.some.inj hr
      rfl
    · intro id' cl' hfind' hhere
      obtain rfl := Option.some.inj (hfind.symm.trans hfind')
      exact absurd (hhere.symm.trans haway) Bool.false_ne_true
  | false =>
    obtain ⟨text, htext, t, ht, rfl⟩ := (privTarget_nick hfind hcl haway).mp hr
    refine Iff.trans ?_ (Iff.trans (notice_here id hne hfirst hnote htext ht) ?_)
    · constructor
      · rintro ⟨a, b, ha, hb, hsame⟩
        obtain rfl := Option.some.inj (hpriv.symm.trans ha)
        obtain ⟨buffer, hbuffer, hread, rfl⟩ :=
          (ircNoteCallback_nick h hne hnote hfind hcl haway).mp hb
        exact ⟨buffer, hbuffer, hread, hsame⟩
      · rintro ⟨buffer, hbuffer, hread, hsame⟩
        exact ⟨_, _, hpriv, (ircNoteCallback_nick h hne hnote hfind hcl haway).mpr
          ⟨buffer, hbuffer, hread, rfl⟩, hsame⟩
    · constructor
      · intro halike id' cl' hfind' _ hcl'
        obtain rfl := Option.some.inj (hfind.symm.trans hfind')
        obtain rfl := Option.some.inj (hcl.symm.trans hcl')
        exact halike
      · exact fun halike => halike id cl hfind haway hcl

/-- Messages are delivered as they should be just when nothing disturbs the text. -/
theorem delivered_iff (key : List UInt8 → κ) (s : MessageState κ) (client : IrcClient)
    (paras : List (CString maxMsgLen)) (targets : List IrcTarget) :
    Delivered key s client paras targets ↔ Undisturbed key s client paras targets := by
  constructor
  · intro hdelivered h
    obtain ⟨a, ha, hall⟩ := hdelivered.alone
    obtain ⟨first, hfirst⟩ : ∃ first, s.priv.write (textOf paras) = some first := by
      unfold ircPrivCallback at ha
      rw [if_neg (Nat.not_lt.mpr h)] at ha
      obtain ⟨first, hfirst, -⟩ := Option.bind_eq_some_iff.mp ha
      exact ⟨first, hfirst⟩
    obtain ⟨note, hnote⟩ : ∃ note, s.note.write (textOf paras) = some note := by
      refine Option.isSome_iff_exists.mp ((TextBuffer.write_isSome s.note).mpr ?_)
      exact (TextBuffer.write_eq_some.mp hfirst).1
    refine ⟨first, note, hfirst, hnote, fun hne => ?_⟩
    have hclear := (served_iff h hne hfirst).mp ⟨a, ha, hall⟩
    refine ⟨hclear, fun target htargets => ?_⟩
    intro id cl hfind hhere hcl
    have hfound : (ircFindNick key s.channels.irc target.nick.text).isSome = true := by
      rw [hfind]
      rfl
    have hnotice := hdelivered.notice target htargets hfound
    subst htargets
    exact (notice_iff h hne hfirst hnote (hclear [] target [] rfl) hfound).mp hnotice
      id cl hfind hhere hcl
  · intro hundisturbed
    by_cases hfew : paras.length < 2
    · refine ⟨⟨_, ircPrivCallback_few hfew, fun n target _ => ⟨_, ircPrivCallback_few hfew, rfl⟩⟩,
        fun a ha n target hn => ircPrivCallback_addressed ha hn,
        fun target _ channel _ => ⟨_, ircPrivCallback_few hfew, rfl,
          fun h => absurd hfew (Nat.not_lt.mpr h)⟩,
        fun target _ _ => ⟨_, _, ircPrivCallback_few hfew, if_pos hfew, rfl⟩⟩
    have h := Nat.not_lt.mp hfew
    obtain ⟨first, note, hfirst, hnote, hrest⟩ := hundisturbed h
    have houtside : ∀ target ∈ targets, ∀ channel, Outside key s client target channel →
        textOf paras ≠ [] → aim key s client target ≠ .fault := by
      intro target htarget channel _ hne hfault
      obtain ⟨before, after, hsplit⟩ := List.append_of_mem htarget
      have hclear := (hrest hne).1 before target after hsplit
      unfold Clear at hclear
      rw [hfault] at hclear
      exact hclear
    by_cases hne : textOf paras = []
    · have hnone (targets : List IrcTarget) :
          ircPrivCallback key s client paras targets = some (.noText, first) :=
        (ircPrivCallback_write h hfirst).trans (if_pos hne)
      refine ⟨⟨_, hnone targets, fun n target _ => ⟨_, hnone [target], rfl⟩⟩,
        fun a ha n target hn => ircPrivCallback_addressed ha hn,
        fun target _ channel _ => ⟨_, hnone [target], rfl, fun _ h => absurd hne h⟩,
        fun target _ _ => ⟨_, (.noText, note), hnone targets, ?_, rfl⟩⟩
      unfold ircNoteCallback
      rw [if_neg hfew, hnote, Option.bind_some,
        if_pos ((TextBuffer.text_write (zero_notMem_textOf paras) hnote).trans hne)]
    · obtain ⟨hclear, halike⟩ := hrest hne
      refine ⟨(served_iff h hne hfirst).mpr hclear,
        fun a ha n target hn => ircPrivCallback_addressed ha hn,
        fun target htarget channel hchannel => ?_, fun target htargets hfound => ?_⟩
      · obtain ⟨a, ha, hnothing, hcannot⟩ := ircPrivCallback_outside h hfirst hchannel
          (houtside target htarget channel hchannel)
        exact ⟨a, ha, hnothing, fun _ => hcannot⟩
      · subst htargets
        exact (notice_iff h hne hfirst hnote (hclear [] target [] rfl) hfound).mpr
          (halike target rfl)

end Request

/-- The name of an unknown nick is sent to the next target. -/
theorem unknownFirst_not_delivered :
    ¬ ∀ (cfg : IrcConfig) (events : List ChannelEvent)
      (s : MessageState (UInt64 × List UInt8)), channelRun cfg ircKey events = some s.channels →
        ∀ sock client, s.channels.irc.clientOf sock = some client →
          ∀ paras targets, Delivered ircKey s client paras targets := by
  intro hall
  let cfg : IrcConfig := ⟨10, none⟩
  let events : List ChannelEvent := enrolment 1 1 [97] ++ enrolment 2 2 [98]
  let state (channels : ChannelState (UInt64 × List UInt8)) :
      MessageState (UInt64 × List UInt8) :=
    ⟨channels, fun _ => [], fun _ => false, TextBuffer.zero, TextBuffer.zero⟩
  let empty (n : Nat) (h : 0 < n) : CString n := ⟨[], List.not_mem_nil, h⟩
  let nick (c : UInt8) (h : 0 ∉ [c]) : IrcTarget :=
    ⟨empty _ (by decide), empty _ (by decide), empty _ (by decide),
      ⟨[c], h, show 1 < maxNickLen by decide⟩, empty _ (by decide)⟩
  let paras : List (CString maxMsgLen) :=
    [⟨[120, 44, 98], by decide, by decide⟩, ⟨[104, 105], by decide, by decide⟩]
  let unknown := nick 120 (by decide)
  let known := nick 98 (by decide)
  have hrun : (channelRun cfg ircKey events).bind (fun channels =>
      (channels.irc.clientOf 1).map fun client =>
        ((ircPrivCallback ircKey (state channels) client paras [unknown, known]).map
            fun a => messages (a.1.replies.getD 1 []),
          (ircPrivCallback ircKey (state channels) client paras [known]).map
            fun a => messages (a.1.replies.getD 0 []))) =
      some (some [(2, [120])], some [(2, [104, 105])]) := by decide +kernel
  obtain ⟨channels, hchannels, hrun⟩ := Option.bind_eq_some_iff.mp hrun
  obtain ⟨client, hclient, hsent⟩ := Option.map_eq_some_iff.mp hrun
  obtain ⟨hmany, hone⟩ := Prod.mk.inj hsent
  obtain ⟨a, ha, hserved⟩ :=
    (hall cfg events (state channels) hchannels 1 client hclient paras [unknown, known]).alone
  obtain ⟨b, hb, hsame⟩ := hserved 1 known rfl
  rw [ha] at hmany
  rw [hb] at hone
  have htexts := (Option.some.inj hmany).symm.trans (hsame.trans (Option.some.inj hone))
  exact absurd htexts (by decide)

end Serveez.Irc.Messages
