import Serveez.Irc.MessageRequests
import Serveez.Irc.Stages

/-!
# Callbacks for clients that are not registered

* `modeReads_barred`, `namesReads_barred`, `joinReads_barred`: no `NULL` is read while no such
  client is in a channel.
* `joinRound_barred`, `ircJoinCallback_barred`: JOIN keeps them out.
* `sent_unheard`: nobody hears them.
-/

set_option linter.unusedSectionVars false

namespace Serveez.Irc.Stages

open Lib Channels Messages

variable {κ : Type} [DecidableEq κ] {cfg : ModeConfig} {key : List UInt8 → κ}
  {s s' : StageState κ} {limit : Int}

/-! ## What is read of clients in a channel -/

theorem unnamed_of_nick {irc : IrcState κ} {id : Nat}
    (h : ∀ c, irc.clientAt id = some c → c.nick.isSome = true) : unnamed irc id = false := by
  unfold unnamed
  cases hc : irc.clientAt id with
  | none => rfl
  | some c =>
    have hnick := h c hc
    rw [Option.any_some, Option.isNone_eq_false_iff.mpr hnick]

section Barred

variable {irc : IrcState κ} (h : Barred key irc)
include h

theorem unnamed_member {id : Nat} {ch : IrcChannel} (hch : ch ∈ irc.rooms) (hid : id ∈ ch.client) :
    unnamed irc id = false :=
  unnamed_of_nick fun _ hc => h.nick (mem_members.mpr ⟨ch, hch, hid⟩) hc

theorem usersRead_barred (modes : Nat → UserFlag → Bool) (client : Nat) {ch : IrcChannel}
    (hch : ch ∈ irc.rooms) : usersRead irc modes client ch = false := by
  refine Bool.and_eq_false_iff.mpr (Or.inr (List.any_eq_false.mpr fun id hid => ?_))
  rw [unnamed_member h hch hid, Bool.and_false]
  exact Bool.false_ne_true

theorem listReads_barred (modes : Nat → UserFlag → Bool) (client : Nat) (chan : List UInt8) :
    listReads key irc modes client chan = false := by
  unfold listReads
  cases hfind : (ircFindChannel key irc chan).bind irc.channelAt with
  | none => rfl
  | some ch =>
    obtain ⟨id, -, hch⟩ := Option.bind_eq_some_iff.mp hfind
    exact usersRead_barred h modes client (channelAt_mem hch).1

theorem flagReads_barred {ch : IrcChannel} (hch : ch ∈ irc.rooms) (cflag : UInt32)
    (nick : List UInt8) : flagReads irc ch cflag nick = false := by
  refine Bool.and_eq_false_iff.mpr (Or.inr (List.any_eq_false.mpr fun id hid => ?_))
  rw [unnamed_member h hch ((List.takeWhile_sublist _).subset hid)]
  exact Bool.false_ne_true

theorem modeReads_barred {ch : IrcChannel} (hch : ch ∈ irc.rooms) (cflag : UInt32)
    (args : List (List UInt8)) (req : List UInt8) (set : Bool) (n : Nat) :
    modeReads irc ch cflag args set n req = false := by
  induction req generalizing set n with
  | nil => rfl
  | cons c req ih =>
    rw [modeReads]
    split
    · exact ih true n
    split
    · exact ih false n
    split
    · exact ih set _
    split
    · rw [ih, Bool.or_false]
      cases paraAt args n with
      | none => rfl
      | some nick => exact flagReads_barred h hch cflag nick
    split
    · exact ih set _
    · exact ih set n

theorem namesReads_barred (modes : Nat → UserFlag → Bool) (client : Nat)
    (channels : Option (List (List UInt8))) : namesReads key irc modes client channels = false := by
  cases channels with
  | some channels =>
    refine List.any_eq_false.mpr fun chan _ => ?_
    rw [listReads_barred h]
    exact Bool.false_ne_true
  | none =>
    refine Bool.or_eq_false_iff.mpr ⟨List.any_eq_false.mpr fun e _ => ?_,
      List.any_eq_false.mpr fun e he => ?_⟩
    · cases hch : irc.channelAt e.2 with
      | none => exact Bool.false_ne_true
      | some ch =>
        rw [Option.any_some, usersRead_barred h modes client (channelAt_mem hch).1]
        exact Bool.false_ne_true
    · rw [unnamed_of_nick fun _ hc => h.nick_of_entry he hc, Bool.and_false]
      exact Bool.false_ne_true

theorem nickReads_barred {c : IrcClient} (hc : c ∈ irc.live) (text : List UInt8) :
    nickReads key irc c text = false := by
  unfold nickReads
  cases hflag : c.flag.nick with
  | false => simp
  | true =>
    have hnick := h.nicked c hc hflag
    simp [Option.isNone_eq_false_iff.mpr hnick]

end Barred

/-! ## JOIN -/

section Join

variable {c : IrcClient} {data : ClientData} {r r' : ChannelState κ}

theorem joinRound_irc {client : Nat} {target : JoinRequest}
    (hround : joinRound limit key client data target r = some r') :
    Irc.ircJoinChannel limit key r.irc client target.channel target.addr = some r'.irc := by
  obtain ⟨admission, hadmits, hround⟩ := Option.bind_eq_some_iff.mp hround
  split_ifs at hround
  rw [← (joinAdmits_irc hadmits).1]
  exact ircJoinChannel_irc hround

theorem joinRound_barred (h : Barred key r.irc) (hroll : (c.id, !c.registered) ∉ r.irc.roll)
    (hkeep : c.registered = true ∨ limit ≤ 0) {target : JoinRequest}
    (hround : joinRound limit key c.id data target r = some r') :
    Barred key r'.irc ∧ r'.irc.roll = r.irc.roll := by
  have hjoin := joinRound_irc hround
  refine ⟨?_, (ircJoinChannel_within hjoin).same.roll⟩
  rcases hkeep with hregistered | hlimit
  · rw [hregistered] at hroll
    exact ircJoinChannel_barred h hroll hjoin
  · exact ircJoinChannel_full hlimit hjoin ▸ h

theorem joinKeeps_cons {target : JoinRequest} {targets : List JoinRequest}
    (hkeeps : joinKeeps limit key c data (target :: targets) r = true)
    (hname : target.channel ≠ []) :
    joinBans key r c.id data target = false ∧
      ∀ r', joinRound limit key c.id data target r = some r' →
        (c.registered = true ∨ limit ≤ 0) ∧ joinKeeps limit key c data targets r' = true := by
  simpa [joinKeeps, hname, Option.all_eq_true] using hkeeps

theorem ircJoinCallback_barred (h : Barred key r.irc)
    (hroll : (c.id, !c.registered) ∉ r.irc.roll) {targets : List JoinRequest}
    (hkeeps : joinKeeps limit key c data targets r = true)
    (hjoin : Channels.ircJoinCallback limit key c.id data targets r = some r') :
    Barred key r'.irc ∧ r'.irc.roll = r.irc.roll := by
  induction targets generalizing r with
  | nil =>
    obtain rfl := Option.some.inj hjoin
    exact ⟨h, rfl⟩
  | cons target targets ih =>
    rw [Channels.ircJoinCallback] at hjoin
    split at hjoin
    · obtain rfl := Option.some.inj hjoin
      exact ⟨h, rfl⟩
    next hname =>
    obtain ⟨admission, hadmits, hjoin⟩ := Option.bind_eq_some_iff.mp hjoin
    split at hjoin
    · obtain rfl := Option.some.inj hjoin
      rw [(joinAdmits_irc hadmits).1]
      exact ⟨h, rfl⟩
    next hadmitted =>
    obtain ⟨r₁, hr₁, hjoin⟩ := Option.bind_eq_some_iff.mp hjoin
    have hround : joinRound limit key c.id data target r = some r₁ := by
      unfold joinRound
      rw [hadmits, Option.bind_some, if_pos (Bool.not_eq_false _ ▸ hadmitted)]
      exact hr₁
    obtain ⟨hkeep, hrest⟩ := (joinKeeps_cons hkeeps hname).2 r₁ hround
    obtain ⟨h₁, hroll₁⟩ := joinRound_barred h hroll hkeep hround
    have hothers : Channels.ircJoinCallback limit key c.id data targets r₁ = some r' := by
      split at hjoin
      · exact hjoin
      · obtain ⟨ch, -, hjoin⟩ := Option.bind_eq_some_iff.mp hjoin
        split_ifs at hjoin
        exact hjoin
    obtain ⟨h', hroll'⟩ := ih h₁ (hroll₁ ▸ hroll) hrest hothers
    exact ⟨h', hroll'.trans hroll₁⟩

theorem joinReads_barred (h : Barred key r.irc) (hroll : (c.id, !c.registered) ∉ r.irc.roll)
    {targets : List JoinRequest} (hkeeps : joinKeeps limit key c data targets r = true)
    (modes : Nat → UserFlag → Bool) :
    joinReads limit key c.id data modes targets r = false := by
  induction targets generalizing r with
  | nil => rfl
  | cons target targets ih =>
    rw [joinReads]
    split
    · rfl
    next hname =>
    obtain ⟨hbans, hround⟩ := joinKeeps_cons hkeeps hname
    rw [hbans, Bool.false_or]
    cases hs : joinRound limit key c.id data target r with
    | none => rfl
    | some r₁ =>
      obtain ⟨hkeep, hrest⟩ := hround r₁ hs
      obtain ⟨h₁, hroll₁⟩ := joinRound_barred h hroll hkeep hs
      rw [Option.any_some, listReads_barred h₁, ih h₁ (hroll₁ ▸ hroll) hrest]
      rfl

end Join

/-! ## Messages -/

section Messages

variable {m : MessageState κ} {c : IrcClient} {paras : List (CString maxMsgLen)}
  {targets : List IrcTarget} {message : Nat × List UInt8}

theorem privLoop_message {text : TextBuffer} {r : List (List Reply) × TextBuffer}
    (hloop : privLoop key m c targets text = some r) (hm : message ∈ messages r.1.flatten) :
    ∃ target ∈ targets, (aim key m c target).isReached = true ∧
      message.1 ∈ named key m c target := by
  induction targets generalizing text r with
  | nil =>
    obtain rfl := Option.some.inj hloop
    exact absurd hm List.not_mem_nil
  | cons target targets ih =>
    obtain ⟨first, hfirst, hloop⟩ := Option.bind_eq_some_iff.mp hloop
    obtain ⟨rest, hrest, rfl⟩ := Option.map_eq_some_iff.mp hloop
    rw [List.flatten_cons, messages_append] at hm
    rcases List.mem_append.mp hm with hm | hm
    · exact ⟨target, List.mem_cons_self, privTarget_addressed hfirst message hm⟩
    · obtain ⟨target', htarget', haimed⟩ := ih hrest hm
      exact ⟨target', List.mem_cons_of_mem _ htarget', haimed⟩

theorem ircPrivCallback_message {a : Answer × TextBuffer}
    (ha : ircPrivCallback key m c paras targets = some a)
    (hm : message ∈ messages a.1.replies.flatten) :
    2 ≤ paras.length ∧ textOf paras ≠ [] ∧
      ∃ target ∈ targets, (aim key m c target).isReached = true ∧
        message.1 ∈ named key m c target := by
  unfold ircPrivCallback at ha
  split at ha
  · obtain rfl := Option.some.inj ha
    exact absurd hm List.not_mem_nil
  next henough =>
  obtain ⟨text, hwrite, ha⟩ := Option.bind_eq_some_iff.mp ha
  split at ha
  · obtain rfl := Option.some.inj ha
    exact absurd hm List.not_mem_nil
  next htext =>
  rw [TextBuffer.text_write (zero_notMem_textOf paras) hwrite] at htext
  obtain ⟨sent, hsent, rfl⟩ := Option.map_eq_some_iff.mp ha
  exact ⟨Nat.not_lt.mp henough, htext, privLoop_message hsent hm⟩

theorem ircNoteCallback_message {a : Answer × TextBuffer}
    (ha : ircNoteCallback key m c paras targets = some a)
    (hm : message ∈ messages a.1.replies.flatten) :
    2 ≤ paras.length ∧ textOf paras ≠ [] ∧
      ircFindNick key m.channels.irc (targets.head?.elim [] (·.nick.text)) = some message.1 ∧
        m.away message.1 = false := by
  unfold ircNoteCallback at ha
  split at ha
  · obtain rfl := Option.some.inj ha
    exact absurd hm List.not_mem_nil
  next henough =>
  obtain ⟨text, hwrite, ha⟩ := Option.bind_eq_some_iff.mp ha
  split at ha
  · obtain rfl := Option.some.inj ha
    exact absurd hm List.not_mem_nil
  next htext =>
  rw [TextBuffer.text_write (zero_notMem_textOf paras) hwrite] at htext
  split at ha
  · obtain rfl := Option.some.inj ha
    exact absurd hm List.not_mem_nil
  next id hid =>
  obtain ⟨cl, -, ha⟩ := Option.bind_eq_some_iff.mp ha
  split at ha
  · obtain rfl := Option.some.inj ha
    exact absurd hm List.not_mem_nil
  next haway =>
  obtain ⟨text', -, ha⟩ := Option.bind_eq_some_iff.mp ha
  obtain ⟨shown, -, rfl⟩ := Option.map_eq_some_iff.mp ha
  obtain rfl := List.mem_singleton.mp hm
  exact ⟨Nat.not_lt.mp henough, htext, hid, Bool.eq_false_iff.mpr haway⟩

/-- What a client that is not registered sends comes to no other. -/
theorem sent_unheard {event : StageEvent} (hkeeps : keepsStages cfg key s event = true)
    {delivered : List (Nat × List UInt8)} (hsent : sent key s event = some (c, delivered))
    (hregistered : c.registered = false) : ∀ message ∈ delivered, message.1 = c.id := by
  intro message hm
  cases event with
  | message sock notice paras targets =>
    obtain ⟨a, ha, hsent⟩ := Option.bind_eq_some_iff.mp hsent
    obtain ⟨answer, hanswer, hpair⟩ := Option.map_eq_some_iff.mp hsent
    obtain ⟨rfl, rfl⟩ := Prod.mk.inj hpair
    have hquiet : unheardBy key s.messages a notice paras targets = true := by
      simpa [keepsStages, ha, hregistered] using hkeeps
    unfold unheardBy at hquiet
    cases notice with
    | true =>
      obtain ⟨henough, htext, hfind, hhere⟩ := ircNoteCallback_message hanswer hm
      have hfew : ¬ paras.length < 2 := Nat.not_lt.mpr henough
      have hown : s.messages.away message.1 = true ∨ message.1 = a.id := by
        simpa [hfew, htext, hfind] using hquiet
      exact hown.resolve_left (Bool.eq_false_iff.mp hhere)
    | false =>
      obtain ⟨henough, htext, target, htarget, hreached, hnamed⟩ :=
        ircPrivCallback_message hanswer hm
      have hfew : ¬ paras.length < 2 := Nat.not_lt.mpr henough
      have hall : targets.all (fun target => !(aim key s.messages a target).isReached ||
          (named key s.messages a target).all (· = a.id)) = true := by
        simpa [hfew, htext] using hquiet
      have hown := List.all_eq_true.mp hall target htarget
      rw [hreached, Bool.not_true, Bool.false_or] at hown
      exact of_decide_eq_true (List.all_eq_true.mp hown message.1 hnamed)
  | _ => exact absurd hsent.symm (Option.some_ne_none _)

end Messages

end Serveez.Irc.Stages
