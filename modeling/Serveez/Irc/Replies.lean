import Serveez.Irc.Channels
import Serveez.Irc.Names

/-!
# Replies that are composed in static buffers

The buffers of `irc_ison_callback` and `irc_ban_string` are appended to and never cleared, so they
have all that has been written to them for any client (`channelStep_appended`).

* `sameReplies_iff`: two runs that end with the same clients and channels give the same replies
  exactly if they have left the same text in the buffers.
-/

set_option linter.unusedSectionVars false

namespace Serveez.Irc.Channels

open Lib

variable {κ : Type} [DecidableEq κ] {key : List UInt8 → κ} {cfg : IrcConfig}
  {s s' : ChannelState κ} {limit : Int}

/-- The list of the reply to ISON. -/
def isonReply (key : List UInt8 → κ) (s : ChannelState κ) (nicks : List (List UInt8)) :
    Option (List UInt8) :=
  (ircIsonCallback key s nicks).map ChannelState.nicklist

/-- The bans of a channel after a client with the flag `cflag` has taken one away. -/
def bansAfter (s : ChannelState κ) (channel : Nat) (cflag : UInt32) (arg : List UInt8) :
    Option (List IrcBan) :=
  (ircChannelArg s channel cflag modeBan arg false).map (fun s' => (s'.settings channel).ban)

/-- Two states give the same reply to each ISON, the same text for each ban, and take away the same
ban. -/
structure SameReplies (key : List UInt8 → κ) (s s' : ChannelState κ) : Prop where
  ison : ∀ nicks, nicks ≠ [] → isonReply key s nicks = isonReply key s' nicks
  ban : ∀ ban, ircBanString s.text ban = ircBanString s'.text ban
  unban : ∀ channel cflag arg, bansAfter s channel cflag arg = bansAfter s' channel cflag arg

/-! ## What is in the buffers -/

theorem isonLoop_appended {irc : IrcState κ} {nicks : List (List UInt8)}
    {nicklist nicklist' : List UInt8} (h : isonLoop key irc nicklist nicks = some nicklist') :
    Appended nicklist nicklist' := by
  induction nicks generalizing nicklist with
  | nil =>
    obtain rfl := Option.some.inj h
    exact Appended.refl nicklist
  | cons nick nicks ih =>
    rw [isonLoop] at h
    split at h
    · obtain ⟨nicklist₁, hfound, h⟩ := Option.bind_eq_some_iff.mp h
      obtain ⟨nicklist₀, hfirst, hsecond⟩ := Option.bind_eq_some_iff.mp hfound
      exact ((strcat_appended hfirst).trans (strcat_appended hsecond)).trans (ih h)
    · exact ih h

theorem ircJoinChannel_buffers {client addr : Nat} {chan : List UInt8}
    (hjoin : ircJoinChannel limit key s client chan addr = some s') :
    s'.text = s.text ∧ s'.nicklist = s.nicklist := by
  obtain ⟨irc, -, rfl⟩ := Option.map_eq_some_iff.mp hjoin
  split <;> split <;> exact ⟨rfl, rfl⟩

theorem joinAdmits_buffers {client : Nat} {data : ClientData} {target : JoinRequest}
    {admission : Bool × ChannelState κ}
    (hadmits : joinAdmits key s client data target = some admission) :
    admission.2.text = s.text ∧ admission.2.nicklist = s.nicklist := by
  unfold joinAdmits at hadmits
  split at hadmits
  · obtain rfl := Option.some.inj hadmits
    exact ⟨rfl, rfl⟩
  · obtain ⟨channel, -, hadmits⟩ := Option.bind_eq_some_iff.mp hadmits
    obtain ⟨c, -, hadmits⟩ := Option.bind_eq_some_iff.mp hadmits
    obtain ⟨result, -, rfl⟩ := Option.map_eq_some_iff.mp hadmits
    exact ⟨rfl, rfl⟩

theorem ircJoinCallback_buffers {client : Nat} {data : ClientData} {targets : List JoinRequest}
    (hjoin : ircJoinCallback limit key client data targets s = some s') :
    s'.text = s.text ∧ s'.nicklist = s.nicklist := by
  induction targets generalizing s with
  | nil =>
    obtain rfl := Option.some.inj hjoin
    exact ⟨rfl, rfl⟩
  | cons target targets ih =>
    rw [ircJoinCallback] at hjoin
    split at hjoin
    · obtain rfl := Option.some.inj hjoin
      exact ⟨rfl, rfl⟩
    obtain ⟨admission, hadmits, hjoin⟩ := Option.bind_eq_some_iff.mp hjoin
    obtain ⟨htext, hnicklist⟩ := joinAdmits_buffers hadmits
    split at hjoin
    · obtain rfl := Option.some.inj hjoin
      exact ⟨htext, hnicklist⟩
    obtain ⟨s₁, hs₁, hjoin⟩ := Option.bind_eq_some_iff.mp hjoin
    obtain ⟨htext₁, hnicklist₁⟩ := ircJoinChannel_buffers hs₁
    have hrest : s'.text = s₁.text ∧ s'.nicklist = s₁.nicklist := by
      split at hjoin
      · exact ih hjoin
      · obtain ⟨channel, -, hjoin⟩ := Option.bind_eq_some_iff.mp hjoin
        split_ifs at hjoin
        exact ih hjoin
    exact ⟨hrest.1.trans (htext₁.trans htext), hrest.2.trans (hnicklist₁.trans hnicklist)⟩

/-- No step takes anything from the buffers. -/
theorem channelStep_appended {event : ChannelEvent} (h : channelStep cfg key s event = some s') :
    Appended s.text s'.text ∧ Appended s.nicklist s'.nicklist := by
  have hsame (hbuffers : s'.text = s.text ∧ s'.nicklist = s.nicklist) :
      Appended s.text s'.text ∧ Appended s.nicklist s'.nicklist := by
    rw [hbuffers.1, hbuffers.2]
    exact ⟨Appended.refl _, Appended.refl _⟩
  cases event with
  | join sock data targets =>
    obtain ⟨c, -, hjoin⟩ := Option.bind_eq_some_iff.mp h
    exact hsame (ircJoinCallback_buffers hjoin)
  | mode sock chan modes =>
    obtain ⟨c, -, hmode⟩ := Option.bind_eq_some_iff.mp h
    rcases ircModeCallback_cases hmode with rfl | ⟨id, channel, n, cflag, -, -, -, -, hmodes⟩
    · exact hsame ⟨rfl, rfl⟩
    · rw [hmodes.nicklist]
      exact ⟨hmodes.text, Appended.refl _⟩
  | invite sock nick chan absent =>
    obtain ⟨c, -, hinvite⟩ := Option.bind_eq_some_iff.mp h
    rcases ircInviteCallback_cases hinvite with rfl | ⟨cl, id, c, -, -, -, rfl⟩
    · exact hsame ⟨rfl, rfl⟩
    · exact hsame ⟨rfl, rfl⟩
  | ison sock nicks =>
    obtain ⟨c, -, hison⟩ := Option.bind_eq_some_iff.mp h
    obtain ⟨nicklist, hloop, rfl⟩ := Option.map_eq_some_iff.mp hison
    exact ⟨Appended.refl _, isonLoop_appended hloop⟩
  | other event =>
    obtain ⟨irc, -, -, rfl⟩ := channelStep_other h
    exact hsame ⟨rfl, rfl⟩

theorem channelRun_buffers {events : List ChannelEvent} (h : channelRun cfg key events = some s) :
    s.text.length < maxMsgLen ∧ s.nicklist.length < maxMsgLen := by
  refine reached_invariant
    (I := fun s => s.text.length < maxMsgLen ∧ s.nicklist.length < maxMsgLen) ?_ ?_ h
  · intro s event s' hlt hstep
    obtain ⟨htext, hnicklist⟩ := channelStep_appended hstep
    exact ⟨htext.2 hlt.1, hnicklist.2 hlt.2⟩
  · exact ⟨(by decide : 0 < maxMsgLen), (by decide : 0 < maxMsgLen)⟩

/-! ## Two runs -/

/-- There are always nicks that nobody has. -/
theorem exists_unused (irc : IrcState (UInt64 × List UInt8)) :
    ∃ nick, ircFindNick ircKey irc nick = none := by
  obtain ⟨n, hn⟩ : ∃ n, ∀ e ∈ irc.clients, e.1.2.length < n := by
    induction irc.clients with
    | nil => exact ⟨0, fun e he => absurd he List.not_mem_nil⟩
    | cons e clients ih =>
      obtain ⟨n, hn⟩ := ih
      refine ⟨max n (e.1.2.length + 1), fun a ha => ?_⟩
      rcases List.mem_cons.mp ha with rfl | ha
      · omega
      · have hlt := hn a ha
        omega
  refine ⟨List.replicate n 97, ?_⟩
  unfold ircFindNick
  rw [Option.map_eq_none_iff, findKey_none]
  intro e he hsame
  have hlength := congrArg (fun k => k.2.length) hsame
  have hlt := hn e he
  simp only [ircKey, List.length_map, List.length_replicate] at hlength
  omega

theorem isonReply_unused {nick : List UInt8} (h : ircFindNick key s.irc nick = none) :
    isonReply key s [nick] = some s.nicklist := by
  unfold isonReply ircIsonCallback
  rw [isonLoop, h]
  rfl

theorem ircBanString_empty {text : List UInt8} (h : text.length < maxMsgLen) :
    ircBanString text ⟨none, none, some []⟩ = some text := by
  rw [ircBanString_eq h]
  exact strcat_nil h

/-- An operator takes away the ban that `findBan` finds. -/
theorem bansAfter_eq (s : ChannelState κ) (channel : Nat) (cflag : UInt32) (arg : List UInt8) :
    bansAfter s channel cflag arg =
      (s.irc.channelAt channel).bind fun ch =>
        if cflag &&& modeOperator = 0 then some (s.settings channel).ban
        else
          (findBan arg 0 (s.settings channel).ban s.text).bind fun found =>
          if s.irc.tells ch.client = false then none
          else
            match found.1 with
            | none => some (s.settings channel).ban
            | some n => some (swapRemove (s.settings channel).ban n) := by
  unfold bansAfter ircChannelArg channelArg
  rw [if_neg (fun h => Bool.false_ne_true h.1), Option.map_bind]
  refine Option.bind_congr (fun ch _ => ?_)
  dsimp only [Function.comp_apply]
  split
  · rfl
  · rw [if_neg Bool.false_ne_true, if_pos (by decide), Option.map_bind, Option.bind_map]
    refine Option.bind_congr (fun found _ => ?_)
    dsimp only [Function.comp_apply]
    cases htells : s.irc.tells ch.client <;> cases found.1 <;>
      simp [ChannelState.setSettings]

/-- The histories of a state do not matter to the replies. -/
theorem sameReplies_of_buffers (hirc : s.irc = s'.irc) (hsettings : s.settings = s'.settings)
    (htext : s.text = s'.text) (hnicklist : s.nicklist = s'.nicklist) : SameReplies key s s' := by
  refine ⟨fun nicks _ => ?_, fun ban => by rw [htext], fun channel cflag arg => ?_⟩
  · unfold isonReply ircIsonCallback
    rw [hirc, hnicklist, Option.map_map, Option.map_map]
    rfl
  · rw [bansAfter_eq, bansAfter_eq, hirc, hsettings, htext]

theorem sameReplies_iff {cfg : IrcConfig} {events events' : List ChannelEvent}
    {s s' : ChannelState (UInt64 × List UInt8)} (hs : channelRun cfg ircKey events = some s)
    (hs' : channelRun cfg ircKey events' = some s') (hirc : s.irc = s'.irc)
    (hsettings : s.settings = s'.settings) :
    SameReplies ircKey s s' ↔ s.nicklist = s'.nicklist ∧ s.text = s'.text := by
  constructor
  · intro hsame
    obtain ⟨nick, hnick⟩ := exists_unused s.irc
    have hison := hsame.ison [nick] (List.cons_ne_nil _ _)
    rw [isonReply_unused hnick, isonReply_unused (hirc ▸ hnick)] at hison
    have hban := hsame.ban ⟨none, none, some []⟩
    rw [ircBanString_empty (channelRun_buffers hs).1,
      ircBanString_empty (channelRun_buffers hs').1] at hban
    exact ⟨Option.some.inj hison, Option.some.inj hban⟩
  · rintro ⟨hnicklist, htext⟩
    exact sameReplies_of_buffers hirc hsettings htext hnicklist

/-- One more ISON only changes its buffer. -/
theorem channelRun_ison {events : List ChannelEvent} {sock : Nat} {nicks : List (List UInt8)}
    (h : channelRun cfg key (events ++ [.ison sock nicks]) = some s') :
    ∃ s, channelRun cfg key events = some s ∧ s.irc = s'.irc ∧ s.settings = s'.settings := by
  unfold channelRun at h
  rw [foldl_concat] at h
  obtain ⟨s, hs, hstep⟩ := Option.bind_eq_some_iff.mp h
  obtain ⟨c, -, hison⟩ := Option.bind_eq_some_iff.mp hstep
  obtain ⟨nicklist, -, rfl⟩ := Option.map_eq_some_iff.mp hison
  exact ⟨s, hs, rfl, rfl⟩

/-- After a ban that was set and taken away, and an ISON, both buffers have text. One more ISON for
a nick that nobody has leaves nothing behind. -/
theorem sameReplies_unknown :
    let events : List ChannelEvent := enrolment 1 1 [97] ++
      [.join 1 ⟨some [117], some [104], none, []⟩ [⟨[38, 99], [], 10⟩],
        .mode 1 [38, 99] (some ([43, 98], [[98, 33, 99, 64, 100]])),
        .mode 1 [38, 99] (some ([45, 98], [[98, 33, 99, 64, 100]])), .ison 1 [[97]]]
    ∃ s s', channelRun ⟨10, none⟩ ircKey events = some s ∧
      channelRun ⟨10, none⟩ ircKey (events ++ [.ison 1 [[98]]]) = some s' ∧
      s.nicklist ≠ [] ∧ s.text ≠ [] ∧ SameReplies ircKey s s' := by
  intro events
  have hbuffers : (channelRun ⟨10, none⟩ ircKey events).map (fun s => (s.nicklist, s.text)) =
      some ([97, 32], [98, 33, 99, 64, 100]) := by decide +kernel
  have hbuffers' : (channelRun ⟨10, none⟩ ircKey (events ++ [.ison 1 [[98]]])).map
      (fun s => (s.nicklist, s.text)) = some ([97, 32], [98, 33, 99, 64, 100]) := by decide +kernel
  obtain ⟨s', hs', hsame'⟩ := Option.map_eq_some_iff.mp hbuffers'
  obtain ⟨s, hs, hirc, hsettings⟩ := channelRun_ison hs'
  rw [hs, Option.map_some] at hbuffers
  obtain ⟨hnicklist, htext⟩ := Prod.mk.inj (Option.some.inj hbuffers)
  obtain ⟨hnicklist', htext'⟩ := Prod.mk.inj hsame'
  refine ⟨s, s', hs, hs', by rw [hnicklist]; simp, by rw [htext]; simp, ?_⟩
  exact (sameReplies_iff hs hs' hirc hsettings).mpr
    ⟨hnicklist.trans hnicklist'.symm, htext.trans htext'.symm⟩

/-- The nick that one client asks for is in the reply to the next. -/
theorem isonTwice_not_sameReplies :
    ¬ ∀ (cfg : IrcConfig) (events events' : List ChannelEvent)
      (s s' : ChannelState (UInt64 × List UInt8)), channelRun cfg ircKey events = some s →
        channelRun cfg ircKey events' = some s' → s.irc = s'.irc → s.settings = s'.settings →
          SameReplies ircKey s s' := by
  intro hall
  let cfg : IrcConfig := ⟨10, none⟩
  let events : List ChannelEvent := enrolment 1 1 [97]
  have hrun : (channelRun cfg ircKey events).map (isonReply ircKey · [[97]]) =
      some (some [97, 32]) := by decide +kernel
  have hrun' : (channelRun cfg ircKey (events ++ [.ison 1 [[97]]])).map
      (isonReply ircKey · [[97]]) = some (some [97, 32, 97, 32]) := by decide +kernel
  obtain ⟨s', hs', hreply'⟩ := Option.map_eq_some_iff.mp hrun'
  obtain ⟨s, hs, hirc, hsettings⟩ := channelRun_ison hs'
  rw [hs, Option.map_some] at hrun
  have hsame := (hall cfg events _ s s' hs hs' hirc hsettings).ison [[97]] (List.cons_ne_nil _ _)
  rw [Option.some.inj hrun, hreply'] at hsame
  exact absurd hsame (by decide)

end Serveez.Irc.Channels
