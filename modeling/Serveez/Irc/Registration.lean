import Serveez.Irc.StageReads

/-!
# What registration is for

* `Inside.callback`: what every step keeps that meets the condition.
* `registrationHolds_of_keeps`: no callback reads `NULL`, and clients that are not registered are in
  no channel, no operators and heard by nobody, while the commands that this fails for do not come
  from such clients and memory that a channel still lists is not given away.
-/

set_option linter.unusedSectionVars false

namespace Serveez.Irc.Stages

open Lib Channels Messages

variable {κ : Type} [DecidableEq κ] {cfg : ModeConfig} {key : List UInt8 → κ}
  {s s' : StageState κ} {limit : Int}

/-! ## Steps -/

/-- What all steps keep that meet the condition. -/
structure Inside (key : List UInt8 → κ) (s : StageState κ) : Prop where
  barred : Barred key s.irc
  operator : ∀ id, (id, false) ∈ s.irc.roll → s.modes id .operator = false

namespace Inside

theorem outsiders (h : Inside key s) : Outsiders s := by
  refine ⟨fun c hc hnot ch hch hin => ?_, fun c hc hnot => ?_⟩
  · exact h.barred.outside c hc hnot (mem_members.mpr ⟨ch, hch, hin⟩)
  · exact h.operator c.id (mem_roll_iff.mpr ⟨c, hc, rfl, hnot⟩)

theorem notMem_roll (h : Inside key s) {sock : Nat} {c : IrcClient}
    (hc : s.clientOf sock = some c) : (c.id, !c.registered) ∉ s.irc.roll := by
  intro hmem
  have hown := mem_roll (clientOf_mem hc).1
  have hsame := congrArg Prod.snd (h.barred.entries.roll.eq_of_key hmem hown rfl)
  cases hregistered : c.registered <;> rw [hregistered] at hsame <;>
    exact Bool.noConfusion hsame

theorem of_same (h : Inside key s) (hbarred : Barred key s'.irc)
    (hroll : s'.irc.roll = s.irc.roll)
    (hmodes : ∀ id, s.modes id .operator = false → s'.modes id .operator = false) :
    Inside key s' :=
  ⟨hbarred, fun id hid => hmodes id (h.operator id (hroll ▸ hid))⟩

theorem step (h : Inside key s) {event : IrcEvent}
    (hstep : ircStep cfg.irc key s.irc event = some s'.irc)
    (hjoin : ∀ sock targets, event ≠ .request sock (.join targets))
    (hmodes : ∀ id, s.modes id .operator = false → s'.modes id .operator = false)
    (hconnect : ∀ sock addr, event = .connect sock addr →
      addr ∉ s.irc.members ∧ s'.modes addr .operator = false) : Inside key s' := by
  refine ⟨ircStep_barred h.barred hstep hjoin fun sock addr hnew => (hconnect sock addr hnew).1,
    fun id hid => ?_⟩
  rw [ircStep_roll hstep] at hid
  rcases unregistered_before hid with hold | hcomes
  · exact hmodes id (h.operator id hold)
  · rcases rollChange_cases cfg.irc s.irc event with hsame | ⟨sock, addr, hevent, hnew⟩ |
      ⟨-, a, -, hgoes⟩ | ⟨-, -, a, -, -, henrolls⟩
    · exact RollChange.noConfusion (hcomes.symm.trans hsame)
    · obtain rfl := RollChange.comes.inj (hcomes.symm.trans hnew)
      exact (hconnect sock id hevent).2
    · exact RollChange.noConfusion (hcomes.symm.trans hgoes)
    · exact RollChange.noConfusion (hcomes.symm.trans henrolls)

theorem ircEvent (h : Inside key s) {event : IrcEvent}
    (hstep : Stages.ircEvent cfg key s event = some s')
    (hfree : ∀ sock addr, event = .connect sock addr → addr ∉ s.irc.members) : Inside key s' := by
  obtain ⟨channels, hchannels, rfl⟩ := Option.map_eq_some_iff.mp hstep
  obtain ⟨irc, hirc, hjoin, rfl⟩ := channelStep_other hchannels
  refine h.step hirc hjoin (fun id hid => ?_) (fun sock addr hnew => ⟨hfree sock addr hnew, ?_⟩)
  · rcases forgets_cases event s.modes (fun _ => false) id with hnone | hsame
    · exact congrFun hnone .operator
    · exact (congrFun hsame .operator).trans hid
  · subst hnew
    exact congrFun (Function.update_self addr _ s.modes) .operator

/-- Other fields of a state do not matter. -/
theorem of_eq (h : Inside key s) (hirc : s'.irc = s.irc) (hmodes : s'.modes = s.modes) :
    Inside key s' := by
  refine h.of_same (hirc ▸ h.barred) (hirc ▸ rfl) (fun id hid => ?_)
  rw [hmodes]
  exact hid

theorem answered (h : Inside key s) (sock : Nat) (f : ClientData → ClientData) :
    Inside key (Stages.answered s sock f) := by
  unfold Stages.answered
  split
  · exact h.of_eq rfl rfl
  · exact h

/-- MODE, INVITE and ISON. -/
theorem channelEvent (h : Inside key s) {event : ChannelEvent}
    (hstep : Stages.channelEvent cfg key s event = some s')
    (hjoin : ∀ sock data targets, event ≠ .join sock data targets)
    (hother : ∀ e, event ≠ .other e) : Inside key s' := by
  obtain ⟨channels, hchannels, rfl⟩ := Option.map_eq_some_iff.mp hstep
  obtain ⟨sock, request, hrequest, hirc⟩ := channelStep_request hchannels hjoin hother
  refine h.step hirc (fun sock' targets hsame => ?_) (fun _ hid => hid) (fun _ _ hsame => ?_)
  · exact hrequest targets (IrcEvent.request.inj hsame).2
  · exact IrcEvent.noConfusion hsame

theorem join (h : Inside key s) {sock : Nat} {c : IrcClient} (hc : s.clientOf sock = some c)
    {targets : List JoinRequest}
    (hkeeps : joinKeeps cfg.irc.channelsPerUser key c (s.fields c.id) targets s.channels = true)
    (hstep : Stages.channelEvent cfg key s (.join sock (s.fields c.id) targets) = some s') :
    Inside key s' := by
  obtain ⟨channels, hchannels, rfl⟩ := Option.map_eq_some_iff.mp hstep
  obtain ⟨a, ha, hjoin⟩ := Option.bind_eq_some_iff.mp hchannels
  obtain rfl := Option.some.inj (hc.symm.trans ha)
  obtain ⟨hbarred, hroll⟩ := ircJoinCallback_barred h.barred (h.notMem_roll hc) hkeeps hjoin
  exact h.of_same hbarred hroll (fun _ hid => hid)

theorem oper (h : Inside key s) {sock : Nat} {c : IrcClient} (hc : s.clientOf sock = some c)
    {user password : List UInt8} {users : ModeState κ}
    (hkeeps : c.registered = true ∨
      ircOperValid cfg.agree (operFields (s.fields c.id) user password) c.nick cfg.opers ≠
        some true)
    (hoper : ircOperCallback cfg s.users c (s.fields c.id) user password = some users)
    (f : ClientData → ClientData) : Inside key ((s.setUsers users).setFields c.id f) := by
  obtain ⟨pass, -, hoper⟩ := Option.bind_eq_some_iff.mp hoper
  obtain ⟨ident, hident, hoper⟩ := Option.bind_eq_some_iff.mp hoper
  obtain ⟨valid, hvalid, rfl⟩ := Option.map_eq_some_iff.mp hoper
  have hfields : operFields (s.fields c.id) user password =
      { s.fields c.id with
        pass := some password
        user := some (if ident = [] then user else ident) } := by
    unfold operFields
    rw [hident]
    rfl
  rw [hfields, hvalid] at hkeeps
  cases valid with
  | false => exact h.of_eq rfl rfl
  | true =>
    have hregistered : c.registered = true := hkeeps.resolve_right (fun hnot => hnot rfl)
    refine ⟨h.barred, fun id hid => ?_⟩
    have hne : id ≠ c.id := by
      rintro rfl
      have hout := h.notMem_roll hc
      rw [hregistered] at hout
      exact hout hid
    exact (congrFun (Function.update_of_ne hne _ s.modes) .operator).trans (h.operator id hid)

/-- MODE for a nick makes no operators. -/
theorem mode (h : Inside key s) {sock : Nat} {name req : List UInt8} {users : ModeState κ}
    (hmode : modeStep cfg key s.users (.mode sock name req) = some users) :
    Inside key (s.setUsers users) := by
  refine h.of_same h.barred rfl (fun id hid => ?_)
  rcases modeStep_mode hmode with ⟨rfl, -⟩ | ⟨c, -, -, -, hown, hoperator⟩
  · exact hid
  · by_cases hsame : id = c.id
    · rw [hsame] at hid ⊢
      have hnot : s.users.modes c.id .operator = false := hid
      exact hoperator.trans (by rw [hnot, Bool.false_and])
    · exact (congrFun (hown.others id hsame) .operator).trans hid

theorem callback (h : Inside key s) {event : StageEvent}
    (hkeeps : keepsStages cfg key s event = true)
    (hstep : Stages.callback cfg key s event = some s') : Inside key s' := by
  have hevent {event : IrcEvent} {s₁ : StageState κ}
      (hs₁ : Stages.ircEvent cfg key s event = some s₁)
      (hconnect : ∀ sock addr, event ≠ .connect sock addr) : Inside key s₁ :=
    h.ircEvent hs₁ (fun sock addr hnew => absurd hnew (hconnect sock addr))
  cases event with
  | identDone sock user =>
    obtain ⟨s₁, hs₁, rfl⟩ := Option.map_eq_some_iff.mp hstep
    have h₁ := hevent hs₁ (fun _ _ => IrcEvent.noConfusion)
    cases user with
    | none => exact h₁
    | some user => exact h₁.answered sock _
  | rdnsDone sock host =>
    obtain ⟨s₁, hs₁, rfl⟩ := Option.map_eq_some_iff.mp hstep
    have h₁ := hevent hs₁ (fun _ _ => IrcEvent.noConfusion)
    cases host with
    | none => exact h₁
    | some host => exact h₁.answered sock _
  | pass sock password =>
    obtain ⟨c, -, hstep⟩ := Option.bind_eq_some_iff.mp hstep
    obtain ⟨s₁, hs₁, rfl⟩ := Option.map_eq_some_iff.mp hstep
    have h₁ := hevent hs₁ (fun _ _ => IrcEvent.noConfusion)
    cases password with
    | none => exact h₁
    | some password => exact h₁.of_eq rfl rfl
  | user sock names =>
    obtain ⟨c, -, hstep⟩ := Option.bind_eq_some_iff.mp hstep
    obtain ⟨s₁, hs₁, rfl⟩ := Option.map_eq_some_iff.mp hstep
    have h₁ := hevent hs₁ (fun _ _ => IrcEvent.noConfusion)
    cases names with
    | none => exact h₁
    | some names =>
      dsimp only
      split
      · exact h₁
      · exact h₁.of_eq rfl rfl
  | oper sock names =>
    obtain ⟨c, hc, hstep⟩ := Option.bind_eq_some_iff.mp hstep
    cases names with
    | none =>
      obtain rfl := Option.some.inj hstep
      exact h
    | some names =>
      obtain ⟨users, hoper, rfl⟩ := Option.map_eq_some_iff.mp hstep
      simp only [keepsStages, hc, Option.all_some, Bool.and_eq_true, Bool.or_eq_true,
        decide_eq_true_eq] at hkeeps
      exact h.oper hc hkeeps.2 hoper _
  | join sock targets =>
    obtain ⟨c, hc, hstep⟩ := Option.bind_eq_some_iff.mp hstep
    simp only [keepsStages, hc, Option.all_some] at hkeeps
    exact h.join hc hkeeps hstep
  | mode sock name modes =>
    unfold Stages.callback at hstep
    dsimp only at hstep
    split at hstep
    · exact h.channelEvent hstep (fun _ _ _ => ChannelEvent.noConfusion)
        (fun _ => ChannelEvent.noConfusion)
    · cases modes with
      | none =>
        obtain ⟨c, -, rfl⟩ := Option.map_eq_some_iff.mp hstep
        exact h
      | some modes =>
        obtain ⟨users, hmode, rfl⟩ := Option.map_eq_some_iff.mp hstep
        exact h.mode hmode
  | invite sock nick chan =>
    exact h.channelEvent hstep (fun _ _ _ => ChannelEvent.noConfusion)
      (fun _ => ChannelEvent.noConfusion)
  | ison sock nicks =>
    exact h.channelEvent hstep (fun _ _ _ => ChannelEvent.noConfusion)
      (fun _ => ChannelEvent.noConfusion)
  | away sock absent =>
    obtain ⟨c, -, rfl⟩ := Option.map_eq_some_iff.mp hstep
    exact h.of_eq rfl rfl
  | message sock notice paras targets =>
    obtain ⟨c, -, hstep⟩ := Option.bind_eq_some_iff.mp hstep
    split at hstep <;> obtain ⟨sent, -, rfl⟩ := Option.map_eq_some_iff.mp hstep
    · exact h.of_eq rfl rfl
    · exact h.of_eq rfl rfl
  | names sock channels =>
    obtain ⟨c, -, rfl⟩ := Option.map_eq_some_iff.mp hstep
    exact h
  | search sock =>
    obtain ⟨c, -, rfl⟩ := Option.map_eq_some_iff.mp hstep
    exact h
  | other event =>
    unfold Stages.callback at hstep
    dsimp only at hstep
    split_ifs at hstep
    refine h.ircEvent hstep (fun sock addr hnew => ?_)
    subst hnew
    exact of_decide_eq_true hkeeps

theorem nullRead (h : Inside key s) {event : StageEvent}
    (hkeeps : keepsStages cfg key s event = true) : Stages.nullRead cfg key s event = false := by
  have hclient {sock : Nat} {p : IrcClient → Bool}
      (hp : ∀ c, s.clientOf sock = some c → p c = false) : (s.clientOf sock).any p = false := by
    cases hc : s.clientOf sock with
    | none => rfl
    | some c => exact hp c hc
  cases event with
  | pass sock password =>
    have hpassword : password ≠ some [] := of_decide_eq_true hkeeps
    simp [Stages.nullRead, hpassword]
  | oper sock names =>
    cases names with
    | none => rfl
    | some names =>
      refine hclient (fun c hc => ?_)
      simp only [keepsStages, hc, Option.all_some, Bool.and_eq_true, Bool.not_eq_true'] at hkeeps
      obtain ⟨⟨⟨hpass, huser⟩, hopers⟩, -⟩ := hkeeps
      rw [hopers, Option.isNone_eq_false_iff.mpr hpass, Option.isNone_eq_false_iff.mpr huser]
      rfl
  | join sock targets =>
    refine hclient (fun c hc => ?_)
    simp only [keepsStages, hc, Option.all_some] at hkeeps
    exact joinReads_barred h.barred (h.notMem_roll hc) hkeeps s.modes
  | mode sock name modes =>
    cases modes with
    | none => rfl
    | some modes =>
      refine hclient (fun c _ => ?_)
      cases hfind : (ircFindChannel key s.irc name).bind s.irc.channelAt with
      | none => rfl
      | some ch =>
        obtain ⟨id, -, hch⟩ := Option.bind_eq_some_iff.mp hfind
        cases hflag : (ch.client.idxOf? c.id).bind (ch.cflag[·]?) with
        | none => simp [hflag]
        | some cflag =>
          simp [hflag, modeReads_barred h.barred (channelAt_mem hch).1]
  | names sock channels =>
    exact hclient (fun c _ => namesReads_barred h.barred s.modes c.id channels)
  | search sock =>
    refine Bool.and_eq_false_iff.mpr (Or.inr (List.any_eq_false.mpr fun e he => ?_))
    rw [unnamed_of_nick fun _ hc => h.barred.nick_of_entry he hc]
    exact Bool.false_ne_true
  | other event =>
    cases event with
    | request sock request =>
      cases request with
      | nick nick =>
        cases nick with
        | none => rfl
        | some text =>
          exact hclient (fun c hc => nickReads_barred h.barred (clientOf_mem hc).1 text)
      | _ => rfl
    | _ => rfl
  | _ => rfl

theorem start : Inside key (startStages : StageState κ) :=
  ⟨barred_start, fun _ hid => absurd hid List.not_mem_nil⟩

end Inside

/-- Registration holds in a run whose steps meet the condition. -/
theorem registrationHolds_of_keeps (cfg : ModeConfig) (key : List UInt8 → κ)
    (events : List StageEvent)
    (hkeeps : ∀ pre event, pre ++ [event] <+: events → ∀ s, stageRun cfg key pre = some s →
      keepsStages cfg key s event = true) : RegistrationHolds cfg key events := by
  have hinside : ∀ pre, pre <+: events → ∀ s, stageRun cfg key pre = some s → Inside key s := by
    refine forall_reached_of_step (stageStep cfg key) (Inside key)
      (fun s event => keepsStages cfg key s event = true) Inside.start events ?_ ?_
    · intro s event s' h hstep hkeep
      unfold stageStep at hstep
      split_ifs at hstep
      exact h.callback hkeep hstep
    · exact fun pre event hpre s _ hs _ => hkeeps pre event hpre s hs
  refine ⟨fun pre hpre s hs => (hinside pre hpre s hs).outsiders, ?_, ?_⟩
  · intro pre event hpre s hs c delivered hsent hregistered
    exact sent_unheard (hkeeps pre event hpre s hs) hsent hregistered
  · intro pre event hpre s hs
    exact (hinside pre (prefix_of_concat hpre) s hs).nullRead (hkeeps pre event hpre s hs)

/-- A client comes to be registered and joins a channel; another one that has only a nick sends a
message to nobody. -/
theorem enrolledClient_registrationHolds :
    let cfg : ModeConfig := ⟨⟨5, none⟩, fun a b => decide (a = b), []⟩
    let events : List StageEvent :=
      [.other (.connect 1 1), .other (.request 1 (.nick (some [97]))),
        .user 1 (some ([98], [99])), .identDone 1 none, .rdnsDone 1 none, .pass 1 (some [112]),
        .oper 1 (some ([1], [2])), .other (.idle 1 true), .join 1 [⟨[35, 97], [], 10⟩],
        .other (.connect 2 2), .other (.request 2 (.nick (some [98]))), .message 2 false [] []]
    RegistrationHolds cfg ircKey events ∧
      ((stageRun cfg ircKey events).map fun s => s.irc.members) = some [1] := by
  intro cfg events
  have hall : ∀ n ∈ List.range events.length, (stageRun cfg ircKey (events.take n)).all
      (fun s => (events[n]?).all (keepsStages cfg ircKey s)) = true := by decide +kernel
  refine ⟨registrationHolds_of_keeps cfg ircKey events ?_, by decide +kernel⟩
  refine forall_steps (fun n event hevent s hs => ?_)
  obtain ⟨hn, -⟩ := List.getElem?_eq_some_iff.mp hevent
  have hstep := hall n (List.mem_range.mpr hn)
  rw [hs, Option.all_some, hevent] at hstep
  exact hstep

/-- JOIN from a client that has only a nick. -/
theorem joinBeforeUser_not_holds :
    ¬ ∀ (cfg : ModeConfig) (events : List StageEvent), RegistrationHolds cfg ircKey events := by
  intro hall
  let cfg : ModeConfig := ⟨⟨5, none⟩, fun a b => decide (a = b), []⟩
  let events : List StageEvent :=
    [.other (.connect 1 1), .other (.request 1 (.nick (some [97]))), .join 1 [⟨[35, 97], [], 10⟩]]
  have hrun : ((stageRun cfg ircKey events).map fun s =>
      (s.irc.live.map fun c => (c.id, c.registered), s.irc.rooms.map IrcChannel.client)) =
      some ([(1, false)], [[1]]) := by decide +kernel
  obtain ⟨s, hs, hstate⟩ := Option.map_eq_some_iff.mp hrun
  obtain ⟨hlive, hrooms⟩ := Prod.mk.inj hstate
  have hticket : (1, false) ∈ s.irc.live.map fun c => (c.id, c.registered) :=
    hlive ▸ List.mem_cons_self
  have hroom : [1] ∈ s.irc.rooms.map IrcChannel.client := hrooms ▸ List.mem_cons_self
  obtain ⟨c, hc, hown⟩ := List.mem_map.mp hticket
  obtain ⟨hid, hnot⟩ := Prod.mk.inj hown
  obtain ⟨ch, hch, hclients⟩ := List.mem_map.mp hroom
  have houtsiders := (hall cfg events).outsiders events (List.prefix_refl _) s hs
  have hout := houtsiders.member c hc hnot ch hch
  rw [hid, hclients] at hout
  exact hout List.mem_cons_self

end Serveez.Irc.Stages
