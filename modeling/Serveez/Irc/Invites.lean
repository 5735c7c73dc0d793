import Serveez.Irc.Channels
import Serveez.Irc.Names
import Serveez.Irc.Tidy

/-!
# Invitations

A channel keeps the clients that are invited by their addresses. JOIN takes an address from the
list, but a client that goes stays in the lists of other channels, and the next client at its
address has its invitations.

* `goes_rooms`: which channels are left when a client goes.
* `invites_iff`: in all states the clients that are invited exist, and no client has entered a
  channel without an invitation of its own, exactly if no client goes that is in the list of a
  channel that is left.
* `channelRun_tidy`: what holds in every run.
-/

set_option linter.unusedSectionVars false

namespace Serveez.Irc.Channels

open Lib

variable {κ : Type} [DecidableEq κ] {key : List UInt8 → κ} {cfg : IrcConfig}
  {s s' : ChannelState κ} {limit : Int}

/-- The clients that are invited exist, and nobody has entered a channel that is invite-only without
an invitation. -/
structure Invited (s : ChannelState κ) : Prop where
  exist : ∀ ch ∈ s.irc.rooms, ∀ id ∈ (s.settings ch.id).invite, (s.irc.clientAt id).isSome = true
  entered : s.trespassed = false

/-- A channel goes with its only client, which leaves it. -/
def Alone (s : IrcState κ) (event : IrcEvent) (id : Nat) (ch : IrcChannel) : Prop :=
  (∀ sock password, event ≠ .request sock (.pass password)) ∧
    (∃ c, s.clientAt id = some c ∧ ch.id ∈ c.channel) ∧ ch.client = [id]

/-- A client that goes is in no list of a channel that is left. -/
def KeepsInvites (cfg : IrcConfig) (s : ChannelState κ) : ChannelEvent → Prop
  | .other event => ∀ id, rollChange cfg s.irc event = .goes id → ∀ ch ∈ s.irc.rooms,
      id ∈ (s.settings ch.id).invite → Alone s.irc event id ch
  | _ => True

/-- Invitations in a list are owed. -/
structure Backed (key : List UInt8 → κ) (s : ChannelState κ) : Prop where
  entries : Entered key s.irc
  tidy : Tidy s.irc
  owed : ∀ ch ∈ s.irc.rooms, ∀ id,
    (s.settings ch.id).invite.count id ≤ (s.owed ch.id).count id

/-! ## Clients that go -/

variable {id : Nat} {irc irc' : IrcState κ}

theorem clientAt_isSome {irc : IrcState κ} :
    (irc.clientAt id).isSome = true ↔ ∃ p ∈ irc.roll, p.1 = id := by
  unfold IrcState.clientAt findKey IrcState.roll
  rw [List.find?_isSome]
  simp only [decide_eq_true_eq, List.mem_map]
  constructor
  · rintro ⟨c, hc, rfl⟩
    exact ⟨c.ticket, ⟨c, hc, rfl⟩, rfl⟩
  · rintro ⟨p, ⟨c, hc, rfl⟩, rfl⟩
    exact ⟨c, hc, rfl⟩

theorem clientAt_of_roll (hroll : irc'.roll = irc.roll) (hsome : (irc.clientAt id).isSome = true) :
    (irc'.clientAt id).isSome = true := by
  rw [clientAt_isSome] at hsome ⊢
  rwa [hroll]

theorem clientAt_step {event : IrcEvent} (hstep : ircStep cfg key irc event = some irc')
    (hsome : (irc.clientAt id).isSome = true) (hstays : rollChange cfg irc event ≠ .goes id) :
    (irc'.clientAt id).isSome = true := by
  rw [clientAt_isSome] at hsome ⊢
  obtain ⟨p, hp, rfl⟩ := hsome
  rw [ircStep_roll hstep]
  cases hchange : rollChange cfg irc event with
  | same => exact ⟨p, hp, rfl⟩
  | comes addr => exact ⟨p, List.mem_cons_of_mem _ hp, rfl⟩
  | goes gone =>
    have hne : p.1 ≠ gone := fun hsame => hstays (hchange.trans (hsame ▸ rfl))
    exact ⟨p, mem_removeKey.mpr ⟨hp, hne⟩, rfl⟩
  | enrolls enrolled =>
    refine ⟨_, List.mem_map_of_mem hp, ?_⟩
    split <;> rfl

theorem clientAt_gone {event : IrcEvent} (hstep : ircStep cfg key irc event = some irc')
    (hgoes : rollChange cfg irc event = .goes id) : (irc'.clientAt id).isSome ≠ true := by
  rw [Ne, clientAt_isSome, ircStep_roll hstep, hgoes]
  rintro ⟨p, hp, hid⟩
  exact (mem_removeKey.mp hp).2 hid

theorem leaveAll_rooms (htidy : Tidy irc) (hentered : Entered key irc) {c : IrcClient}
    (hc : irc.clientAt c.id = some c) (hleave : ircLeaveAllChannels key irc c = some irc')
    {ch : IrcChannel} (hch : ch ∈ irc.rooms) :
    (∃ ch' ∈ irc'.rooms, ch'.id = ch.id) ↔
      ¬ ((∃ a, irc.clientAt c.id = some a ∧ ch.id ∈ a.channel) ∧ ch.client = [c.id]) := by
  obtain ⟨irc₁, hloop, hleave⟩ := Option.bind_eq_some_iff.mp hleave
  obtain ⟨c₁, -, rfl⟩ := Option.map_eq_some_iff.mp hleave
  have hiff := leaveLoop_channelAt htidy hentered hc (Nat.le_refl _) hloop hch
  have hlisted : (∃ a, irc.clientAt c.id = some a ∧ ch.id ∈ a.channel) ↔ ch.id ∈ c.channel := by
    constructor
    · rintro ⟨a, ha, hin⟩
      obtain rfl := Option.some.inj (hc.symm.trans ha)
      exact hin
    · exact fun hin => ⟨c, hc, hin⟩
  rw [hlisted]
  exact hiff

theorem goes_rooms (htidy : Tidy irc) (hentered : Entered key irc) {event : IrcEvent}
    (hstep : ircStep cfg key irc event = some irc') (hgoes : rollChange cfg irc event = .goes id)
    {ch : IrcChannel} (hch : ch ∈ irc.rooms) :
    (∃ ch' ∈ irc'.rooms, ch'.id = ch.id) ↔ ¬ Alone irc event id ch := by
  have hclient {sock : Nat} {c : IrcClient} (hc : irc.clientOf sock = some c)
      (hsame : clientGoes irc sock = .goes id) : c.id = id := by
    unfold clientGoes at hsame
    rw [hc] at hsame
    exact RollChange.goes.inj hsame
  cases event with
  | connect sock addr => exact RollChange.noConfusion hgoes
  | identDone sock => exact RollChange.noConfusion hgoes
  | rdnsDone sock => exact RollChange.noConfusion hgoes
  | idle sock valid =>
    rw [rollChange] at hgoes
    cases hc : irc.clientOf sock with
    | none =>
      rw [hc] at hgoes
      exact RollChange.noConfusion hgoes
    | some c =>
      rw [hc] at hgoes
      dsimp only at hgoes
      split_ifs at hgoes
  | request sock request =>
    obtain ⟨c, hc, hhandle⟩ := Option.bind_eq_some_iff.mp hstep
    cases request with
    | quit =>
      obtain rfl := hclient hc hgoes
      rw [leaveAll_rooms htidy hentered (clientOf_mem hc).2.1 hhandle hch]
      exact not_congr (iff_and_self.mpr (fun _ sock' password hpass =>
        IrcRequest.noConfusion (IrcEvent.request.inj hpass).2))
    | pass password =>
      have hrooms : irc'.rooms = irc.rooms := by
        obtain rfl := Option.some.inj hhandle
        cases password with
        | none => rfl
        | some text =>
          unfold ircPassCallback
          dsimp only
          split <;> rfl
      rw [hrooms]
      exact iff_of_true ⟨ch, hch, rfl⟩ (fun halone => halone.1 sock password rfl)
    | _ => exact RollChange.noConfusion hgoes
  | disconnect sock =>
    have hgoes : clientGoes irc sock = .goes id := hgoes
    unfold ircStep ircDisconnect at hstep
    dsimp only at hstep
    rcases clientGoes_cases irc sock with hsame | ⟨c, hc, -⟩
    · rw [hsame] at hgoes
      exact RollChange.noConfusion hgoes
    · obtain rfl := hclient hc hgoes
      obtain ⟨-, hat, hdata⟩ := clientOf_mem hc
      rw [hdata] at hstep
      dsimp only at hstep
      rw [hat, Option.bind_some] at hstep
      obtain ⟨irc₁, hleave, rfl⟩ := Option.map_eq_some_iff.mp hstep
      have hiff := leaveAll_rooms htidy hentered hat hleave hch
      refine Iff.trans hiff (not_congr (iff_and_self.mpr (fun _ sock' password hpass => ?_)))
      exact IrcEvent.noConfusion hpass

/-! ## JOIN -/

/-- Whether an invitation has been taken from the list. -/
def Takes (client : Nat) (settings settings' : Settings) : Prop :=
  settings.flag &&& modeInvite ≠ 0 ∧ settings'.flag = settings.flag ∧
    ∀ id, settings'.invite.count id + (if id = client then 1 else 0) = settings.invite.count id

theorem takeInvite_cases {settings settings' : Settings} {client : Nat}
    (h : takeInvite settings client = some settings') :
    settings' = settings ∧ settings.flag &&& modeInvite = 0 ∨ Takes client settings settings' := by
  unfold takeInvite at h
  split at h
  · next hopen => exact Or.inl ⟨(Option.some.inj h).symm, hopen⟩
  · next hclosed =>
    obtain ⟨i, hi, rfl⟩ := Option.map_eq_some_iff.mp h
    obtain ⟨hlt, hget, -⟩ := List.idxOf?_eq_some_iff.mp hi
    refine Or.inr ⟨hclosed, rfl, fun id => ?_⟩
    have hcount := (swapRemove_perm hlt).count_eq id
    rw [hget, List.count_cons] at hcount
    show (swapRemove settings.invite i).count id + _ = _
    rw [← hcount]
    by_cases hid : id = client
    · simp [hid]
    · have hne : client ≠ id := fun hsame => hid hsame.symm
      simp [hid, hne]

theorem ircAdmits_cases {settings settings' : Settings} {clients client : Nat}
    {nick : Option (List UInt8)} {data : ClientData} {given : List UInt8} {admits : Bool}
    (h : ircAdmits settings clients client nick data given = some (admits, settings')) :
    settings' = settings ∧ (admits = true → settings.flag &&& modeInvite = 0) ∨
      Takes client settings settings' := by
  unfold ircAdmits at h
  obtain ⟨keyed, -, h⟩ := Option.bind_eq_some_iff.mp h
  split at h
  · obtain ⟨rfl, rfl⟩ := Prod.mk.inj (Option.some.inj h)
    exact Or.inl ⟨rfl, fun hfalse => absurd hfalse Bool.false_ne_true⟩
  split at h
  · obtain ⟨rfl, rfl⟩ := Prod.mk.inj (Option.some.inj h)
    exact Or.inl ⟨rfl, fun hfalse => absurd hfalse Bool.false_ne_true⟩
  · next settings₁ htake =>
    have hsame : settings' = settings₁ := by
      split at h
      · exact (Prod.mk.inj (Option.some.inj h)).2.symm
      · obtain ⟨banned, -, h⟩ := Option.map_eq_some_iff.mp h
        exact (Prod.mk.inj h).2.symm
    rw [hsame]
    rcases takeInvite_cases htake with ⟨rfl, hopen⟩ | htakes
    · exact Or.inl ⟨rfl, fun _ => hopen⟩
    · exact Or.inr htakes

theorem Backed.setSettings (h : Backed key s) (hinvited : Invited s) {settings : Settings}
    (hless : ∀ a, settings.invite.count a ≤ (s.settings id).invite.count a) :
    Backed key (s.setSettings id settings) ∧ Invited (s.setSettings id settings) := by
  have hcount (r a : Nat) : ((s.setSettings id settings).settings r).invite.count a ≤
      (s.settings r).invite.count a := by
    show (Function.update s.settings id settings r).invite.count a ≤ _
    by_cases hr : r = id
    · rw [hr, Function.update_self]
      exact hless a
    · exact Nat.le_of_eq (by rw [Function.update_of_ne hr])
  refine ⟨⟨h.entries, h.tidy, fun ch hch a => Nat.le_trans (hcount ch.id a) (h.owed ch hch a)⟩,
    fun ch hch a ha => ?_, hinvited.entered⟩
  have hpos := Nat.lt_of_lt_of_le (List.count_pos_iff.mpr ha) (hcount ch.id a)
  exact hinvited.exist ch hch a (List.count_pos_iff.mp hpos)

theorem Backed.setIrc (h : Backed key s) (hinvited : Invited s) {irc : IrcState κ}
    (hentries : Entered key irc) (htidy : Tidy irc) (hrooms : NoNewRooms s.irc irc)
    (hlive : ∀ id, (s.irc.clientAt id).isSome = true → (irc.clientAt id).isSome = true) :
    Backed key { s with irc := irc } ∧ Invited { s with irc := irc } := by
  refine ⟨⟨hentries, htidy, fun ch hch a => ?_⟩, fun ch hch a ha => ?_, hinvited.entered⟩
  · obtain ⟨ch₀, hch₀, hid⟩ := hrooms ch hch
    rw [← hid]
    exact h.owed ch₀ hch₀ a
  · obtain ⟨ch₀, hch₀, hid⟩ := hrooms ch hch
    rw [← hid] at ha
    exact hlive a (hinvited.exist ch₀ hch₀ a ha)

theorem join_noNewRooms {client addr id : Nat} {chan : List UInt8}
    (hfind : ircFindChannel key irc chan = some id)
    (hjoin : Irc.ircJoinChannel limit key irc client chan addr = some irc') :
    NoNewRooms irc irc' := by
  rcases ircJoinChannel_cases hjoin with rfl | ⟨c, ch, -, -, -, -, -, -, hrooms⟩ |
    ⟨c, -, -, hnone, -⟩
  · exact NoNewRooms.of_same rfl
  · have hset := noNewRooms_setChannel irc ch.id (f := fun ch =>
      { ch with client := ch.client ++ [c.id], cflag := ch.cflag ++ [0] }) (fun _ => rfl)
    exact hset.trans (NoNewRooms.of_same hrooms)
  · exact absurd (hfind.symm.trans hnone) (Option.some_ne_none id)

theorem join_new (h : Backed key s) (hinvited : Invited s) {client addr : Nat} {chan : List UInt8}
    (hfind : ircFindChannel key s.irc chan = none)
    (hjoin : ircJoinChannel limit key s client chan addr = some s') :
    Backed key s' ∧ Invited s' := by
  obtain ⟨irc, hirc, rfl⟩ := Option.map_eq_some_iff.mp hjoin
  rw [hfind]
  dsimp only
  have hwithin := (within_composes limit).join hirc
  have hentries := h.entries.of_within hwithin
  have htidy := ircJoinChannel_tidy h.tidy h.entries hirc
  have hlive : ∀ id, (s.irc.clientAt id).isSome = true → (irc.clientAt id).isSome = true :=
    fun _ => clientAt_of_roll hwithin.same.roll
  rcases ircJoinChannel_cases hirc with rfl | ⟨c, ch, -, -, -, hsome, -⟩ |
    ⟨c, -, -, -, haddr, -, hrooms, hchannels⟩
  · rw [hfind]
    exact h.setIrc hinvited hentries htidy (NoNewRooms.of_same rfl) (fun _ => id)
  · exact absurd (hsome.symm.trans hfind) (Option.some_ne_none ch.id)
  · have hfound : (ircFindChannel key irc chan).isSome = true := by
      unfold ircFindChannel findKey putKey at *
      rw [hchannels, List.find?_cons_of_pos (by simp)]
      rfl
    rw [if_pos hfound]
    have hfresh := findKey_none.mp haddr
    have hcases : ∀ ch ∈ irc.rooms, ch.id = addr ∨ ch.id ≠ addr ∧ ch ∈ s.irc.rooms := by
      intro ch hch
      rw [hrooms] at hch
      rcases List.mem_cons.mp hch with rfl | hch
      · exact Or.inl rfl
      · exact Or.inr ⟨hfresh ch hch, hch⟩
    refine ⟨⟨hentries, htidy, fun ch hch a => ?_⟩, fun ch hch a ha => ?_, hinvited.entered⟩
    · show (Function.update s.settings addr _ ch.id).invite.count a ≤
        (Function.update s.owed addr [] ch.id).count a
      rcases hcases ch hch with hnew | ⟨hne, hch⟩
      · refine Nat.le_of_eq ?_
        rw [hnew, Function.update_self, Function.update_self]
      · rw [Function.update_of_ne hne, Function.update_of_ne hne]
        exact h.owed ch hch a
    · have ha : a ∈ (Function.update s.settings addr ⟨0, [], 0, none, []⟩ ch.id).invite := ha
      rcases hcases ch hch with hnew | ⟨hne, hch⟩
      · rw [hnew, Function.update_self] at ha
        exact absurd ha List.not_mem_nil
      · rw [Function.update_of_ne hne] at ha
        exact hlive a (hinvited.exist ch hch a ha)

theorem join_admitted (h : Backed key s) (hinvited : Invited s) {client addr id : Nat}
    {chan : List UInt8} {settings : Settings} (hfind : ircFindChannel key s.irc chan = some id)
    (hadmits : settings = s.settings id ∧ settings.flag &&& modeInvite = 0 ∨
      Takes client (s.settings id) settings)
    (hjoin : ircJoinChannel limit key (s.setSettings id settings) client chan addr = some s') :
    Backed key s' ∧ Invited s' := by
  obtain ⟨irc, hirc, rfl⟩ := Option.map_eq_some_iff.mp hjoin
  have hirc : Irc.ircJoinChannel limit key s.irc client chan addr = some irc := hirc
  have hfind' : ircFindChannel key (s.setSettings id settings).irc chan = some id := hfind
  rw [hfind']
  dsimp only
  have hwithin := (within_composes limit).join hirc
  have hrooms := join_noNewRooms hfind hirc
  have hless (a : Nat) : settings.invite.count a ≤ (s.settings id).invite.count a := by
    rcases hadmits with ⟨rfl, -⟩ | ⟨-, -, hcount⟩
    · exact Nat.le_refl _
    · have hone := hcount a
      omega
  obtain ⟨hbacked, hinvited'⟩ := h.setSettings hinvited hless
  have hself : (s.setSettings id settings).settings id = settings := Function.update_self _ _ _
  rw [hself]
  obtain ⟨hbacked', hinvited''⟩ := hbacked.setIrc hinvited' (h.entries.of_within hwithin)
    (ircJoinChannel_tidy h.tidy h.entries hirc) hrooms
    (fun _ => clientAt_of_roll hwithin.same.roll)
  split
  · next hentered =>
    rcases hadmits with ⟨-, hopen⟩ | ⟨-, -, hcount⟩
    · exact absurd hopen hentered.1
    have howed (ch : IrcChannel) (hch : ch ∈ irc.rooms) (hid : ch.id = id) (a : Nat) :
        settings.invite.count a + (if a = client then 1 else 0) ≤ (s.owed id).count a := by
      obtain ⟨ch₀, hch₀, hsame⟩ := hrooms ch hch
      have hbefore := h.owed ch₀ hch₀ a
      rw [hsame, hid, ← hcount a] at hbefore
      exact hbefore
    -- the invitation that has been taken was owed
    have hin : client ∈ s.owed id := by
      obtain ⟨ch, hch, -⟩ := (Option.any_eq_true _ _).mp hentered.2.1
      obtain ⟨hchmem, hid⟩ := channelAt_mem hch
      have hone := howed ch hchmem hid client
      rw [if_pos rfl] at hone
      exact List.count_pos_iff.mp (by omega)
    refine ⟨⟨hbacked'.entries, hbacked'.tidy, fun ch hch a => ?_⟩, hinvited''.exist, ?_⟩
    · show _ ≤ (Function.update s.owed id ((s.owed id).erase client) ch.id).count a
      by_cases hid : ch.id = id
      · have hone := howed ch hch hid a
        rw [hid, Function.update_self, List.count_erase]
        show (Function.update s.settings id settings id).invite.count a ≤ _
        rw [Function.update_self]
        by_cases ha : a = client
        · rw [if_pos ha] at hone
          rw [ha] at hone ⊢
          simp only [BEq.rfl, if_true]
          omega
        · rw [if_neg ha] at hone
          have hne : (client == a) = false := beq_false_of_ne (fun hsame => ha hsame.symm)
          rw [hne, if_neg Bool.false_ne_true]
          omega
      · rw [Function.update_of_ne hid]
        exact hbacked'.owed ch hch a
    · show (s.trespassed || decide (client ∉ s.owed id)) = false
      rw [hinvited.entered, Bool.false_or, decide_eq_false_iff_not, not_not]
      exact hin
  · exact ⟨hbacked', hinvited''⟩

/-- What `ircJoinCallback` does after the client has joined a channel. -/
def joinOthers (limit : Int) (key : List UInt8 → κ) (client : Nat) (data : ClientData)
    (target : JoinRequest) (targets : List JoinRequest) (s : ChannelState κ) :
    Option (ChannelState κ) :=
  match ircFindChannel key s.irc target.channel with
  | none => ircJoinCallback limit key client data targets s
  | some id =>
    (s.irc.channelAt id).bind fun channel =>
    if s.irc.tells channel.client ∧ (client ∈ channel.client → s.irc.lists channel.client)
    then ircJoinCallback limit key client data targets s
    else none

theorem ircJoinCallback_keeps (h : Backed key s) (hinvited : Invited s) {client : Nat}
    {data : ClientData} {targets : List JoinRequest}
    (hjoin : ircJoinCallback limit key client data targets s = some s') :
    Backed key s' ∧ Invited s' := by
  induction targets generalizing s with
  | nil =>
    obtain rfl := Option.some.inj hjoin
    exact ⟨h, hinvited⟩
  | cons target targets ih =>
    rw [ircJoinCallback] at hjoin
    split at hjoin
    · obtain rfl := Option.some.inj hjoin
      exact ⟨h, hinvited⟩
    obtain ⟨admission, hadmits, hjoin⟩ := Option.bind_eq_some_iff.mp hjoin
    have hnext {s₁ : ChannelState κ} (hs₁ : Backed key s₁ ∧ Invited s₁)
        (hrest : joinOthers limit key client data target targets s₁ = some s') :
        Backed key s' ∧ Invited s' := by
      unfold joinOthers at hrest
      split at hrest
      · exact ih hs₁.1 hs₁.2 hrest
      · obtain ⟨channel, -, hrest⟩ := Option.bind_eq_some_iff.mp hrest
        split_ifs at hrest
        exact ih hs₁.1 hs₁.2 hrest
    unfold joinAdmits at hadmits
    cases hfind : ircFindChannel key s.irc target.channel with
    | none =>
      rw [hfind] at hadmits
      obtain rfl := Option.some.inj hadmits
      rw [if_neg Bool.noConfusion] at hjoin
      obtain ⟨s₁, hs₁, hjoin⟩ := Option.bind_eq_some_iff.mp hjoin
      exact hnext (join_new h hinvited hfind hs₁) hjoin
    | some id =>
      rw [hfind] at hadmits
      obtain ⟨channel, -, hadmits⟩ := Option.bind_eq_some_iff.mp hadmits
      obtain ⟨c, -, hadmits⟩ := Option.bind_eq_some_iff.mp hadmits
      obtain ⟨⟨admits, settings⟩, hresult, rfl⟩ := Option.map_eq_some_iff.mp hadmits
      have hcases := ircAdmits_cases hresult
      dsimp only at hjoin
      cases admits with
      | false =>
        rw [if_pos rfl] at hjoin
        obtain rfl := Option.some.inj hjoin
        refine h.setSettings hinvited (fun a => ?_)
        rcases hcases with ⟨rfl, -⟩ | ⟨-, -, hcount⟩
        · exact Nat.le_refl _
        · have hone := hcount a
          omega
      | true =>
        rw [if_neg Bool.noConfusion] at hjoin
        obtain ⟨s₁, hs₁, hjoin⟩ := Option.bind_eq_some_iff.mp hjoin
        refine hnext (join_admitted h hinvited hfind ?_ hs₁) hjoin
        rcases hcases with ⟨rfl, hopen⟩ | htakes
        · exact Or.inl ⟨rfl, hopen rfl⟩
        · exact Or.inr htakes

/-! ## Steps -/

theorem mode_keeps (h : Backed key s) (hinvited : Invited s) {cflag : UInt32}
    (hmodes : Modes id cflag s s') : Backed key s' ∧ Invited s' := by
  obtain ⟨changes, hchanges⟩ := hmodes.irc
  have hcomposes : Composes 0 key (Within key) := within_composes 0
  have hwithin := hcomposes.clientFlags hchanges
  obtain ⟨hentries, htidy⟩ := (tidy_composes 0).clientFlags hchanges h.entries h.tidy
  have hparting : Parting key NoNewRooms := noNewRooms_parting
  have hrooms := hparting.clientFlags hchanges
  refine ⟨⟨hentries, htidy, fun ch hch a => ?_⟩, fun ch hch a ha => ?_, ?_⟩
  · obtain ⟨ch₀, hch₀, hid⟩ := hrooms ch hch
    rw [hmodes.invite, hmodes.owed, ← hid]
    exact h.owed ch₀ hch₀ a
  · obtain ⟨ch₀, hch₀, hid⟩ := hrooms ch hch
    rw [hmodes.invite, ← hid] at ha
    exact clientAt_of_roll hwithin.same.roll (hinvited.exist ch₀ hch₀ a ha)
  · rw [hmodes.trespassed]
    exact hinvited.entered

theorem invite_keeps (h : Backed key s) (hinvited : Invited s) {id cl : Nat} {c : IrcClient}
    (hc : s.irc.clientAt cl = some c) :
    Backed key { s.setSettings id
        { s.settings id with invite := (s.settings id).invite ++ [cl] } with
      owed := Function.update s.owed id (s.owed id ++ [cl]) } ∧
    Invited { s.setSettings id
        { s.settings id with invite := (s.settings id).invite ++ [cl] } with
      owed := Function.update s.owed id (s.owed id ++ [cl]) } := by
  refine ⟨⟨h.entries, h.tidy, fun ch hch a => ?_⟩, fun ch hch a ha => ?_, hinvited.entered⟩
  · show (Function.update s.settings id _ ch.id).invite.count a ≤
      (Function.update s.owed id _ ch.id).count a
    by_cases hid : ch.id = id
    · rw [hid, Function.update_self, Function.update_self, List.count_append, List.count_append]
      exact Nat.add_le_add_right (hid ▸ h.owed ch hch a) _
    · rw [Function.update_of_ne hid, Function.update_of_ne hid]
      exact h.owed ch hch a
  · have ha : a ∈ (Function.update s.settings id
        { s.settings id with invite := (s.settings id).invite ++ [cl] } ch.id).invite := ha
    by_cases hid : ch.id = id
    · rw [hid, Function.update_self] at ha
      rcases List.mem_append.mp ha with ha | ha
      · exact hinvited.exist ch hch a (hid ▸ ha)
      · rw [List.mem_singleton.mp ha]
        show (s.irc.clientAt cl).isSome = true
        rw [hc]
        rfl
    · rw [Function.update_of_ne hid] at ha
      exact hinvited.exist ch hch a ha

theorem count_stillOwed {change : RollChange} (owed : List Nat) {a : Nat}
    (h : change ≠ .goes a) : (stillOwed change owed).count a = owed.count a := by
  unfold stillOwed
  split
  · next id =>
    have hne : a ≠ id := fun hsame => h (hsame ▸ rfl)
    rw [List.count_filter]
    exact decide_eq_true hne
  · rfl

theorem other_keeps (h : Backed key s) (hinvited : Invited s) {event : IrcEvent}
    (hstep : channelStep cfg key s (.other event) = some s')
    (hkeeps : KeepsInvites cfg s (.other event)) : Backed key s' ∧ Invited s' := by
  obtain ⟨irc, hirc, hjoin, rfl⟩ := channelStep_other hstep
  have hrooms := ircStep_noNewRooms hirc hjoin
  -- a client that goes is in no list of the channels that are left
  have hstays : ∀ ch ∈ irc.rooms, ∃ ch₀ ∈ s.irc.rooms, ch₀.id = ch.id ∧
      ∀ a ∈ (s.settings ch.id).invite, rollChange cfg s.irc event ≠ .goes a := by
    intro ch hch
    obtain ⟨ch₀, hch₀, hid⟩ := hrooms ch hch
    refine ⟨ch₀, hch₀, hid, fun a ha hgoes => ?_⟩
    rw [← hid] at ha
    exact (goes_rooms h.tidy h.entries hirc hgoes hch₀).mp ⟨ch, hch, hid.symm⟩
      (hkeeps a hgoes ch₀ hch₀ ha)
  refine ⟨⟨ircStep_entered h.entries hirc, ircStep_tidy h.tidy h.entries hirc,
    fun ch hch a => ?_⟩, fun ch hch a ha => ?_, hinvited.entered⟩
  · obtain ⟨ch₀, hch₀, hid, hnot⟩ := hstays ch hch
    show (s.settings ch.id).invite.count a ≤
      (stillOwed (rollChange cfg s.irc event) (s.owed ch.id)).count a
    by_cases ha : a ∈ (s.settings ch.id).invite
    · rw [count_stillOwed _ (hnot a ha), ← hid]
      exact h.owed ch₀ hch₀ a
    · rw [List.count_eq_zero.mpr ha]
      exact Nat.zero_le _
  · obtain ⟨ch₀, hch₀, hid, hnot⟩ := hstays ch hch
    have hin : a ∈ (s.settings ch₀.id).invite := hid ▸ ha
    exact clientAt_step hirc (hinvited.exist ch₀ hch₀ a hin) (hnot a ha)

theorem keepsInvites_step (h : Backed key s) (hinvited : Invited s) {event : ChannelEvent}
    (hstep : channelStep cfg key s event = some s') (hkeeps : KeepsInvites cfg s event) :
    Backed key s' ∧ Invited s' := by
  cases event with
  | join sock data targets =>
    obtain ⟨c, -, hjoin⟩ := Option.bind_eq_some_iff.mp hstep
    exact ircJoinCallback_keeps h hinvited hjoin
  | mode sock chan modes =>
    obtain ⟨c, -, hmode⟩ := Option.bind_eq_some_iff.mp hstep
    rcases ircModeCallback_cases hmode with rfl | ⟨id, channel, n, cflag, -, -, -, -, hmodes⟩
    · exact ⟨h, hinvited⟩
    · exact mode_keeps h hinvited hmodes
  | invite sock nick chan absent =>
    obtain ⟨c, -, hinvite⟩ := Option.bind_eq_some_iff.mp hstep
    rcases ircInviteCallback_cases hinvite with rfl | ⟨cl, id, c, -, -, hc, rfl⟩
    · exact ⟨h, hinvited⟩
    · exact invite_keeps h hinvited hc
  | ison sock nicks =>
    obtain ⟨c, -, hison⟩ := Option.bind_eq_some_iff.mp hstep
    obtain ⟨nicklist, -, rfl⟩ := Option.map_eq_some_iff.mp hison
    exact ⟨⟨h.entries, h.tidy, h.owed⟩, hinvited.exist, hinvited.entered⟩
  | other event => exact other_keeps h hinvited hstep hkeeps

theorem keepsInvites_of_invited (h : Backed key s) {event : ChannelEvent}
    (hstep : channelStep cfg key s event = some s') (hnext : Invited s') :
    KeepsInvites cfg s event := by
  cases event with
  | other event =>
    obtain ⟨irc, hirc, -, rfl⟩ := channelStep_other hstep
    intro id hgoes ch hch hin
    by_contra hnot
    obtain ⟨ch', hch', hid⟩ := (goes_rooms h.tidy h.entries hirc hgoes hch).mpr hnot
    rw [← hid] at hin
    exact clientAt_gone hirc hgoes (hnext.exist ch' hch' id hin)
  | _ => trivial

/-! ## Runs -/

theorem backed_start : Backed key (startChannels : ChannelState κ) :=
  ⟨entered_start, tidy_start, fun _ hch => absurd hch List.not_mem_nil⟩

theorem invited_start : Invited (startChannels : ChannelState κ) :=
  ⟨fun _ hch => absurd hch List.not_mem_nil, rfl⟩

theorem invites_iff (cfg : IrcConfig) (key : List UInt8 → κ) (events : List ChannelEvent) :
    (∀ pre, pre <+: events → ∀ s, channelRun cfg key pre = some s → Invited s) ↔
      ∀ pre event, pre ++ [event] <+: events → ∀ s s', channelRun cfg key pre = some s →
        channelStep cfg key s event = some s' → KeepsInvites cfg s event := by
  apply forall_reached_iff (channelStep cfg key) (Backed key)
  · exact backed_start
  · exact invited_start
  · exact fun s event s' hbacked _ hstep hnext => keepsInvites_of_invited hbacked hstep hnext
  · exact fun s event s' hbacked hinvited hstep hkeeps =>
      keepsInvites_step hbacked hinvited hstep hkeeps

/-- A client is invited and goes, and the next one at its address joins the channel. -/
theorem inviteReused_not_invited :
    ¬ ∀ (cfg : IrcConfig) (events : List ChannelEvent), ∀ pre, pre <+: events → ∀ s,
        channelRun cfg ircKey pre = some s → Invited s := by
  intro hall
  let cfg : IrcConfig := ⟨10, none⟩
  let data : ClientData := ⟨some [117], some [104], none, []⟩
  let events : List ChannelEvent :=
    enrolment 1 1 [97] ++
      [.join 1 data [⟨[38, 99], [], 10⟩], .mode 1 [38, 99] (some ([43, 105], []))] ++
      enrolment 2 2 [98] ++ [.invite 1 [98] [38, 99] false, .other (.disconnect 2)] ++
      enrolment 3 2 [100] ++ [.join 3 data [⟨[38, 99], [], 11⟩]]
  have hrun : (channelRun cfg ircKey events).map ChannelState.trespassed = some true := by
    decide +kernel
  obtain ⟨s, hs, htrespassed⟩ := Option.map_eq_some_iff.mp hrun
  have hinvited := (hall cfg events events (List.prefix_refl _) s hs).entered
  rw [htrespassed] at hinvited
  exact Bool.noConfusion hinvited

/-! ## Coherence -/

/-- In every run a client that is found is there and has the nick, a channel is found under its
names only, and a channel of a client is there and has the client. -/
theorem channelRun_tidy {events : List ChannelEvent} (hrun : channelRun cfg key events = some s) :
    Entered key s.irc ∧ Tidy s.irc := by
  refine reached_invariant (I := fun s => Entered key s.irc ∧ Tidy s.irc) ?_
    ⟨entered_start, tidy_start⟩ hrun
  intro s event s' h hstep
  obtain ⟨e, he⟩ := channelStep_irc hstep
  exact ⟨ircStep_entered h.1 he, ircStep_tidy h.2 h.1 he⟩

/-- A client registers and joins a channel. -/
theorem channelRun_tidy_join :
    ∃ s, channelRun ⟨10, none⟩ ircKey (enrolment 1 1 [97] ++
      [.join 1 ⟨some [117], some [104], none, []⟩ [⟨[38, 99], [], 10⟩]]) = some s ∧
        Entered ircKey s.irc ∧ Tidy s.irc :=
  (Option.isSome_iff_exists.mp (by decide +kernel)).imp fun _ hs => ⟨hs, channelRun_tidy hs⟩

end Serveez.Irc.Channels
