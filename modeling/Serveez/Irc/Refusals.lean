import Serveez.Irc.Channels

/-!
# Refusals of JOIN

A channel is refused for its key, for a missing invitation, because it is full, because of a ban, or
because the client is on as many channels as it may be. The invitation is taken from the list before
the last three are looked at, and the last one is found by `irc_join_channel`, which reports
nothing: the channel is told of a JOIN, and also of one by a client that is on it already.

* `ircAdmits_outcome`: what the checks come to.
* `round_clean_iff`: what a round of JOIN needs to leave no trace of a refusal.
* `ircJoinCallback_rounds`: the rounds are those of the callback.
* `joinClean_iff`: the same for all rounds of a JOIN.
-/

set_option linter.unusedSectionVars false

namespace Serveez.Irc.Channels

open Lib

variable {κ : Type} [DecidableEq κ]

/-- A round of JOIN that has come to its end, with the clients that are told of a JOIN. -/
structure Round (κ : Type) where
  target : JoinRequest
  before : ChannelState κ
  after : ChannelState κ
  told : List Nat

/-- A round of `irc_join_callback`, and whether the next channel is looked at. -/
def joinTarget (limit : Int) (key : List UInt8 → κ) (client : Nat) (data : ClientData)
    (s : ChannelState κ) (target : JoinRequest) : Option (Round κ × Bool) :=
  if target.channel = [] then some (⟨target, s, s, []⟩, false)
  else
    (joinAdmits key s client data target).bind fun admission =>
    if admission.1 = false then some (⟨target, s, admission.2, []⟩, false)
    else
      (ircJoinChannel limit key admission.2 client target.channel target.addr).bind fun s' =>
      match ircFindChannel key s'.irc target.channel with
      | none => some (⟨target, s, s', []⟩, true)
      | some id =>
        (s'.irc.channelAt id).bind fun channel =>
        if s'.irc.tells channel.client ∧ (client ∈ channel.client → s'.irc.lists channel.client)
        then some (⟨target, s, s', channel.client⟩, true) else none

/-- The rounds of a JOIN that come to their end. -/
def joinRounds (limit : Int) (key : List UInt8 → κ) (client : Nat) (data : ClientData) :
    List JoinRequest → ChannelState κ → List (Round κ)
  | [], _ => []
  | target :: targets, s =>
    match joinTarget limit key client data s target with
    | none => []
    | some (round, true) => round :: joinRounds limit key client data targets round.after
    | some (round, false) => [round]

/-! ## What a refusal should be -/

variable {limit : Int} {key : List UInt8 → κ} {client : Nat} {data : ClientData}
  {s s' : ChannelState κ} {target : JoinRequest}

/-- The channel of a target, if there is one. -/
def Finds (key : List UInt8 → κ) (s : ChannelState κ) (target : JoinRequest) (id : Nat)
    (ch : IrcChannel) : Prop :=
  ircFindChannel key s.irc target.channel = some id ∧ s.irc.channelAt id = some ch

def WrongKey (settings : Settings) (given : List UInt8) : Prop :=
  settings.flag &&& modeKey ≠ 0 ∧ settings.key ≠ some given

def NotInvited (settings : Settings) (client : Nat) : Prop :=
  settings.flag &&& modeInvite ≠ 0 ∧ client ∉ settings.invite

def Full (settings : Settings) (clients : Nat) : Prop :=
  settings.flag &&& modeUlimit ≠ 0 ∧ settings.users ≤ clients

def Banned (settings : Settings) (nick : Option (List UInt8)) (data : ClientData) : Prop :=
  ∃ ban ∈ settings.ban, ircClientBanned nick data ban = some true

/-- The reasons to keep a client out of a channel. -/
inductive Refused (limit : Int) (key : List UInt8 → κ) (client : Nat) (data : ClientData)
    (s : ChannelState κ) (target : JoinRequest) : Prop
  | key {id : Nat} {ch : IrcChannel} (hfinds : Finds key s target id ch)
      (hkey : WrongKey (s.settings id) target.given)
  | invite {id : Nat} {ch : IrcChannel} (hfinds : Finds key s target id ch)
      (hinvite : NotInvited (s.settings id) client)
  | full {id : Nat} {ch : IrcChannel} (hfinds : Finds key s target id ch)
      (hfull : Full (s.settings id) ch.client.length)
  | banned {id : Nat} {ch : IrcChannel} {c : IrcClient} (hfinds : Finds key s target id ch)
      (hclient : s.irc.clientAt client = some c) (hban : Banned (s.settings id) c.nick data)
  | channels {c : IrcClient} (hclient : s.irc.clientAt client = some c)
      (hmany : limit ≤ c.channel.length)
      (hout : ∀ id ch, Finds key s target id ch → client ∉ ch.client)

/-- A refusal changes no client, channel or invitation and nobody is told of a JOIN, and neither is
anybody of a client that is on the channel already. -/
structure Round.Clean (limit : Int) (key : List UInt8 → κ) (client : Nat) (data : ClientData)
    (r : Round κ) : Prop where
  refused : Refused limit key client data r.before r.target →
    r.after.irc = r.before.irc ∧ r.after.settings = r.before.settings ∧ r.told = []
  member : ∀ id ch, Finds key r.before r.target id ch → client ∈ ch.client → r.told = []

/-- Where the key is right and the client invited: a channel that is full or that bans the client is
not invite-only, and another does not have the client, which may be on one more channel, or else the
channel has nobody and is not invite-only. -/
def Round.Meets (limit : Int) (key : List UInt8 → κ) (client : Nat) (data : ClientData)
    (r : Round κ) : Prop :=
  ∀ id ch c, r.target.channel ≠ [] → Finds key r.before r.target id ch →
    r.before.irc.clientAt client = some c →
    ¬ WrongKey (r.before.settings id) r.target.given →
    ¬ NotInvited (r.before.settings id) client →
    (Full (r.before.settings id) ch.client.length ∨ Banned (r.before.settings id) c.nick data →
      (r.before.settings id).flag &&& modeInvite = 0) ∧
    (¬ (Full (r.before.settings id) ch.client.length ∨ Banned (r.before.settings id) c.nick data) →
      client ∉ ch.client ∧ (c.channel.length < limit ∨
        ch.client = [] ∧ (r.before.settings id).flag &&& modeInvite = 0))

/-! ## The checks -/

theorem bannedFrom_eq_some {nick : Option (List UInt8)} {bans : List IrcBan} {banned : Bool}
    (h : bannedFrom nick data bans = some banned) :
    banned = true ↔ ∃ ban ∈ bans, ircClientBanned nick data ban = some true := by
  induction bans with
  | nil =>
    obtain rfl := Option.some.inj h
    exact iff_of_false Bool.false_ne_true (fun ⟨_, hmem, _⟩ => List.not_mem_nil hmem)
  | cons ban bans ih =>
    obtain ⟨first, hfirst, h⟩ := Option.bind_eq_some_iff.mp h
    cases first with
    | true =>
      obtain rfl := Option.some.inj h
      exact iff_of_true rfl ⟨ban, List.mem_cons_self, hfirst⟩
    | false =>
      rw [ih h, List.exists_mem_cons_iff, hfirst]
      exact (or_iff_right (fun hsome => Bool.false_ne_true (Option.some.inj hsome))).symm

theorem takeInvite_outcome (settings : Settings) (client : Nat) :
    takeInvite settings client = none ∧ NotInvited settings client ∨
      ∃ settings', takeInvite settings client = some settings' ∧ ¬ NotInvited settings client ∧
        settings' = { settings with invite := settings'.invite } ∧
        (settings' = settings ↔ settings.flag &&& modeInvite = 0) := by
  unfold takeInvite NotInvited
  split_ifs with hflag
  · exact Or.inr ⟨settings, rfl, fun h => h.1 hflag, rfl, iff_of_true rfl hflag⟩
  · cases hplace : settings.invite.idxOf? client with
    | none =>
      exact Or.inl ⟨rfl, hflag, List.idxOf?_eq_none_iff.mp hplace⟩
    | some i =>
      obtain ⟨hi, hget, -⟩ := List.idxOf?_eq_some_iff.mp hplace
      refine Or.inr ⟨_, rfl, fun h => h.2 (hget ▸ List.getElem_mem hi), rfl,
        iff_of_false (fun hsame => ?_) hflag⟩
      have hlength := congrArg (fun s => s.invite.length) hsame
      dsimp only at hlength
      rw [length_swapRemove] at hlength
      omega

/-- What the checks of a channel come to: the key is wrong or there is no invitation, or the
invitation is taken and the rest is looked at. -/
theorem ircAdmits_outcome {settings : Settings} {clients : Nat} {nick : Option (List UInt8)}
    {given : List UInt8} {admission : Bool × Settings}
    (h : ircAdmits settings clients client nick data given = some admission) :
    (WrongKey settings given ∨ NotInvited settings client) ∧ admission = (false, settings) ∨
      ¬ WrongKey settings given ∧ ¬ NotInvited settings client ∧
        (admission.1 = false ↔ Full settings clients ∨ Banned settings nick data) ∧
        admission.2.flag = settings.flag ∧
        (admission.2 = settings ↔ settings.flag &&& modeInvite = 0) := by
  obtain ⟨keyed, hkeyed, h⟩ := Option.bind_eq_some_iff.mp h
  have hkey : keyed = false ↔ WrongKey settings given := by
    unfold WrongKey
    split_ifs at hkeyed with hflag
    · obtain rfl := Option.some.inj hkeyed
      exact iff_of_false (Ne.symm Bool.false_ne_true) (fun h => h.1 hflag)
    · obtain ⟨k, hk, rfl⟩ := Option.map_eq_some_iff.mp hkeyed
      rw [hk, decide_eq_false_iff_not, and_iff_right hflag, ne_eq, Option.some_inj, eq_comm]
  split_ifs at h with hwrong
  · exact Or.inl ⟨Or.inl (hkey.mp hwrong), (Option.some.inj h).symm⟩
  rcases takeInvite_outcome settings client with ⟨hnone, hnot⟩ |
      ⟨settings', hsome, hinvited, hsame, hiff⟩
  · rw [hnone] at h
    exact Or.inl ⟨Or.inr hnot, (Option.some.inj h).symm⟩
  rw [hsome] at h
  dsimp only at h
  have hflag : settings'.flag = settings.flag := by rw [hsame]
  have husers : settings'.users = settings.users := by rw [hsame]
  have hban : settings'.ban = settings.ban := by rw [hsame]
  rw [hflag, husers, hban] at h
  refine Or.inr ⟨fun hwrongKey => hwrong (hkey.mpr hwrongKey), hinvited, ?_⟩
  split_ifs at h with hfull
  · obtain rfl := Option.some.inj h
    exact ⟨iff_of_true rfl (Or.inl hfull), hflag, hiff⟩
  · obtain ⟨banned, hbanned, rfl⟩ := Option.map_eq_some_iff.mp h
    refine ⟨?_, hflag, hiff⟩
    rw [Bool.not_eq_false', bannedFrom_eq_some hbanned]
    exact (or_iff_right hfull).symm

/-- What `irc_join_channel` leaves as it is. -/
theorem ircJoinChannel_outcome {chan : List UInt8} {addr : Nat} {c : IrcClient}
    (hclient : s.irc.clientAt client = some c)
    (hjoin : ircJoinChannel limit key s client chan addr = some s') :
    (∀ id ch, ircFindChannel key s.irc chan = some id → s.irc.channelAt id = some ch →
      s'.settings = s.settings ∧
        (client ∈ ch.client ∨ limit ≤ c.channel.length → s'.irc = s.irc)) ∧
      (ircFindChannel key s.irc chan = none → limit ≤ c.channel.length →
        s'.irc = s.irc ∧ s'.settings = s.settings) := by
  obtain ⟨irc, hirc, rfl⟩ := Option.map_eq_some_iff.mp hjoin
  obtain ⟨c', hc', hirc⟩ := Option.bind_eq_some_iff.mp hirc
  obtain rfl := Option.some.inj (hclient.symm.trans hc')
  refine ⟨fun id ch hfind hch => ?_, fun hnone hmany => ?_⟩
  · simp only [hfind, hch, Option.bind_some] at hirc ⊢
    refine ⟨by split_ifs <;> rfl, fun hkept => ?_⟩
    have hsame : irc = s.irc := by
      by_cases hmember : client ∈ ch.client
      · rw [if_pos hmember] at hirc
        exact (Option.some.inj hirc).symm
      · rw [if_neg hmember, if_pos (hkept.resolve_left hmember)] at hirc
        exact (Option.some.inj hirc).symm
    split_ifs
    · exact hsame
    · exact hsame
  · simp only [hnone, if_pos hmany] at hirc ⊢
    obtain rfl := Option.some.inj hirc
    rw [hnone]
    exact ⟨rfl, rfl⟩

/-! ## A round -/

variable {id : Nat} {ch : IrcChannel} {c : IrcClient} {told : List Nat}

theorem Finds.eq {id' : Nat} {ch' : IrcChannel} (h : Finds key s target id ch)
    (h' : Finds key s target id' ch') : id' = id ∧ ch' = ch := by
  obtain rfl := Option.some.inj (h.1.symm.trans h'.1)
  exact ⟨rfl, (Option.some.inj (h.2.symm.trans h'.2)).symm⟩

theorem refused_of_none (hclient : s.irc.clientAt client = some c)
    (hnone : ircFindChannel key s.irc target.channel = none)
    (h : Refused limit key client data s target) : limit ≤ c.channel.length := by
  cases h with
  | key hfinds _ => exact absurd (hnone.symm.trans hfinds.1) (Option.some_ne_none _).symm
  | invite hfinds _ => exact absurd (hnone.symm.trans hfinds.1) (Option.some_ne_none _).symm
  | full hfinds _ => exact absurd (hnone.symm.trans hfinds.1) (Option.some_ne_none _).symm
  | banned hfinds _ _ => exact absurd (hnone.symm.trans hfinds.1) (Option.some_ne_none _).symm
  | channels hclient' hmany _ =>
    rw [Option.some.inj (hclient.symm.trans hclient')]
    exact hmany

theorem refused_iff (hclient : s.irc.clientAt client = some c)
    (hfinds : Finds key s target id ch) :
    Refused limit key client data s target ↔
      WrongKey (s.settings id) target.given ∨ NotInvited (s.settings id) client ∨
        (Full (s.settings id) ch.client.length ∨ Banned (s.settings id) c.nick data) ∨
        limit ≤ c.channel.length ∧ client ∉ ch.client := by
  constructor
  · intro h
    cases h with
    | key hfinds' hkey =>
      obtain ⟨rfl, rfl⟩ := hfinds.eq hfinds'
      exact Or.inl hkey
    | invite hfinds' hinvite =>
      obtain ⟨rfl, rfl⟩ := hfinds.eq hfinds'
      exact Or.inr (Or.inl hinvite)
    | full hfinds' hfull =>
      obtain ⟨rfl, rfl⟩ := hfinds.eq hfinds'
      exact Or.inr (Or.inr (Or.inl (Or.inl hfull)))
    | banned hfinds' hclient' hban =>
      obtain ⟨rfl, rfl⟩ := hfinds.eq hfinds'
      obtain rfl := Option.some.inj (hclient.symm.trans hclient')
      exact Or.inr (Or.inr (Or.inl (Or.inr hban)))
    | channels hclient' hmany hout =>
      obtain rfl := Option.some.inj (hclient.symm.trans hclient')
      exact Or.inr (Or.inr (Or.inr ⟨hmany, hout id ch hfinds⟩))
  · rintro (hkey | hinvite | (hfull | hban) | ⟨hmany, hout⟩)
    · exact .key hfinds hkey
    · exact .invite hfinds hinvite
    · exact .full hfinds hfull
    · exact .banned hfinds hclient hban
    · refine .channels hclient hmany (fun id' ch' hfinds' => ?_)
      rw [(hfinds.eq hfinds').2]
      exact hout

theorem meets_iff (hname : target.channel ≠ []) (hclient : s.irc.clientAt client = some c)
    (hfinds : Finds key s target id ch) :
    (⟨target, s, s', told⟩ : Round κ).Meets limit key client data ↔
      (¬ WrongKey (s.settings id) target.given → ¬ NotInvited (s.settings id) client →
        (Full (s.settings id) ch.client.length ∨ Banned (s.settings id) c.nick data →
          (s.settings id).flag &&& modeInvite = 0) ∧
        (¬ (Full (s.settings id) ch.client.length ∨ Banned (s.settings id) c.nick data) →
          client ∉ ch.client ∧ (c.channel.length < limit ∨
            ch.client = [] ∧ (s.settings id).flag &&& modeInvite = 0))) := by
  constructor
  · exact fun h => h id ch c hname hfinds hclient
  · intro h id' ch' c' _ hfinds' hclient'
    obtain ⟨rfl, rfl⟩ := hfinds.eq hfinds'
    obtain rfl := Option.some.inj (hclient.symm.trans hclient')
    exact h

theorem setSettings_eq_iff {settings : Settings} :
    (s.setSettings id settings).settings = s.settings ↔ settings = s.settings id :=
  Function.update_eq_self_iff

/-- What a refusal must not change, where the channel is found. -/
theorem clean_iff (hfinds : Finds key s target id ch) :
    (⟨target, s, s', told⟩ : Round κ).Clean limit key client data ↔
      (Refused limit key client data s target →
        s'.irc = s.irc ∧ s'.settings = s.settings ∧ told = []) ∧
      (client ∈ ch.client → told = []) := by
  constructor
  · exact fun h => ⟨h.refused, h.member id ch hfinds⟩
  · rintro ⟨hrefused, hmember⟩
    refine ⟨hrefused, fun id' ch' hfinds' => ?_⟩
    rw [(hfinds.eq hfinds').2]
    exact hmember

theorem found_clean_iff {goesOn : Bool} {r : Round κ} (hname : target.channel ≠ [])
    (hclient : s.irc.clientAt client = some c) (hfinds : Finds key s target id ch)
    (h : joinTarget limit key client data s target = some (r, goesOn)) :
    r.Clean limit key client data ↔ r.Meets limit key client data := by
  rw [joinTarget, if_neg hname, joinAdmits, hfinds.1] at h
  simp only [hfinds.2, hclient, Option.bind_some, Option.bind_map] at h
  obtain ⟨⟨admits, settings⟩, hadmits, h⟩ := Option.bind_eq_some_iff.mp h
  dsimp only [Function.comp_apply] at h
  have hrefused : Refused limit key client data s target ↔ _ := refused_iff hclient hfinds
  rcases ircAdmits_outcome hadmits with ⟨hearly, hadmission⟩ | ⟨hkey, hinvited, hlate, -, hsame⟩
  · -- nothing has been taken
    obtain ⟨rfl, rfl⟩ := Prod.mk.inj hadmission
    rw [if_pos rfl] at h
    obtain ⟨rfl, -⟩ := Prod.mk.inj (Option.some.inj h)
    rw [clean_iff hfinds, meets_iff hname hclient hfinds]
    refine iff_of_true ⟨fun _ => ⟨rfl, setSettings_eq_iff.mpr rfl, rfl⟩, fun _ => rfl⟩ ?_
    exact fun hkey hinvited => absurd hearly (not_or.mpr ⟨hkey, hinvited⟩)
  dsimp only at hlate hsame
  cases admits with
  | false =>
    -- the invitation has been taken
    rw [if_pos rfl] at h
    obtain ⟨rfl, -⟩ := Prod.mk.inj (Option.some.inj h)
    rw [clean_iff hfinds, meets_iff hname hclient hfinds]
    have hkept := hlate.mp rfl
    constructor
    · intro hclean _ _
      refine ⟨fun _ => ?_, fun hnot => absurd hkept hnot⟩
      have hrefuses := hrefused.mpr (Or.inr (Or.inr (Or.inl hkept)))
      exact hsame.mp (setSettings_eq_iff.mp (hclean.1 hrefuses).2.1)
    · intro hmeets
      refine ⟨fun _ => ⟨rfl, ?_, rfl⟩, fun _ => rfl⟩
      exact setSettings_eq_iff.mpr (hsame.mpr ((hmeets hkey hinvited).1 hkept))
  | true =>
    have hopen : ¬ (Full (s.settings id) ch.client.length ∨ Banned (s.settings id) c.nick data) :=
      fun hkept => Bool.noConfusion (hlate.mpr hkept)
    rw [if_neg (Ne.symm Bool.false_ne_true)] at h
    obtain ⟨s', hjoin, h⟩ := Option.bind_eq_some_iff.mp h
    have hclient' : (s.setSettings id settings).irc.clientAt client = some c := hclient
    obtain ⟨hsettings, hirc⟩ := (ircJoinChannel_outcome hclient' hjoin).1 id ch hfinds.1 hfinds.2
    by_cases hkept : client ∈ ch.client ∨ limit ≤ c.channel.length
    · -- the channel is told of a JOIN
      rw [hirc hkept] at h
      rw [show (s.setSettings id settings).irc = s.irc from rfl, hfinds.1] at h
      dsimp only at h
      rw [hfinds.2, Option.bind_some] at h
      split_ifs at h
      obtain ⟨rfl, -⟩ := Prod.mk.inj (Option.some.inj h)
      rw [clean_iff hfinds, meets_iff hname hclient hfinds]
      by_cases hmember : client ∈ ch.client
      · refine iff_of_false (fun hclean => ?_) (fun hmeets => ?_)
        · rw [hclean.2 hmember] at hmember
          exact List.not_mem_nil hmember
        · exact ((hmeets hkey hinvited).2 hopen).1 hmember
      · have hmany := hkept.resolve_left hmember
        have hrefuses := hrefused.mpr (Or.inr (Or.inr (Or.inr ⟨hmany, hmember⟩)))
        have hsame' : s'.settings = s.settings ↔ (s.settings id).flag &&& modeInvite = 0 := by
          rw [hsettings, setSettings_eq_iff, hsame]
        constructor
        · intro hclean _ _
          obtain ⟨-, hset, hnobody⟩ := hclean.1 hrefuses
          exact ⟨fun hkept => absurd hkept hopen,
            fun _ => ⟨hmember, Or.inr ⟨hnobody, hsame'.mp hset⟩⟩⟩
        · intro hmeets
          obtain ⟨hnobody, hflag⟩ :=
            ((hmeets hkey hinvited).2 hopen).2.resolve_left (Int.not_lt.mpr hmany)
          exact ⟨fun _ => ⟨hirc hkept, hsame'.mpr hflag, hnobody⟩, fun _ => hnobody⟩
    · -- the client enters
      obtain ⟨hmember, hmany⟩ := not_or.mp hkept
      have hnot : ¬ Refused limit key client data s target := by
        rw [hrefused]
        rintro (hwrong | hnot | hlate | ⟨hfull, -⟩)
        · exact hkey hwrong
        · exact hinvited hnot
        · exact hopen hlate
        · exact hmany hfull
      have hround : ∃ after told, r = ⟨target, s, after, told⟩ := by
        split at h
        · obtain ⟨rfl, -⟩ := Prod.mk.inj (Option.some.inj h)
          exact ⟨_, _, rfl⟩
        · obtain ⟨channel, -, h⟩ := Option.bind_eq_some_iff.mp h
          split_ifs at h
          obtain ⟨rfl, -⟩ := Prod.mk.inj (Option.some.inj h)
          exact ⟨_, _, rfl⟩
      obtain ⟨after, told, rfl⟩ := hround
      rw [clean_iff hfinds, meets_iff hname hclient hfinds]
      refine iff_of_true ⟨fun h => absurd h hnot, fun h => absurd h hmember⟩ (fun _ _ => ?_)
      exact ⟨fun h => absurd h hopen, fun _ => ⟨hmember, Or.inl (Int.not_le.mp hmany)⟩⟩

theorem round_clean_iff {goesOn : Bool} {r : Round κ}
    (h : joinTarget limit key client data s target = some (r, goesOn)) :
    r.Clean limit key client data ↔ r.Meets limit key client data := by
  by_cases hname : target.channel = []
  · rw [joinTarget, if_pos hname] at h
    obtain ⟨rfl, -⟩ := Prod.mk.inj (Option.some.inj h)
    exact iff_of_true ⟨fun _ => ⟨rfl, rfl, rfl⟩, fun _ _ _ _ => rfl⟩
      (fun _ _ _ hnot => absurd hname hnot)
  cases hfind : ircFindChannel key s.irc target.channel with
  | some id =>
    have hsome := h
    rw [joinTarget, if_neg hname, joinAdmits, hfind] at hsome
    obtain ⟨admission, hadmits, -⟩ := Option.bind_eq_some_iff.mp hsome
    obtain ⟨ch, hch, hadmits⟩ := Option.bind_eq_some_iff.mp hadmits
    obtain ⟨c, hclient, -⟩ := Option.bind_eq_some_iff.mp hadmits
    exact found_clean_iff hname hclient ⟨hfind, hch⟩ h
  | none =>
    have hnone (id : Nat) (ch : IrcChannel) : ¬ Finds key s target id ch :=
      fun hfinds => Option.some_ne_none id (hfinds.1.symm.trans hfind)
    rw [joinTarget, if_neg hname, joinAdmits, hfind] at h
    dsimp only [Option.bind_some] at h
    rw [if_neg (Ne.symm Bool.false_ne_true)] at h
    obtain ⟨s', hjoin, h⟩ := Option.bind_eq_some_iff.mp h
    have hclient : ∃ c, s.irc.clientAt client = some c := by
      obtain ⟨irc, hirc, -⟩ := Option.map_eq_some_iff.mp hjoin
      obtain ⟨c, hc, -⟩ := Option.bind_eq_some_iff.mp hirc
      exact ⟨c, hc⟩
    obtain ⟨c, hclient⟩ := hclient
    have hround : ∃ told, r = ⟨target, s, s', told⟩ ∧ (s'.irc = s.irc → told = []) := by
      split at h
      · obtain ⟨rfl, -⟩ := Prod.mk.inj (Option.some.inj h)
        exact ⟨_, rfl, fun _ => rfl⟩
      · next id hfind' =>
        obtain ⟨channel, -, h⟩ := Option.bind_eq_some_iff.mp h
        split_ifs at h
        obtain ⟨rfl, -⟩ := Prod.mk.inj (Option.some.inj h)
        refine ⟨_, rfl, fun hirc => ?_⟩
        rw [hirc, hfind] at hfind'
        exact absurd hfind'.symm (Option.some_ne_none _)
    obtain ⟨told, rfl, hnobody⟩ := hround
    refine iff_of_true ⟨fun hrefused => ?_, fun id ch hfinds => absurd hfinds (hnone id ch)⟩
      (fun id ch _ _ hfinds => absurd hfinds (hnone id ch))
    have hmany := refused_of_none hclient hfind hrefused
    obtain ⟨hirc, hsettings⟩ := (ircJoinChannel_outcome hclient hjoin).2 hfind hmany
    exact ⟨hirc, hsettings, hnobody hirc⟩

/-! ## The rounds of a JOIN -/

theorem joinTarget_eq {goesOn : Bool} {r : Round κ}
    (h : joinTarget limit key client data s target = some (r, goesOn)) :
    r.target = target ∧ r.before = s := by
  unfold joinTarget at h
  split_ifs at h with hname
  · obtain ⟨rfl, -⟩ := Prod.mk.inj (Option.some.inj h)
    exact ⟨rfl, rfl⟩
  obtain ⟨admission, -, h⟩ := Option.bind_eq_some_iff.mp h
  split_ifs at h with hdenied
  · obtain ⟨rfl, -⟩ := Prod.mk.inj (Option.some.inj h)
    exact ⟨rfl, rfl⟩
  obtain ⟨s', -, h⟩ := Option.bind_eq_some_iff.mp h
  split at h
  · obtain ⟨rfl, -⟩ := Prod.mk.inj (Option.some.inj h)
    exact ⟨rfl, rfl⟩
  · obtain ⟨channel, -, h⟩ := Option.bind_eq_some_iff.mp h
    split_ifs at h
    obtain ⟨rfl, -⟩ := Prod.mk.inj (Option.some.inj h)
    exact ⟨rfl, rfl⟩

theorem mem_joinRounds {targets : List JoinRequest} {r : Round κ}
    (h : r ∈ joinRounds limit key client data targets s) :
    ∃ target s goesOn, joinTarget limit key client data s target = some (r, goesOn) := by
  induction targets generalizing s with
  | nil => exact absurd h List.not_mem_nil
  | cons target targets ih =>
    rw [joinRounds] at h
    split at h
    · exact absurd h List.not_mem_nil
    · next round htarget =>
      rcases List.mem_cons.mp h with rfl | hrest
      · exact ⟨target, s, true, htarget⟩
      · exact ih hrest
    · next round htarget =>
      obtain rfl := List.mem_singleton.mp h
      exact ⟨target, s, false, htarget⟩

/-- The callback does a round, and another one unless the first was the last. -/
theorem ircJoinCallback_cons (limit : Int) (key : List UInt8 → κ) (client : Nat)
    (data : ClientData) (target : JoinRequest) (targets : List JoinRequest) (s : ChannelState κ) :
    ircJoinCallback limit key client data (target :: targets) s =
      (joinTarget limit key client data s target).bind fun round =>
        if round.2 then ircJoinCallback limit key client data targets round.1.after
        else some round.1.after := by
  rw [ircJoinCallback, joinTarget]
  split_ifs with hname
  · rfl
  rw [Option.bind_assoc]
  refine Option.bind_congr (fun admission _ => ?_)
  split_ifs with hdenied
  · rfl
  rw [Option.bind_assoc]
  refine Option.bind_congr (fun s' _ => ?_)
  cases ircFindChannel key s'.irc target.channel with
  | none => rfl
  | some id =>
    dsimp only
    rw [Option.bind_assoc]
    refine Option.bind_congr (fun channel _ => ?_)
    split_ifs <;> rfl

theorem ircJoinCallback_rounds {targets : List JoinRequest}
    (h : ircJoinCallback limit key client data targets s = some s') :
    ((joinRounds limit key client data targets s).getLast?.map Round.after).getD s = s' := by
  induction targets generalizing s with
  | nil => exact Option.some.inj h
  | cons target targets ih =>
    rw [ircJoinCallback_cons] at h
    obtain ⟨⟨round, goesOn⟩, hround, h⟩ := Option.bind_eq_some_iff.mp h
    rw [joinRounds, hround]
    cases goesOn with
    | true =>
      dsimp only at h ⊢
      rw [if_pos rfl] at h
      rw [List.getLast?_cons, Option.map_some, Option.getD_some, ← ih h]
      cases (joinRounds limit key client data targets round.after).getLast? <;> rfl
    | false => exact Option.some.inj h

theorem joinClean_iff (limit : Int) (key : List UInt8 → κ) (client : Nat) (data : ClientData)
    (targets : List JoinRequest) (s : ChannelState κ) :
    (∀ r ∈ joinRounds limit key client data targets s, r.Clean limit key client data) ↔
      ∀ r ∈ joinRounds limit key client data targets s, r.Meets limit key client data := by
  refine forall₂_congr (fun r hr => ?_)
  obtain ⟨target, before, goesOn, htarget⟩ := mem_joinRounds hr
  exact round_clean_iff htarget

/-- A client that may be on one channel and is on one joins another, which is told. -/
theorem joinTooMany_not_clean :
    ¬ ∀ (limit : Int) (client : Nat) (data : ClientData) (targets : List JoinRequest)
        (s : ChannelState (UInt64 × List UInt8)),
      ∀ r ∈ joinRounds limit ircKey client data targets s, r.Clean limit ircKey client data := by
  intro hall
  let member (id : Nat) (nick : List UInt8) (channel : Nat) : IrcClient :=
    ⟨id, id, some nick, ⟨true, true, true, true, true⟩, true, [channel]⟩
  let irc : IrcState (UInt64 × List UInt8) :=
    { users := 2
      clients := [(ircKey [98], 2), (ircKey [97], 1)]
      channels := [(ircKey [35, 98], 11), (ircKey [35, 97], 10)]
      live := [member 2 [98] 11, member 1 [97] 10]
      rooms := [⟨11, [35, 98], [2], [modeOperator]⟩, ⟨10, [35, 97], [1], [modeOperator]⟩]
      data := fun sock => if sock = 1 ∨ sock = 2 then some (some sock) else none
      given := fun _ _ => modeOperator }
  let s : ChannelState (UInt64 × List UInt8) :=
    ⟨irc, fun _ => ⟨0, [], 0, none, []⟩, [], [], fun _ => [], false⟩
  let data : ClientData := ⟨some [117], some [104], none, []⟩
  let target : JoinRequest := ⟨[35, 97], [], 12⟩
  have htold : (joinTarget 1 ircKey 2 data s target).map (·.1.told) = some [1] := by
    decide +kernel
  obtain ⟨⟨r, goesOn⟩, hround, htold⟩ := Option.map_eq_some_iff.mp htold
  have hmem : r ∈ joinRounds 1 ircKey 2 data [target] s := by
    rw [joinRounds, hround]
    cases goesOn with
    | true => exact List.mem_cons_self
    | false => exact List.mem_singleton_self r
  have hclean := hall 1 2 data [target] s r hmem
  obtain ⟨htarget, hbefore⟩ := joinTarget_eq hround
  have hfinds : Finds ircKey s target 10 ⟨10, [35, 97], [1], [modeOperator]⟩ :=
    ⟨by decide +kernel, rfl⟩
  have hrefused : Refused 1 ircKey 2 data r.before r.target := by
    rw [htarget, hbefore]
    refine .channels (c := member 2 [98] 11) rfl (Int.le_refl 1) (fun id ch hfinds' => ?_)
    rw [(hfinds.eq hfinds').2]
    exact fun hin => absurd (List.mem_singleton.mp hin) (by decide)
  exact List.cons_ne_nil 1 [] (htold.symm.trans (hclean.refused hrefused).2.2)

end Serveez.Irc.Channels
