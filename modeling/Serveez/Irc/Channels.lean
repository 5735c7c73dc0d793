import Serveez.Irc.ConfigLines
import Serveez.Irc.Roll

/-!
# Modes, bans and invitations of channels

What JOIN asks of a client that enters a channel, and the commands that change it: MODE with all its
modes, and INVITE. ISON is here for its buffer, which like the one of `irc_ban_string` is static and
is appended to.

`owed` and `trespassed` are a history: the clients that have an invitation to a channel that no JOIN
has used, and whether a client has entered a channel that is invite-only without one.

* `ircBanString_eq`: the text of a ban is appended to the buffer.
* `channelStep_irc`: the steps are steps of the clients and channels.
-/

set_option linter.unusedSectionVars false

namespace Serveez.Irc.Channels

open Lib

def modePrivate : UInt32 := 0x0002
def modeSecret : UInt32 := 0x0004
def modeInvite : UInt32 := 0x0008
def modeTopic : UInt32 := 0x0010
def modeMessage : UInt32 := 0x0020
def modeModerate : UInt32 := 0x0040
def modeUlimit : UInt32 := 0x0080
def modeBan : UInt32 := 0x0100
def modeVoice : UInt32 := 0x0200
def modeKey : UInt32 := 0x0400

/-- `MAX_MSG_LEN` -/
def maxMsgLen : Nat := 512

/-- `MAX_PARAMS` -/
def maxParams : Nat := 16

structure IrcBan where
  nick : Option (List UInt8)
  user : Option (List UInt8)
  host : Option (List UInt8)
  deriving DecidableEq

/-- What a channel has besides its clients; `users` is its limit. -/
structure Settings where
  flag : UInt32
  ban : List IrcBan
  users : Int
  key : Option (List UInt8)
  invite : List Nat

/-- `text` and `nicklist` are the buffers of `irc_ban_string` and `irc_ison_callback`. -/
structure ChannelState (κ : Type) where
  irc : IrcState κ
  settings : Nat → Settings
  text : List UInt8
  nicklist : List UInt8
  owed : Nat → List Nat
  trespassed : Bool

/-- A channel to join, the key that comes with it, and the block for it if it is new. -/
structure JoinRequest where
  channel : List UInt8
  given : List UInt8
  addr : Nat

/-- JOIN comes with the fields of the client. MODE may come without modes; behind them are further
parameters. INVITE comes with whether the one invited is away. -/
inductive ChannelEvent
  | join (sock : Nat) (data : ClientData) (targets : List JoinRequest)
  | mode (sock : Nat) (chan : List UInt8) (modes : Option (List UInt8 × List (List UInt8)))
  | invite (sock : Nat) (nick chan : List UInt8) (absent : Bool)
  | ison (sock : Nat) (nicks : List (List UInt8))
  | other (event : IrcEvent)

variable {κ : Type} [DecidableEq κ]

def ChannelState.setSettings (s : ChannelState κ) (id : Nat) (settings : Settings) :
    ChannelState κ :=
  { s with settings := Function.update s.settings id settings }

/-! ## Bans -/

/-- `strcat`, for a buffer of `MAX_MSG_LEN` bytes. -/
def strcat (buffer text : List UInt8) : Option (List UInt8) :=
  if buffer.length + text.length < maxMsgLen then some (buffer ++ text) else none

/-- `irc_ban_string` -/
def ircBanString (text : List UInt8) (ban : IrcBan) : Option (List UInt8) :=
  (match ban.nick with
    | some nick => (strcat text nick).bind (strcat · [33])
    | none => some text).bind fun text =>
  (match ban.user with
    | some user => (strcat text user).bind (strcat · [64])
    | none => some text).bind fun text =>
  ban.host.bind (strcat text)

/-- `irc_create_ban` -/
def ircCreateBan (request : List UInt8) : IrcBan :=
  let head := request.takeWhile (fun c => c ≠ 33 ∧ c ≠ 64)
  match request.dropWhile (fun c => c ≠ 33 ∧ c ≠ 64) with
  | [] => ⟨none, none, svzStrdup head⟩
  | c :: rest =>
    if c = 33 then
      match rest.dropWhile (· ≠ 64) with
      | [] => ⟨svzStrdup head, none, none⟩
      | _ :: host => ⟨svzStrdup head, svzStrdup (rest.takeWhile (· ≠ 64)), svzStrdup host⟩
    else ⟨none, svzStrdup head, svzStrdup rest⟩

/-- `irc_client_banned` -/
def ircClientBanned (nick : Option (List UInt8)) (data : ClientData) (ban : IrcBan) :
    Option Bool :=
  (matchesPtr nick ban.nick).bind fun matched =>
  if matched = false then some false
  else
    (matchesPtr data.user ban.user).bind fun matched =>
    if matched = false then some false else matchesPtr data.host ban.host

/-- Whether one of the bans is of the client. -/
def bannedFrom (nick : Option (List UInt8)) (data : ClientData) : List IrcBan → Option Bool
  | [] => some false
  | ban :: bans =>
    (ircClientBanned nick data ban).bind fun banned =>
    if banned then some true else bannedFrom nick data bans

/-- The ban that `-b` finds, with the buffer afterwards. -/
def findBan (arg : List UInt8) : Nat → List IrcBan → List UInt8 → Option (Option Nat × List UInt8)
  | _, [], text => some (none, text)
  | n, ban :: bans, text =>
    (ircBanString text ban).bind fun text =>
    if arg = text then some (some n, text) else findBan arg (n + 1) bans text

/-! ## JOIN -/

/-- The invitation is taken from the list; there is none without one. -/
def takeInvite (settings : Settings) (client : Nat) : Option Settings :=
  if settings.flag &&& modeInvite = 0 then some settings
  else
    (settings.invite.idxOf? client).map fun i =>
      { settings with invite := swapRemove settings.invite i }

/-- Whether a channel that exists lets a client in, with its settings afterwards. -/
def ircAdmits (settings : Settings) (clients client : Nat) (nick : Option (List UInt8))
    (data : ClientData) (given : List UInt8) : Option (Bool × Settings) :=
  (if settings.flag &&& modeKey = 0 then some true
    else settings.key.map (given = ·)).bind fun keyed =>
  if keyed = false then some (false, settings)
  else
    match takeInvite settings client with
    | none => some (false, settings)
    | some settings =>
      if settings.flag &&& modeUlimit ≠ 0 ∧ settings.users ≤ clients then some (false, settings)
      else (bannedFrom nick data settings.ban).map fun banned => (!banned, settings)

def isMember (s : IrcState κ) (channel client : Nat) : Bool :=
  (s.channelAt channel).any (client ∈ ·.client)

/-- `irc_join_channel`; a new channel has no settings. -/
def ircJoinChannel (limit : Int) (key : List UInt8 → κ) (s : ChannelState κ) (client : Nat)
    (chan : List UInt8) (addr : Nat) : Option (ChannelState κ) :=
  (Irc.ircJoinChannel limit key s.irc client chan addr).map fun irc =>
    match ircFindChannel key s.irc chan with
    | some id =>
      if (s.settings id).flag &&& modeInvite ≠ 0 ∧ isMember irc id client = true ∧
          isMember s.irc id client = false then
        { s with
          irc := irc
          owed := Function.update s.owed id ((s.owed id).erase client)
          trespassed := s.trespassed || decide (client ∉ s.owed id) }
      else { s with irc := irc }
    | none =>
      if (ircFindChannel key irc chan).isSome then
        { s.setSettings addr ⟨0, [], 0, none, []⟩ with
          irc := irc
          owed := Function.update s.owed addr [] }
      else { s with irc := irc }

/-- Whether a channel of JOIN lets the client in. -/
def joinAdmits (key : List UInt8 → κ) (s : ChannelState κ) (client : Nat) (data : ClientData)
    (target : JoinRequest) : Option (Bool × ChannelState κ) :=
  match ircFindChannel key s.irc target.channel with
  | none => some (true, s)
  | some id =>
    (s.irc.channelAt id).bind fun channel =>
    (s.irc.clientAt client).bind fun c =>
    (ircAdmits (s.settings id) channel.client.length client c.nick data target.given).map
      fun admission => (admission.1, s.setSettings id admission.2)

/-- `irc_join_callback` -/
def ircJoinCallback (limit : Int) (key : List UInt8 → κ) (client : Nat) (data : ClientData) :
    List JoinRequest → ChannelState κ → Option (ChannelState κ)
  | [], s => some s
  | target :: targets, s =>
    if target.channel = [] then some s
    else
      (joinAdmits key s client data target).bind fun admission =>
      if admission.1 = false then some admission.2
      else
        (ircJoinChannel limit key admission.2 client target.channel target.addr).bind fun s =>
        match ircFindChannel key s.irc target.channel with
        | none => ircJoinCallback limit key client data targets s
        | some id =>
          (s.irc.channelAt id).bind fun channel =>
          if s.irc.tells channel.client ∧ (client ∈ channel.client → s.irc.lists channel.client)
          then ircJoinCallback limit key client data targets s
          else none

/-! ## MODE -/

/-- `atoi` -/
def atoi (text : List UInt8) : Int :=
  let value (digits : List UInt8) : Int :=
    (digits.takeWhile isDigit).foldl (fun n c => 10 * n + (c.toNat - 48)) 0
  match text.dropWhile (fun c => c = 32 ∨ 9 ≤ c ∧ c ≤ 13) with
  | [] => 0
  | c :: rest =>
    if c = 45 then - value rest
    else if c = 43 then value rest
    else value (c :: rest)

/-- `irc_channel_flag` -/
def ircChannelFlag (s : ChannelState κ) (channel : Nat) (cflag flag : UInt32) (set : Bool) :
    Option (ChannelState κ) :=
  (s.irc.channelAt channel).bind fun ch =>
  if cflag &&& modeOperator = 0 then some s
  else if s.irc.tells ch.client then
    let settings := s.settings channel
    some (s.setSettings channel
      { settings with
        flag := if set then settings.flag ||| flag else settings.flag &&& ~~~flag })
  else none

/-- What `irc_channel_arg` changes, and whether the clients are told. -/
def channelArg (s : ChannelState κ) (channel : Nat) (flag : UInt32) (arg : List UInt8)
    (set : Bool) : Option (Bool × ChannelState κ) :=
  let settings := s.settings channel
  if set then
    if flag = modeKey then
      if settings.flag &&& flag ≠ 0 then some (false, s)
      else
        some (true, s.setSettings channel
          { settings with key := svzStrdup arg, flag := settings.flag ||| flag })
    else if flag = modeUlimit then
      some (true, s.setSettings channel
        { settings with users := atoi arg, flag := settings.flag ||| flag })
    else
      some (true, s.setSettings channel { settings with ban := settings.ban ++ [ircCreateBan arg] })
  else if flag &&& modeBan ≠ 0 then
    (findBan arg 0 settings.ban s.text).map fun found =>
      match found.1 with
      | none => (true, { s with text := found.2 })
      | some n =>
        (true, { s.setSettings channel { settings with ban := swapRemove settings.ban n } with
          text := found.2 })
  else some (true, s.setSettings channel { settings with flag := settings.flag &&& ~~~flag })

/-- `irc_channel_arg` -/
def ircChannelArg (s : ChannelState κ) (channel : Nat) (cflag flag : UInt32) (arg : List UInt8)
    (set : Bool) : Option (ChannelState κ) :=
  if set = true ∧ arg = [] then some s
  else
    (s.irc.channelAt channel).bind fun ch =>
    if cflag &&& modeOperator = 0 then some s
    else
      (channelArg s channel flag arg set).bind fun changed =>
      if changed.1 = true ∧ s.irc.tells ch.client = false then none else some changed.2

/-- A parameter behind the modes. -/
def paraAt (args : List (List UInt8)) (n : Nat) : Option (List UInt8) :=
  if n + 2 < maxParams then some (args.getD n []) else none

/-- The modes that are flags of the channel. -/
def channelMode (c : UInt8) : Option UInt32 :=
  if c = 112 then some modePrivate
  else if c = 115 then some modeSecret
  else if c = 105 then some modeInvite
  else if c = 116 then some modeTopic
  else if c = 110 then some modeMessage
  else if c = 109 then some modeModerate
  else none

/-- The loop of `irc_mode_callback` over the modes of a channel; `n` counts the parameters. -/
def modeLoop (channel : Nat) (cflag : UInt32) (args : List (List UInt8)) :
    Bool → Nat → List UInt8 → ChannelState κ → Option (ChannelState κ)
  | _, _, [], s => some s
  | set, n, c :: req, s =>
    if c = 43 then modeLoop channel cflag args true n req s
    else if c = 45 then modeLoop channel cflag args false n req s
    else if c = 98 then
      if args.length ≤ n then
        ((s.settings channel).ban.foldlM ircBanString s.text).bind fun text =>
        modeLoop channel cflag args set n req { s with text := text }
      else
        (paraAt args n).bind fun arg =>
        (ircChannelArg s channel cflag modeBan arg set).bind fun s =>
        modeLoop channel cflag args set (n + 1) req s
    else if c = 111 ∨ c = 118 then
      (paraAt args n).bind fun nick =>
      (ircClientFlag s.irc channel cflag
        ⟨nick, if c = 111 then modeOperator else modeVoice, set⟩).bind fun irc =>
      modeLoop channel cflag args set (n + 1) req { s with irc := irc }
    else if c = 108 ∨ c = 107 then
      (if set then paraAt args n else some []).bind fun arg =>
      (ircChannelArg s channel cflag (if c = 108 then modeUlimit else modeKey)
        arg set).bind fun s =>
      modeLoop channel cflag args set (if set then n + 1 else n) req s
    else
      match channelMode c with
      | some flag =>
        (ircChannelFlag s channel cflag flag set).bind fun s =>
        modeLoop channel cflag args set n req s
      | none => modeLoop channel cflag args set n req s

/-- `irc_mode_callback`, for a channel. -/
def ircModeCallback (key : List UInt8 → κ) (s : ChannelState κ) (client : Nat) (chan : List UInt8)
    (modes : Option (List UInt8 × List (List UInt8))) : Option (ChannelState κ) :=
  match ircFindChannel key s.irc chan, modes with
  | some id, some (req, args) =>
    (s.irc.channelAt id).bind fun channel =>
    match channel.client.idxOf? client with
    | none => some s
    | some n => (channel.cflag[n]?).bind fun cflag => modeLoop id cflag args true 0 req s
  | _, _ => some s

/-! ## INVITE and ISON -/

/-- `irc_invite_callback` -/
def ircInviteCallback (key : List UInt8 → κ) (s : ChannelState κ) (client : Nat)
    (nick chan : List UInt8) (absent : Bool) : Option (ChannelState κ) :=
  match ircFindNick key s.irc nick, ircFindChannel key s.irc chan with
  | some cl, some id =>
    (s.irc.channelAt id).bind fun channel =>
    match channel.client.idxOf? client with
    | none => some s
    | some n =>
      if cl ∈ channel.client then some s
      else
        (channel.cflag[n]?).bind fun cflag =>
        if cflag &&& modeOperator = 0 then some s
        else
          (s.irc.clientAt cl).map fun _ =>
            if absent then s
            else
              { s.setSettings id
                  { s.settings id with invite := (s.settings id).invite ++ [cl] } with
                owed := Function.update s.owed id (s.owed id ++ [cl]) }
  | _, _ => some s

/-- The loop of `irc_ison_callback`. -/
def isonLoop (key : List UInt8 → κ) (s : IrcState κ) (nicklist : List UInt8) :
    List (List UInt8) → Option (List UInt8)
  | [] => some nicklist
  | nick :: nicks =>
    if (ircFindNick key s nick).isSome then
      ((strcat nicklist nick).bind (strcat · [32])).bind fun nicklist =>
      isonLoop key s nicklist nicks
    else isonLoop key s nicklist nicks

/-- `irc_ison_callback`; the reply is the buffer. -/
def ircIsonCallback (key : List UInt8 → κ) (s : ChannelState κ) (nicks : List (List UInt8)) :
    Option (ChannelState κ) :=
  (isonLoop key s.irc s.nicklist nicks).map fun nicklist => { s with nicklist := nicklist }

/-! ## Steps -/

/-- The invitations of a client that goes are void. -/
def stillOwed (change : RollChange) (owed : List Nat) : List Nat :=
  match change with
  | .goes id => owed.filter (· ≠ id)
  | _ => owed

def channelStep (cfg : IrcConfig) (key : List UInt8 → κ) (s : ChannelState κ) :
    ChannelEvent → Option (ChannelState κ)
  | .join sock data targets =>
    (s.irc.clientOf sock).bind fun client =>
    ircJoinCallback cfg.channelsPerUser key client.id data targets s
  | .mode sock chan modes =>
    (s.irc.clientOf sock).bind fun client => ircModeCallback key s client.id chan modes
  | .invite sock nick chan absent =>
    (s.irc.clientOf sock).bind fun client => ircInviteCallback key s client.id nick chan absent
  | .ison sock nicks => (s.irc.clientOf sock).bind fun _ => ircIsonCallback key s nicks
  | .other (.request _ (.join _)) => none
  | .other (.request _ (.mode _ _)) => none
  | .other event =>
    (ircStep cfg key s.irc event).map fun irc =>
      { s with irc := irc, owed := fun id => stillOwed (rollChange cfg s.irc event) (s.owed id) }

def startChannels : ChannelState κ :=
  ⟨startIrc, fun _ => ⟨0, [], 0, none, []⟩, [], [], fun _ => [], false⟩

/-- The state after the events, if they can happen. -/
def channelRun (cfg : IrcConfig) (key : List UInt8 → κ) (events : List ChannelEvent) :
    Option (ChannelState κ) :=
  events.foldl (fun s event => s.bind (fun s => channelStep cfg key s event)) (some startChannels)

/-- Events by which a client is registered under a nick. -/
def enrolment (sock addr : Nat) (nick : List UInt8) : List ChannelEvent :=
  [.other (.connect sock addr), .other (.request sock (.nick (some nick))),
    .other (.request sock (.user true)), .other (.identDone sock), .other (.rdnsDone sock),
    .other (.idle sock true)]

/-! ## Steps of the clients and channels -/

variable {key : List UInt8 → κ} {cfg : IrcConfig} {s s' s'' : ChannelState κ} {limit : Int}

/-- The text of a ban. -/
def banMask (ban : IrcBan) : Option (List UInt8) :=
  ban.host.map fun host =>
    ban.nick.elim [] (· ++ [33]) ++ ban.user.elim [] (· ++ [64]) ++ host

theorem strcat_eq_some {buffer text result : List UInt8} :
    strcat buffer text = some result ↔
      buffer.length + text.length < maxMsgLen ∧ buffer ++ text = result := by
  unfold strcat
  split_ifs with hlt
  · simp [hlt]
  · simp [hlt]

theorem strcat_strcat (buffer first second : List UInt8) :
    (strcat buffer first).bind (strcat · second) = strcat buffer (first ++ second) := by
  unfold strcat
  rw [List.length_append]
  by_cases hfirst : buffer.length + first.length < maxMsgLen
  · rw [if_pos hfirst, Option.bind_some, List.length_append, Nat.add_assoc, List.append_assoc]
  · rw [if_neg hfirst, if_neg (by omega)]
    rfl

theorem strcat_nil {buffer : List UInt8} (h : buffer.length < maxMsgLen) :
    strcat buffer [] = some buffer := by
  unfold strcat
  rw [List.append_nil]
  exact if_pos h

theorem ircBanString_eq {text : List UInt8} (h : text.length < maxMsgLen) (ban : IrcBan) :
    ircBanString text ban = (banMask ban).bind (strcat text) := by
  have hpart (buffer : List UInt8) (hbuffer : buffer.length < maxMsgLen)
      (name : Option (List UInt8)) (c : UInt8) :
      (match name with
        | some name => (strcat buffer name).bind (strcat · [c])
        | none => some buffer) = strcat buffer (name.elim [] (· ++ [c])) := by
    cases name with
    | none => exact (strcat_nil hbuffer).symm
    | some name => exact strcat_strcat buffer name [c]
  unfold ircBanString banMask
  rw [hpart text h]
  have hrest : ∀ first, strcat text (ban.nick.elim [] (· ++ [33])) = some first →
      ((match ban.user with
        | some user => (strcat first user).bind (strcat · [64])
        | none => some first).bind fun text => ban.host.bind (strcat text)) =
      ban.host.bind fun host => strcat first (ban.user.elim [] (· ++ [64]) ++ host) := by
    intro first hfirst
    obtain ⟨hlt, rfl⟩ := strcat_eq_some.mp hfirst
    rw [hpart _ (by rw [List.length_append]; exact hlt)]
    cases ban.host with
    | none => exact Option.bind_eq_none_iff.mpr (fun _ _ => rfl)
    | some host => exact strcat_strcat _ _ host
  cases hhost : ban.host with
  | none =>
    refine Option.bind_eq_none_iff.mpr (fun first hfirst => ?_)
    have hnone := hrest first hfirst
    rw [hhost] at hnone
    exact hnone
  | some host =>
    rw [Option.map_some, Option.bind_some, List.append_assoc, ← strcat_strcat]
    refine Option.bind_congr (fun first hfirst => ?_)
    have hsome := hrest first hfirst
    rw [hhost] at hsome
    exact hsome

theorem ircJoinChannel_irc {client addr : Nat} {chan : List UInt8}
    (hjoin : ircJoinChannel limit key s client chan addr = some s') :
    Irc.ircJoinChannel limit key s.irc client chan addr = some s'.irc := by
  obtain ⟨irc, hirc, rfl⟩ := Option.map_eq_some_iff.mp hjoin
  rw [hirc]
  split <;> split <;> rfl

theorem joinAdmits_irc {client : Nat} {data : ClientData} {target : JoinRequest}
    {admission : Bool × ChannelState κ}
    (hadmits : joinAdmits key s client data target = some admission) :
    admission.2.irc = s.irc ∧
      (admission.1 = false → (ircFindChannel key s.irc target.channel).isSome = true) := by
  unfold joinAdmits at hadmits
  split at hadmits
  · obtain rfl := Option.some.inj hadmits
    exact ⟨rfl, fun hdenied => absurd hdenied.symm Bool.false_ne_true⟩
  · next id hfind =>
    obtain ⟨channel, -, hadmits⟩ := Option.bind_eq_some_iff.mp hadmits
    obtain ⟨c, -, hadmits⟩ := Option.bind_eq_some_iff.mp hadmits
    obtain ⟨result, -, rfl⟩ := Option.map_eq_some_iff.mp hadmits
    exact ⟨rfl, fun _ => by rw [hfind]; rfl⟩

theorem ircJoinCallback_irc {client : Nat} {data : ClientData} {targets : List JoinRequest}
    (hjoin : ircJoinCallback limit key client data targets s = some s') :
    ∃ targets', Irc.ircJoinCallback limit key client targets' s.irc = some s'.irc := by
  induction targets generalizing s with
  | nil =>
    obtain rfl := Option.some.inj hjoin
    exact ⟨[], rfl⟩
  | cons target targets ih =>
    rw [ircJoinCallback] at hjoin
    split_ifs at hjoin with hname
    · obtain rfl := Option.some.inj hjoin
      exact ⟨[], rfl⟩
    obtain ⟨admission, hadmits, hjoin⟩ := Option.bind_eq_some_iff.mp hjoin
    obtain ⟨hirc, hdenied⟩ := joinAdmits_irc hadmits
    split_ifs at hjoin with hdenial
    · obtain rfl := Option.some.inj hjoin
      rw [hirc]
      exact ⟨[], rfl⟩
    obtain ⟨s₁, hs₁, hjoin⟩ := Option.bind_eq_some_iff.mp hjoin
    have hchannel := ircJoinChannel_irc hs₁
    rw [hirc] at hchannel
    -- the channel that lets the client in stands before the others
    have hcons (targets' : List JoinTarget)
        (hrest : (match ircFindChannel key s₁.irc target.channel with
        | none => Irc.ircJoinCallback limit key client targets' s₁.irc
        | some id => (s₁.irc.channelAt id).bind fun channel =>
          if s₁.irc.tells channel.client ∧ (client ∈ channel.client → s₁.irc.lists channel.client)
          then Irc.ircJoinCallback limit key client targets' s₁.irc else none) = some s'.irc) :
        Irc.ircJoinCallback limit key client (⟨target.channel, true, target.addr⟩ :: targets')
          s.irc = some s'.irc := by
      rw [Irc.ircJoinCallback, if_neg hname, if_neg (fun h => Bool.false_ne_true h.2.symm),
        hchannel]
      exact hrest
    split at hjoin
    · next hfind =>
      obtain ⟨targets', htargets'⟩ := ih hjoin
      refine ⟨_, hcons targets' ?_⟩
      rw [hfind]
      exact htargets'
    · next id hfind =>
      obtain ⟨channel, hchannelAt, hjoin⟩ := Option.bind_eq_some_iff.mp hjoin
      split_ifs at hjoin with htold
      obtain ⟨targets', htargets'⟩ := ih hjoin
      refine ⟨_, hcons targets' ?_⟩
      rw [hfind]
      dsimp only
      rw [hchannelAt, Option.bind_some, if_pos htold]
      exact htargets'

/-! ## What MODE changes -/

/-- Text has been appended to a buffer that has room for it. -/
def Appended (buffer buffer' : List UInt8) : Prop :=
  buffer <+: buffer' ∧ (buffer.length < maxMsgLen → buffer'.length < maxMsgLen)

theorem Appended.refl (buffer : List UInt8) : Appended buffer buffer :=
  ⟨List.prefix_refl _, id⟩

theorem Appended.trans {buffer buffer' buffer'' : List UInt8} (h : Appended buffer buffer')
    (h' : Appended buffer' buffer'') : Appended buffer buffer'' :=
  ⟨h.1.trans h'.1, fun hlt => h'.2 (h.2 hlt)⟩

theorem strcat_appended {buffer text buffer' : List UInt8} (h : strcat buffer text = some buffer') :
    Appended buffer buffer' := by
  obtain ⟨hlt, rfl⟩ := strcat_eq_some.mp h
  exact ⟨List.prefix_append _ _, fun _ => by rw [List.length_append]; exact hlt⟩

theorem ircBanString_appended {text text' : List UInt8} {ban : IrcBan}
    (h : ircBanString text ban = some text') : Appended text text' := by
  have hpart {buffer buffer' : List UInt8} {name : Option (List UInt8)} {c : UInt8}
      (hpart : (match name with
        | some name => (strcat buffer name).bind (strcat · [c])
        | none => some buffer) = some buffer') : Appended buffer buffer' := by
    cases name with
    | none => exact Option.some.inj hpart ▸ Appended.refl buffer
    | some name =>
      obtain ⟨first, hfirst, hsecond⟩ := Option.bind_eq_some_iff.mp hpart
      exact (strcat_appended hfirst).trans (strcat_appended hsecond)
  obtain ⟨first, hfirst, h⟩ := Option.bind_eq_some_iff.mp h
  obtain ⟨second, hsecond, h⟩ := Option.bind_eq_some_iff.mp h
  obtain ⟨host, -, h⟩ := Option.bind_eq_some_iff.mp h
  exact (hpart hfirst).trans ((hpart hsecond).trans (strcat_appended h))

theorem findBan_appended {arg : List UInt8} {bans : List IrcBan} {n : Nat} {text : List UInt8}
    {found : Option Nat × List UInt8} (h : findBan arg n bans text = some found) :
    Appended text found.2 := by
  induction bans generalizing n text with
  | nil =>
    obtain rfl := Option.some.inj h
    exact Appended.refl text
  | cons ban bans ih =>
    obtain ⟨text₁, htext₁, h⟩ := Option.bind_eq_some_iff.mp h
    split at h
    · obtain rfl := Option.some.inj h
      exact ircBanString_appended htext₁
    · exact (ircBanString_appended htext₁).trans (ih h)

theorem banList_appended {bans : List IrcBan} {text text' : List UInt8}
    (h : bans.foldlM ircBanString text = some text') : Appended text text' := by
  induction bans generalizing text with
  | nil =>
    obtain rfl := Option.some.inj h
    exact Appended.refl text
  | cons ban bans ih =>
    rw [List.foldlM_cons] at h
    obtain ⟨text₁, htext₁, h⟩ := Option.bind_eq_some_iff.mp h
    exact (ircBanString_appended htext₁).trans (ih h)

/-- A step of MODE, for a client with the flag `cflag` in the channel. -/
structure Modes (channel : Nat) (cflag : UInt32) (s s' : ChannelState κ) : Prop where
  irc : ∃ changes : List ModeChange,
    changes.foldlM (fun s change => ircClientFlag s channel cflag change) s.irc = some s'.irc
  invite : ∀ id, (s'.settings id).invite = (s.settings id).invite
  owed : s'.owed = s.owed
  trespassed : s'.trespassed = s.trespassed
  nicklist : s'.nicklist = s.nicklist
  text : Appended s.text s'.text

namespace Modes

variable {channel : Nat} {cflag : UInt32}

theorem refl (channel : Nat) (cflag : UInt32) (s : ChannelState κ) : Modes channel cflag s s :=
  ⟨⟨[], rfl⟩, fun _ => rfl, rfl, rfl, rfl, Appended.refl _⟩

theorem trans (h : Modes channel cflag s s') (h' : Modes channel cflag s' s'') :
    Modes channel cflag s s'' := by
  refine ⟨?_, fun id => (h'.invite id).trans (h.invite id), h'.owed.trans h.owed,
    h'.trespassed.trans h.trespassed, h'.nicklist.trans h.nicklist, h.text.trans h'.text⟩
  obtain ⟨changes, hchanges⟩ := h.irc
  obtain ⟨changes', hchanges'⟩ := h'.irc
  refine ⟨changes ++ changes', ?_⟩
  rw [List.foldlM_append, hchanges]
  exact hchanges'

theorem settings (s : ChannelState κ) {settings : Settings} {text : List UInt8}
    (htext : Appended s.text text) (hinvite : settings.invite = (s.settings channel).invite) :
    Modes channel cflag s { s.setSettings channel settings with text := text } := by
  refine ⟨⟨[], rfl⟩, fun id => ?_, rfl, rfl, rfl, htext⟩
  show (Function.update s.settings channel settings id).invite = _
  by_cases hid : id = channel
  · rw [hid, Function.update_self, hinvite]
  · rw [Function.update_of_ne hid]

theorem channelFlag {flag : UInt32} {set : Bool}
    (hflag : ircChannelFlag s channel cflag flag set = some s') : Modes channel cflag s s' := by
  obtain ⟨ch, -, hflag⟩ := Option.bind_eq_some_iff.mp hflag
  dsimp only at hflag
  split at hflag
  · obtain rfl := Option.some.inj hflag
    exact refl channel cflag s
  · split at hflag
    · obtain rfl := Option.some.inj hflag
      exact settings s (Appended.refl _) rfl
    · exact absurd hflag.symm (Option.some_ne_none _)

theorem channelArg {flag : UInt32} {arg : List UInt8} {set : Bool}
    (harg : ircChannelArg s channel cflag flag arg set = some s') : Modes channel cflag s s' := by
  unfold ircChannelArg at harg
  split at harg
  · obtain rfl := Option.some.inj harg
    exact refl channel cflag s
  obtain ⟨ch, -, harg⟩ := Option.bind_eq_some_iff.mp harg
  split at harg
  · obtain rfl := Option.some.inj harg
    exact refl channel cflag s
  obtain ⟨changed, hchanged, harg⟩ := Option.bind_eq_some_iff.mp harg
  split_ifs at harg
  obtain rfl := Option.some.inj harg
  unfold Channels.channelArg at hchanged
  dsimp only at hchanged
  split_ifs at hchanged
  · obtain rfl := Option.some.inj hchanged
    exact refl channel cflag s
  · obtain rfl := Option.some.inj hchanged
    exact settings s (Appended.refl _) rfl
  · obtain rfl := Option.some.inj hchanged
    exact settings s (Appended.refl _) rfl
  · obtain rfl := Option.some.inj hchanged
    exact settings s (Appended.refl _) rfl
  · obtain ⟨found, hfound, rfl⟩ := Option.map_eq_some_iff.mp hchanged
    split
    · exact ⟨⟨[], rfl⟩, fun _ => rfl, rfl, rfl, rfl, findBan_appended hfound⟩
    · exact settings s (findBan_appended hfound) rfl
  · obtain rfl := Option.some.inj hchanged
    exact settings s (Appended.refl _) rfl

theorem modeLoop {args : List (List UInt8)} {set : Bool} {n : Nat} {req : List UInt8}
    (hmode : Channels.modeLoop channel cflag args set n req s = some s') :
    Modes channel cflag s s' := by
  induction req generalizing set n s with
  | nil =>
    obtain rfl := Option.some.inj hmode
    exact refl channel cflag s
  | cons c req ih =>
    rw [Channels.modeLoop] at hmode
    by_cases hplus : c = 43
    · rw [if_pos hplus] at hmode
      exact ih hmode
    rw [if_neg hplus] at hmode
    by_cases hminus : c = 45
    · rw [if_pos hminus] at hmode
      exact ih hmode
    rw [if_neg hminus] at hmode
    by_cases hban : c = 98
    · rw [if_pos hban] at hmode
      split at hmode
      · obtain ⟨text, hlist, hmode⟩ := Option.bind_eq_some_iff.mp hmode
        have htext : Modes channel cflag s { s with text := text } :=
          ⟨⟨[], rfl⟩, fun _ => rfl, rfl, rfl, rfl, banList_appended hlist⟩
        exact htext.trans (ih hmode)
      · obtain ⟨arg, -, hmode⟩ := Option.bind_eq_some_iff.mp hmode
        obtain ⟨s₁, hs₁, hmode⟩ := Option.bind_eq_some_iff.mp hmode
        exact (channelArg hs₁).trans (ih hmode)
    rw [if_neg hban] at hmode
    by_cases hclient : c = 111 ∨ c = 118
    · rw [if_pos hclient] at hmode
      obtain ⟨nick, -, hmode⟩ := Option.bind_eq_some_iff.mp hmode
      obtain ⟨irc, hirc, hmode⟩ := Option.bind_eq_some_iff.mp hmode
      have hflag : Modes channel cflag s { s with irc := irc } := by
        refine ⟨⟨[⟨nick, if c = 111 then modeOperator else modeVoice, set⟩], ?_⟩,
          fun _ => rfl, rfl, rfl, rfl, Appended.refl _⟩
        rw [List.foldlM_cons]
        exact Option.bind_eq_some_iff.mpr ⟨irc, hirc, rfl⟩
      exact hflag.trans (ih hmode)
    rw [if_neg hclient] at hmode
    by_cases harg : c = 108 ∨ c = 107
    · rw [if_pos harg] at hmode
      obtain ⟨arg, -, hmode⟩ := Option.bind_eq_some_iff.mp hmode
      obtain ⟨s₁, hs₁, hmode⟩ := Option.bind_eq_some_iff.mp hmode
      exact (channelArg hs₁).trans (ih hmode)
    rw [if_neg harg] at hmode
    split at hmode
    · obtain ⟨s₁, hs₁, hmode⟩ := Option.bind_eq_some_iff.mp hmode
      exact (channelFlag hs₁).trans (ih hmode)
    · exact ih hmode

end Modes

/-- What MODE does: nothing, or a member of the channel changes it. -/
theorem ircModeCallback_cases {client : Nat} {chan : List UInt8}
    {modes : Option (List UInt8 × List (List UInt8))}
    (hmode : ircModeCallback key s client chan modes = some s') :
    s' = s ∨ ∃ id channel n cflag, ircFindChannel key s.irc chan = some id ∧
      s.irc.channelAt id = some channel ∧ channel.client.idxOf? client = some n ∧
      channel.cflag[n]? = some cflag ∧ Modes id cflag s s' := by
  unfold ircModeCallback at hmode
  split at hmode
  · next id req args hfind =>
    obtain ⟨channel, hchannel, hmode⟩ := Option.bind_eq_some_iff.mp hmode
    split at hmode
    · exact Or.inl (Option.some.inj hmode).symm
    · next n hn =>
      obtain ⟨cflag, hcflag, hmode⟩ := Option.bind_eq_some_iff.mp hmode
      exact Or.inr ⟨id, channel, n, cflag, hfind, hchannel, hn, hcflag, Modes.modeLoop hmode⟩
  · exact Or.inl (Option.some.inj hmode).symm

/-- What INVITE does: nothing, or the operator of a channel invites a client that is not in it. -/
theorem ircInviteCallback_cases {client : Nat} {nick chan : List UInt8} {absent : Bool}
    (hinvite : ircInviteCallback key s client nick chan absent = some s') :
    s' = s ∨ ∃ cl id c, ircFindNick key s.irc nick = some cl ∧
      ircFindChannel key s.irc chan = some id ∧ s.irc.clientAt cl = some c ∧
      s' = { s.setSettings id
          { s.settings id with invite := (s.settings id).invite ++ [cl] } with
        owed := Function.update s.owed id (s.owed id ++ [cl]) } := by
  unfold ircInviteCallback at hinvite
  split at hinvite
  · next cl id hnick hchan =>
    obtain ⟨channel, -, hinvite⟩ := Option.bind_eq_some_iff.mp hinvite
    split at hinvite
    · exact Or.inl (Option.some.inj hinvite).symm
    split at hinvite
    · exact Or.inl (Option.some.inj hinvite).symm
    obtain ⟨cflag, -, hinvite⟩ := Option.bind_eq_some_iff.mp hinvite
    split at hinvite
    · exact Or.inl (Option.some.inj hinvite).symm
    obtain ⟨c, hc, rfl⟩ := Option.map_eq_some_iff.mp hinvite
    split
    · exact Or.inl rfl
    · exact Or.inr ⟨cl, id, c, hnick, hchan, hc, rfl⟩
  · exact Or.inl (Option.some.inj hinvite).symm

theorem channelStep_other {event : IrcEvent}
    (h : channelStep cfg key s (.other event) = some s') :
    ∃ irc, ircStep cfg key s.irc event = some irc ∧
      (∀ sock targets, event ≠ .request sock (.join targets)) ∧
      s' = { s with
        irc := irc
        owed := fun id => stillOwed (rollChange cfg s.irc event) (s.owed id) } := by
  cases event with
  | request sock request =>
    cases request with
    | join targets => exact absurd h.symm (Option.some_ne_none _)
    | mode chan changes => exact absurd h.symm (Option.some_ne_none _)
    | _ =>
      obtain ⟨irc, hirc, rfl⟩ := Option.map_eq_some_iff.mp h
      refine ⟨irc, hirc, fun sock' targets hjoin => ?_, rfl⟩
      exact IrcRequest.noConfusion (IrcEvent.request.inj hjoin).2
  | _ =>
    obtain ⟨irc, hirc, rfl⟩ := Option.map_eq_some_iff.mp h
    exact ⟨irc, hirc, fun sock targets hjoin => IrcEvent.noConfusion hjoin, rfl⟩

theorem ircStep_request {sock : Nat} {c : IrcClient} {request : IrcRequest} {irc irc' : IrcState κ}
    (hc : irc.clientOf sock = some c)
    (hhandle : ircHandleRequest cfg key irc c request = some irc') :
    ircStep cfg key irc (.request sock request) = some irc' := by
  rw [ircStep, hc]
  exact hhandle

/-- MODE, INVITE and ISON are requests in which nobody joins. -/
theorem channelStep_request {event : ChannelEvent} (h : channelStep cfg key s event = some s')
    (hjoin : ∀ sock data targets, event ≠ .join sock data targets)
    (hother : ∀ e, event ≠ .other e) :
    ∃ sock request, (∀ targets, request ≠ .join targets) ∧
      ircStep cfg key s.irc (.request sock request) = some s'.irc := by
  cases event with
  | join sock data targets => exact absurd rfl (hjoin sock data targets)
  | mode sock chan modes =>
    obtain ⟨c, hc, h⟩ := Option.bind_eq_some_iff.mp h
    rcases ircModeCallback_cases h with rfl |
      ⟨id, channel, n, cflag, hfind, hchannel, hn, hcflag, hmodes⟩
    · exact ⟨sock, .other, fun _ => IrcRequest.noConfusion, ircStep_request hc rfl⟩
    · obtain ⟨changes, hchanges⟩ := hmodes.irc
      refine ⟨sock, .mode chan changes, fun _ => IrcRequest.noConfusion, ircStep_request hc ?_⟩
      rw [ircHandleRequest, Irc.ircModeCallback, hfind]
      dsimp only
      rw [hchannel, Option.bind_some, hn]
      dsimp only
      rw [hcflag, Option.bind_some]
      exact hchanges
  | invite sock nick chan absent =>
    obtain ⟨c, hc, h⟩ := Option.bind_eq_some_iff.mp h
    refine ⟨sock, .other, fun _ => IrcRequest.noConfusion, ?_⟩
    rcases ircInviteCallback_cases h with rfl | ⟨cl, id, a, -, -, -, rfl⟩
    · exact ircStep_request hc rfl
    · exact ircStep_request hc rfl
  | ison sock nicks =>
    obtain ⟨c, hc, h⟩ := Option.bind_eq_some_iff.mp h
    obtain ⟨nicklist, -, rfl⟩ := Option.map_eq_some_iff.mp h
    exact ⟨sock, .other, fun _ => IrcRequest.noConfusion, ircStep_request hc rfl⟩
  | other event => exact absurd rfl (hother event)

theorem channelStep_irc {event : ChannelEvent} (h : channelStep cfg key s event = some s') :
    ∃ e, ircStep cfg key s.irc e = some s'.irc := by
  have hrequest (hjoin : ∀ sock data targets, event ≠ .join sock data targets)
      (hother : ∀ e, event ≠ .other e) : ∃ e, ircStep cfg key s.irc e = some s'.irc := by
    obtain ⟨sock, request, -, hstep⟩ := channelStep_request h hjoin hother
    exact ⟨.request sock request, hstep⟩
  cases event with
  | join sock data targets =>
    obtain ⟨c, hc, h⟩ := Option.bind_eq_some_iff.mp h
    obtain ⟨targets', htargets'⟩ := ircJoinCallback_irc h
    exact ⟨.request sock (.join targets'), ircStep_request hc htargets'⟩
  | other event =>
    obtain ⟨irc, hirc, -, rfl⟩ := channelStep_other h
    exact ⟨event, hirc⟩
  | _ => exact hrequest (fun _ _ _ => ChannelEvent.noConfusion) (fun _ => ChannelEvent.noConfusion)

end Serveez.Irc.Channels
