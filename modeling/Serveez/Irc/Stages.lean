import Serveez.Irc.Members
import Serveez.Irc.MessageBuffer
import Serveez.Irc.UserModes

/-!
# The stages of registration

A client is registered when it has a nick, a user and a password, when the answers about its ident
and its host are there, and when the configuration lines admit it. No command asks for this: the
callbacks take a client of any stage. What a client is not known by yet is `NULL`, and some of the
callbacks read it: PASS, OPER, JOIN, MODE, NAMES, WHO, WHOIS and NICK. A text that is only printed
is not read here; the C library prints `NULL` like a text.

* `nullRead`: whether the callback of a command reads such a field.
* `RegistrationHolds`: clients that are not registered are in no channel, no operators and heard by
  nobody, and no callback reads `NULL`.
* `keepsStages`: the commands that it fails for do not come from such clients, and memory that a
  channel still lists is not given away.
-/

namespace Serveez.Irc.Stages

open Lib Channels Messages

/-- `fields` are the fields of the clients, `keyed` the passwords that their keys are made of. -/
structure StageState (κ : Type) where
  channels : ChannelState κ
  fields : Nat → ClientData
  keyed : Nat → List UInt8
  operators : Int
  invisibles : Int
  modes : Nat → UserFlag → Bool
  away : Nat → Bool
  priv : TextBuffer
  note : TextBuffer

/-- The answers about ident and host, the commands that read or write fields, and what is left of
the events. `search` stands for WHO and WHOIS, when they go through the clients of the hash. -/
inductive StageEvent
  | identDone (sock : Nat) (user : Option (List UInt8))
  | rdnsDone (sock : Nat) (host : Option (List UInt8))
  | pass (sock : Nat) (password : Option (List UInt8))
  | user (sock : Nat) (names : Option (List UInt8 × List UInt8))
  | oper (sock : Nat) (names : Option (List UInt8 × List UInt8))
  | join (sock : Nat) (targets : List JoinRequest)
  | mode (sock : Nat) (name : List UInt8) (modes : Option (List UInt8 × List (List UInt8)))
  | invite (sock : Nat) (nick chan : List UInt8)
  | ison (sock : Nat) (nicks : List (List UInt8))
  | away (sock : Nat) (absent : Bool)
  | message (sock : Nat) (notice : Bool) (paras : List (CString maxMsgLen))
    (targets : List IrcTarget)
  | names (sock : Nat) (channels : Option (List (List UInt8)))
  | search (sock : Nat)
  | other (event : IrcEvent)

variable {κ : Type} [DecidableEq κ]

namespace StageState

def irc (s : StageState κ) : IrcState κ := s.channels.irc

def clientOf (s : StageState κ) (sock : Nat) : Option IrcClient := s.irc.clientOf sock

/-- What OPER and MODE change of the clients. -/
def users (s : StageState κ) : ModeState κ :=
  ⟨s.irc, s.operators, s.invisibles, s.modes, fun _ => false⟩

def setUsers (s : StageState κ) (users : ModeState κ) : StageState κ :=
  { s with operators := users.operators, invisibles := users.invisibles, modes := users.modes }

/-- What PRIVMSG and NOTICE read. -/
def messages (s : StageState κ) : MessageState κ := ⟨s.channels, s.keyed, s.away, s.priv, s.note⟩

def setFields (s : StageState κ) (client : Nat) (f : ClientData → ClientData) : StageState κ :=
  { s with fields := Function.update s.fields client (f (s.fields client)) }

end StageState

/-! ## Fields that are `NULL` -/

/-- A comparison with a text comes to a field that is `NULL`. -/
def nullText (text regex : Option (List UInt8)) : Bool := text.isNone && regex.isSome

/-- `irc_client_banned` -/
def banReads (nick : Option (List UInt8)) (data : ClientData) (ban : IrcBan) : Bool :=
  nullText nick ban.nick ||
    matchesPtr nick ban.nick = some true &&
      (nullText data.user ban.user ||
        matchesPtr data.user ban.user = some true && nullText data.host ban.host)

/-- The loop of JOIN over the bans of a channel. -/
def bansRead (nick : Option (List UInt8)) (data : ClientData) : List IrcBan → Bool
  | [] => false
  | ban :: bans =>
    banReads nick data ban ||
      ircClientBanned nick data ban = some false && bansRead nick data bans

/-- A channel that exists, when a client wants to enter it. -/
def admitsReads (settings : Settings) (clients client : Nat) (nick : Option (List UInt8))
    (data : ClientData) (given : List UInt8) : Bool :=
  (settings.flag &&& modeKey = 0 || settings.key = some given) &&
    (takeInvite settings client).any fun settings =>
      !decide (settings.flag &&& modeUlimit ≠ 0 ∧ settings.users ≤ (clients : Int)) &&
        bansRead nick data settings.ban

/-- The client has been found, and has no nick. -/
def unnamed (s : IrcState κ) (id : Nat) : Bool := (s.clientAt id).any (·.nick.isNone)

/-- `irc_channel_users` -/
def usersRead (s : IrcState κ) (modes : Nat → UserFlag → Bool) (client : Nat) (ch : IrcChannel) :
    Bool :=
  client ∈ ch.client && ch.client.any fun id => !modes id .invisible && unnamed s id

/-- A round of JOIN, before the client enters the channel. -/
def joinBans (key : List UInt8 → κ) (s : ChannelState κ) (client : Nat) (data : ClientData)
    (target : JoinRequest) : Bool :=
  ((ircFindChannel key s.irc target.channel).bind fun id =>
    (s.irc.channelAt id).bind fun channel =>
    (s.irc.clientAt client).map fun c =>
      admitsReads (s.settings id) channel.client.length client c.nick data target.given).getD false

/-- A round of JOIN in which the client enters the channel. -/
def joinRound (limit : Int) (key : List UInt8 → κ) (client : Nat) (data : ClientData)
    (target : JoinRequest) (s : ChannelState κ) : Option (ChannelState κ) :=
  (joinAdmits key s client data target).bind fun admission =>
  if admission.1 then
    Channels.ircJoinChannel limit key admission.2 client target.channel target.addr
  else none

/-- The clients of a channel are listed to one. -/
def listReads (key : List UInt8 → κ) (s : IrcState κ) (modes : Nat → UserFlag → Bool)
    (client : Nat) (chan : List UInt8) : Bool :=
  ((ircFindChannel key s chan).bind s.channelAt).any (usersRead s modes client)

/-- `irc_join_callback` -/
def joinReads (limit : Int) (key : List UInt8 → κ) (client : Nat) (data : ClientData)
    (modes : Nat → UserFlag → Bool) : List JoinRequest → ChannelState κ → Bool
  | [], _ => false
  | target :: targets, s =>
    if target.channel = [] then false
    else
      joinBans key s client data target ||
        (joinRound limit key client data target s).any fun s =>
          listReads key s.irc modes client target.channel ||
            joinReads limit key client data modes targets s

/-- `irc_oper_valid` -/
def operReads (agree : List UInt8 → List UInt8 → Bool) (data : ClientData)
    (nick : Option (List UInt8)) : List IrcOper → Bool
  | [] => false
  | oper :: opers =>
    nullText data.user oper.user ||
      matchesPtr data.user oper.user = some true &&
        (nullText data.host oper.host ||
          matchesPtr data.host oper.host = some true && nullText nick oper.nick) ||
      ircOperValid agree data nick [oper] = some false && operReads agree data nick opers

/-- What OPER leaves in the fields. -/
def operFields (data : ClientData) (user password : List UInt8) : ClientData :=
  { data with
    pass := some password
    user := data.user.map fun ident => if ident = [] then user else ident }

/-- `irc_client_flag`, which compares the nick with those of the clients. -/
def flagReads (s : IrcState κ) (ch : IrcChannel) (cflag : UInt32) (nick : List UInt8) : Bool :=
  cflag &&& modeOperator ≠ 0 &&
    (ch.client.takeWhile fun id => !(s.clientAt id).any (·.nick = some nick)).any (unnamed s)

/-- The loop of `irc_mode_callback` over the modes of a channel. -/
def modeReads (s : IrcState κ) (ch : IrcChannel) (cflag : UInt32) (args : List (List UInt8)) :
    Bool → Nat → List UInt8 → Bool
  | _, _, [] => false
  | set, n, c :: req =>
    if c = 43 then modeReads s ch cflag args true n req
    else if c = 45 then modeReads s ch cflag args false n req
    else if c = 98 then
      modeReads s ch cflag args set (if args.length ≤ n then n else n + 1) req
    else if c = 111 ∨ c = 118 then
      (paraAt args n).any (flagReads s ch cflag) || modeReads s ch cflag args set (n + 1) req
    else if c = 108 ∨ c = 107 then
      modeReads s ch cflag args set (if set then n + 1 else n) req
    else modeReads s ch cflag args set n req

/-- `irc_names_callback`, for the channels that are named or for all and the clients of none. -/
def namesReads (key : List UInt8 → κ) (s : IrcState κ) (modes : Nat → UserFlag → Bool)
    (client : Nat) : Option (List (List UInt8)) → Bool
  | some channels => channels.any (listReads key s modes client)
  | none =>
    s.channels.any (fun e => (s.channelAt e.2).any (usersRead s modes client)) ||
      s.clients.any fun e =>
        !modes e.2 .invisible && (s.clientAt e.2).any (·.channel = []) && unnamed s e.2

/-- `irc_nick_callback`, when the entry of the old nick is taken from the hash. -/
def nickReads (key : List UInt8 → κ) (s : IrcState κ) (c : IrcClient) (text : List UInt8) : Bool :=
  ircGetNick text ≠ [] && (ircFindNick key s (ircGetNick text)).isNone && c.flag.nick &&
    c.registered && c.nick.isNone

/-- Whether the callback of a command reads a field that is `NULL`. -/
def nullRead (cfg : ModeConfig) (key : List UInt8 → κ) (s : StageState κ) : StageEvent → Bool
  | .pass sock password => (s.clientOf sock).isSome && password = some []
  | .oper sock (some (user, password)) =>
    (s.clientOf sock).any fun c =>
      (s.fields c.id).pass.isNone || (s.fields c.id).user.isNone ||
        operReads cfg.agree (operFields (s.fields c.id) user password) c.nick cfg.opers
  | .join sock targets =>
    (s.clientOf sock).any fun c =>
      joinReads cfg.irc.channelsPerUser key c.id (s.fields c.id) s.modes targets s.channels
  | .mode sock name (some (req, args)) =>
    (s.clientOf sock).any fun c =>
      ((ircFindChannel key s.irc name).bind s.irc.channelAt).any fun ch =>
        ((ch.client.idxOf? c.id).bind (ch.cflag[·]?)).any fun cflag =>
          modeReads s.irc ch cflag args true 0 req
  | .names sock channels => (s.clientOf sock).any fun c =>
      namesReads key s.irc s.modes c.id channels
  | .search sock => (s.clientOf sock).isSome && s.irc.clients.any fun e => unnamed s.irc e.2
  | .other (.request sock (.nick (some text))) =>
    (s.clientOf sock).any fun c => nickReads key s.irc c text
  | _ => false

/-! ## Steps -/

/-- An event of the clients and channels; a new client has nothing of an earlier one. -/
def ircEvent (cfg : ModeConfig) (key : List UInt8 → κ) (s : StageState κ) (event : IrcEvent) :
    Option (StageState κ) :=
  (channelStep cfg.irc key s.channels (.other event)).map fun channels =>
    { s with
      channels := channels
      fields := event.forgets s.fields ⟨none, none, none, []⟩
      keyed := event.forgets s.keyed []
      modes := event.forgets s.modes (fun _ => false)
      away := event.forgets s.away false }

def channelEvent (cfg : ModeConfig) (key : List UInt8 → κ) (s : StageState κ)
    (event : ChannelEvent) : Option (StageState κ) :=
  (channelStep cfg.irc key s.channels event).map fun channels => { s with channels := channels }

/-- A field that an answer of a coserver sets, for a connection that still exists. -/
def answered (s : StageState κ) (sock : Nat) (f : ClientData → ClientData) : StageState κ :=
  match s.clientOf sock with
  | some c => s.setFields c.id f
  | none => s

/-- Events that go with more than the flags of a client. -/
def ownEvent : IrcEvent → Bool
  | .identDone _ => true
  | .rdnsDone _ => true
  | .request _ (.pass _) => true
  | .request _ (.user _) => true
  | _ => false

/-- The callback of a command, or another event. -/
def callback (cfg : ModeConfig) (key : List UInt8 → κ) (s : StageState κ) :
    StageEvent → Option (StageState κ)
  | .identDone sock user =>
    (ircEvent cfg key s (.identDone sock)).map fun s =>
      match user with
      | some user => answered s sock fun data => { data with user := svzStrdup user }
      | none => s
  | .rdnsDone sock host =>
    (ircEvent cfg key s (.rdnsDone sock)).map fun s =>
      match host with
      | some host => answered s sock fun data => { data with host := svzStrdup host }
      | none => s
  | .pass sock password =>
    (s.clientOf sock).bind fun c =>
    (ircEvent cfg key s (.request sock (.pass password))).map fun s =>
      match password with
      | some password =>
        { s.setFields c.id fun data => { data with pass := svzStrdup password } with
          keyed := Function.update s.keyed c.id password }
      | none => s
  | .user sock names =>
    (s.clientOf sock).bind fun c =>
    (ircEvent cfg key s (.request sock (.user names.isSome))).map fun s =>
      match names with
      | some (user, host) =>
        if c.flag.user then s
        else
          s.setFields c.id fun data =>
            { data with
              user := data.user.or (some (126 :: user))
              host := data.host.or (svzStrdup host) }
      | none => s
  | .oper sock names =>
    (s.clientOf sock).bind fun c =>
    match names with
    | some (user, password) =>
      (ircOperCallback cfg s.users c (s.fields c.id) user password).map fun users =>
        (s.setUsers users).setFields c.id fun data => operFields data user password
    | none => some s
  | .join sock targets =>
    (s.clientOf sock).bind fun c => channelEvent cfg key s (.join sock (s.fields c.id) targets)
  | .mode sock name modes =>
    if (ircFindChannel key s.irc name).isSome then channelEvent cfg key s (.mode sock name modes)
    else
      match modes with
      | some (req, _) => (modeStep cfg key s.users (.mode sock name req)).map s.setUsers
      | none => (s.clientOf sock).map fun _ => s
  | .invite sock nick chan =>
    channelEvent cfg key s (.invite sock nick chan ((ircFindNick key s.irc nick).any s.away))
  | .ison sock nicks => channelEvent cfg key s (.ison sock nicks)
  | .away sock absent =>
    (s.clientOf sock).map fun c => { s with away := Function.update s.away c.id absent }
  | .message sock notice paras targets =>
    (s.clientOf sock).bind fun c =>
    if notice then
      (ircNoteCallback key s.messages c paras targets).map fun sent => { s with note := sent.2 }
    else
      (ircPrivCallback key s.messages c paras targets).map fun sent => { s with priv := sent.2 }
  | .names sock _ => (s.clientOf sock).map fun _ => s
  | .search sock => (s.clientOf sock).map fun _ => s
  | .other event => if ownEvent event then none else ircEvent cfg key s event

/-- A callback that reads `NULL` has no result. -/
def stageStep (cfg : ModeConfig) (key : List UInt8 → κ) (s : StageState κ) (event : StageEvent) :
    Option (StageState κ) :=
  if nullRead cfg key s event then none else callback cfg key s event

def startStages : StageState κ :=
  { channels := startChannels
    fields := fun _ => ⟨none, none, none, []⟩
    keyed := fun _ => []
    operators := 0
    invisibles := 0
    modes := fun _ _ => false
    away := fun _ => false
    priv := TextBuffer.zero
    note := TextBuffer.zero }

/-- The state after the events, if they can happen. -/
def stageRun (cfg : ModeConfig) (key : List UInt8 → κ) (events : List StageEvent) :
    Option (StageState κ) :=
  events.foldl (fun s event => s.bind (stageStep cfg key · event)) (some startStages)

/-! ## What registration is for -/

/-- Clients that are not registered are in no channel, and no operators. -/
structure Outsiders (s : StageState κ) : Prop where
  member : ∀ c ∈ s.irc.live, c.registered = false → ∀ ch ∈ s.irc.rooms, c.id ∉ ch.client
  operator : ∀ c ∈ s.irc.live, c.registered = false → s.modes c.id .operator = false

/-- The client that sends a message, with the messages that come to clients. -/
def sent (key : List UInt8 → κ) (s : StageState κ) :
    StageEvent → Option (IrcClient × List (Nat × List UInt8))
  | .message sock notice paras targets =>
    (s.clientOf sock).bind fun c =>
    (if notice then ircNoteCallback key s.messages c paras targets
      else ircPrivCallback key s.messages c paras targets).map fun sent =>
        (c, messages sent.1.replies.flatten)
  | _ => none

/-- In a run, what a client that is not registered sends comes to no other client, and the fields
that a callback reads are there. -/
structure RegistrationHolds (cfg : ModeConfig) (key : List UInt8 → κ) (events : List StageEvent) :
    Prop where
  outsiders : ∀ pre, pre <+: events → ∀ s, stageRun cfg key pre = some s → Outsiders s
  unheard : ∀ pre event, pre ++ [event] <+: events → ∀ s, stageRun cfg key pre = some s →
    ∀ c delivered, sent key s event = some (c, delivered) → c.registered = false →
      ∀ message ∈ delivered, message.1 = c.id
  fields : ∀ pre event, pre ++ [event] <+: events → ∀ s, stageRun cfg key pre = some s →
    nullRead cfg key s event = false

/-! ## When it holds -/

/-- No round of JOIN compares a ban with a field that is `NULL`, and a client that is not registered
is let into no channel. -/
def joinKeeps (limit : Int) (key : List UInt8 → κ) (c : IrcClient) (data : ClientData) :
    List JoinRequest → ChannelState κ → Bool
  | [], _ => true
  | target :: targets, s =>
    target.channel = [] ||
      !joinBans key s c.id data target &&
        (joinRound limit key c.id data target s).all fun s =>
          (c.registered || limit ≤ 0) && joinKeeps limit key c data targets s

/-- A message of a client reaches no other client. -/
def unheardBy (key : List UInt8 → κ) (s : MessageState κ) (c : IrcClient) (notice : Bool)
    (paras : List (CString maxMsgLen)) (targets : List IrcTarget) : Bool :=
  paras.length < 2 || textOf paras = [] ||
    if notice then
      (ircFindNick key s.channels.irc (targets.head?.elim [] (·.nick.text))).all fun id =>
        s.away id || id = c.id
    else
      targets.all fun target =>
        !(aim key s c target).isReached || (named key s c target).all (· = c.id)

/-- A password is not empty, OPER comes behind PASS and from a client with the fields that the
operators are compared with, and makes none of a client that is not registered, JOIN and messages
are as above, and a new client does not get the address of one that a channel lists. -/
def keepsStages (cfg : ModeConfig) (key : List UInt8 → κ) (s : StageState κ) : StageEvent → Bool
  | .pass _ password => password ≠ some []
  | .oper sock (some (user, password)) =>
    (s.clientOf sock).all fun c =>
      let data := operFields (s.fields c.id) user password
      (s.fields c.id).pass.isSome && (s.fields c.id).user.isSome &&
        !operReads cfg.agree data c.nick cfg.opers &&
          (c.registered || ircOperValid cfg.agree data c.nick cfg.opers ≠ some true)
  | .join sock targets =>
    (s.clientOf sock).all fun c =>
      joinKeeps cfg.irc.channelsPerUser key c (s.fields c.id) targets s.channels
  | .message sock notice paras targets =>
    (s.clientOf sock).all fun c => c.registered || unheardBy key s.messages c notice paras targets
  | .other (.connect _ addr) => addr ∉ s.irc.members
  | _ => true

end Serveez.Irc.Stages
