import Serveez.Irc.State

/-!
# Commands and events of the IRC server

The callbacks that change clients, channels or the hashes, and the events that lead to them. What
the server cannot know is part of an event: the blocks that `svz_calloc` gives, whether the modes
of a channel admit a client, whether the configuration lines admit it. `other` stands for the
commands that change nothing of this. A step that cannot happen, or that reads memory that is
free, has no result.
-/

namespace Serveez.Irc

open Lib

/-- `pass` is `cfg->pass`, with the passwords that it lets through. -/
structure IrcConfig where
  channelsPerUser : Int
  pass : Option (List UInt8 → Bool)

/-- A channel to join, whether it admits the client, and the block for it if it is new. -/
structure JoinTarget where
  channel : List UInt8
  admitted : Bool
  addr : Nat

/-- A channel flag of a client, `MODE_OPERATOR` or `MODE_VOICE`. -/
structure ModeChange where
  nick : List UInt8
  flag : UInt32
  set : Bool

inductive IrcRequest
  | quit
  | pass (password : Option (List UInt8))
  | nick (nick : Option (List UInt8))
  | user (enough : Bool)
  | join (targets : List JoinTarget)
  | part (targets : List (List UInt8))
  | kick (targets : List (List UInt8 × List UInt8))
  | mode (channel : List UInt8) (changes : List ModeChange)
  | other

inductive IrcEvent
  | connect (sock addr : Nat)
  | identDone (sock : Nat)
  | rdnsDone (sock : Nat)
  | idle (sock : Nat) (valid : Bool)
  | request (sock : Nat) (request : IrcRequest)
  | disconnect (sock : Nat)

variable {κ : Type} [DecidableEq κ]

/-! ## Registration -/

/-- `irc_pass_callback`. The client is deleted, and `sock->data` stays as it is. -/
def ircPassCallback (cfg : IrcConfig) (key : List UInt8 → κ) (s : IrcState κ) (client : IrcClient) :
    Option (List UInt8) → IrcState κ
  | none => s
  | some password =>
    if cfg.pass.all (· password) then
      s.setClient client.id (fun c => { c with flag := { c.flag with pass := true } })
    else ircDeleteClient key s client

/-- `MAX_NICK_LEN` -/
def maxNickLen : Nat := 16

def isNickChar (c : UInt8) : Bool :=
  (65 ≤ c && c ≤ 126) || (48 ≤ c && c ≤ 57) || c = 95 || c = 45

/-- `irc_get_nick`: the nick that a text begins with. -/
def ircGetNick (text : List UInt8) : List UInt8 :=
  match text with
  | [] => []
  | c :: _ =>
    if (48 ≤ c ∧ c ≤ 57) ∨ c = 45 then [] else (text.take maxNickLen).takeWhile isNickChar

/-- `irc_nick_callback` -/
def ircNickCallback (key : List UInt8 → κ) (s : IrcState κ) (client : IrcClient) :
    Option (List UInt8) → Option (IrcState κ)
  | none => some s
  | some text =>
    let nick := ircGetNick text
    if nick = [] then some s
    else if (ircFindNick key s nick).isSome then some s
    else
      let named (s : IrcState κ) : IrcState κ :=
        s.setClient client.id (fun c =>
          { c with nick := some nick, flag := { c.flag with nick := true } })
      if client.flag.nick = true ∧ client.registered = true then
        if client.channel.all (fun id => (s.channelAt id).any (s.tells ·.client)) then
          client.nick.map fun old =>
            named { s with
              clients := putKey (key nick) client.id (removeKey Prod.fst (key old) s.clients) }
        else none
      else some (named s)

/-- `irc_user_callback` -/
def ircUserCallback (s : IrcState κ) (client : IrcClient) (enough : Bool) : IrcState κ :=
  if enough = false then s
  else s.setClient client.id (fun c => { c with flag := { c.flag with user := true } })

/-- `irc_register_client`; `valid` is the result of `irc_client_valid`. -/
def ircRegisterClient (key : List UInt8 → κ) (s : IrcState κ) (client : IrcClient) (valid : Bool) :
    IrcState κ :=
  if client.flag.registered = true ∧ valid = true then
    (ircAddClient key s client).setClient client.id (fun c => { c with registered := true })
  else s

/-! ## Channels -/

/-- `irc_join_callback` -/
def ircJoinCallback (limit : Int) (key : List UInt8 → κ) (client : Nat) :
    List JoinTarget → IrcState κ → Option (IrcState κ)
  | [], s => some s
  | target :: targets, s =>
    if target.channel = [] then some s
    else if (ircFindChannel key s target.channel).isSome ∧ target.admitted = false then some s
    else
      (ircJoinChannel limit key s client target.channel target.addr).bind fun s =>
      match ircFindChannel key s target.channel with
      | none => ircJoinCallback limit key client targets s
      | some id =>
        (s.channelAt id).bind fun channel =>
        if s.tells channel.client ∧ (client ∈ channel.client → s.lists channel.client) then
          ircJoinCallback limit key client targets s
        else none

/-- The loop of `irc_part_callback`; each round takes the client from a channel. The messages are
sent by a loop that also counts with `n`. -/
def partLoop (key : List UInt8 → κ) (client : Nat) (targets : List (List UInt8)) :
    Nat → Nat → IrcState κ → Option (IrcState κ)
  | 0, _, s => some s
  | rounds + 1, n, s =>
    match targets[n]? with
    | none => some s
    | some target =>
      match ircFindChannel key s target with
      | none => some s
      | some id =>
        (s.channelAt id).bind fun channel =>
        if client ∉ channel.client then some s
        else if s.tells channel.client then
          (ircLeaveChannel key s client id).bind
            (partLoop key client targets rounds (channel.client.length + 1))
        else none

def ircPartCallback (key : List UInt8 → κ) (s : IrcState κ) (client : IrcClient)
    (targets : List (List UInt8)) : Option (IrcState κ) :=
  partLoop key client.id targets (s.rooms.length + 1) 0 s

/-- What `irc_kick_callback` does for one channel: the one to be kicked, with the channel. -/
def ircKicks (key : List UInt8 → κ) (s : IrcState κ) (client : Nat)
    (target : List UInt8 × List UInt8) : Option (Option (IrcChannel × Nat)) :=
  match ircFindChannel key s target.1 with
  | none => some none
  | some id =>
    (s.channelAt id).bind fun channel =>
    match channel.client.idxOf? client with
    | none => some none
    | some i =>
      (channel.cflag[i]?).map fun cflag =>
      if cflag &&& modeOperator = 0 then none
      else
        match ircFindNick key s target.2 with
        | none => none
        | some victim => if victim ∈ channel.client then some (channel, victim) else none

/-- `irc_kick_callback` -/
def ircKickCallback (key : List UInt8 → κ) (client : Nat) :
    List (List UInt8 × List UInt8) → IrcState κ → Option (IrcState κ)
  | [], s => some s
  | target :: targets, s =>
    (ircKicks key s client target).bind fun
      | none => ircKickCallback key client targets s
      | some (channel, victim) =>
        if s.tells channel.client then
          (ircLeaveChannel key s victim channel.id).bind (ircKickCallback key client targets)
        else none

def ModeChange.changed (change : ModeChange) (flag : UInt32) : UInt32 :=
  if change.set then flag ||| change.flag else flag &&& ~~~change.flag

/-- `irc_client_flag`, for a client with the flag `cflag` in the channel. -/
def ircClientFlag (s : IrcState κ) (channel : Nat) (cflag : UInt32) (change : ModeChange) :
    Option (IrcState κ) :=
  (s.channelAt channel).bind fun ch =>
  if cflag &&& modeOperator = 0 then some s
  else if s.tells ch.client = false then none
  else
    match ch.client.findIdx? (fun id => (s.clientAt id).any (·.nick = some change.nick)) with
    | none => some s
    | some i =>
      (ch.client[i]?).map fun victim =>
        (s.setChannel channel (fun ch =>
          { ch with cflag := ch.cflag.modify i change.changed })).give
            channel victim (change.changed (s.given channel victim))

/-- `irc_mode_callback`, as far as it is about the flags of clients. The flag of the client that
sends the command is read once. -/
def ircModeCallback (key : List UInt8 → κ) (s : IrcState κ) (client : Nat) (chan : List UInt8)
    (changes : List ModeChange) : Option (IrcState κ) :=
  match ircFindChannel key s chan with
  | none => some s
  | some id =>
    (s.channelAt id).bind fun channel =>
    match channel.client.idxOf? client with
    | none => some s
    | some n =>
      (channel.cflag[n]?).bind fun cflag =>
      changes.foldlM (fun s change => ircClientFlag s id cflag change) s

/-! ## Events -/

/-- `irc_handle_request` -/
def ircHandleRequest (cfg : IrcConfig) (key : List UInt8 → κ) (s : IrcState κ)
    (client : IrcClient) : IrcRequest → Option (IrcState κ)
  | .quit => ircLeaveAllChannels key s client
  | .pass password => some (ircPassCallback cfg key s client password)
  | .nick nick => ircNickCallback key s client nick
  | .user enough => some (ircUserCallback s client enough)
  | .join targets => ircJoinCallback cfg.channelsPerUser key client.id targets s
  | .part targets => ircPartCallback key s client targets
  | .kick targets => ircKickCallback key client.id targets s
  | .mode channel changes => ircModeCallback key s client.id channel changes
  | .other => some s

/-- The callbacks of the coservers, for connections that still exist. -/
def authDone (s : IrcState κ) (sock : Nat) (f : UMode → UMode) : Option (IrcState κ) :=
  if s.data sock = none then some s
  else
    (s.clientOf sock).map fun client =>
      s.setClient client.id (fun c => { c with flag := f c.flag })

/-- `irc_disconnect`, before the connection is gone. -/
def ircDisconnect (key : List UInt8 → κ) (s : IrcState κ) (sock : Nat) : Option (IrcState κ) :=
  match s.data sock with
  | none => none
  | some none => some (s.setData sock none)
  | some (some id) =>
    (s.clientAt id).bind fun client =>
    (ircLeaveAllChannels key s client).map fun s => s.setData sock none

def ircStep (cfg : IrcConfig) (key : List UInt8 → κ) (s : IrcState κ) :
    IrcEvent → Option (IrcState κ)
  | .connect sock addr =>
    if (s.data sock).isSome ∨ (s.clientAt addr).isSome then none
    else some (ircStartAuth cfg.pass.isSome s sock addr)
  | .identDone sock => authDone s sock (fun flag => { flag with ident := true })
  | .rdnsDone sock => authDone s sock (fun flag => { flag with dns := true })
  | .idle sock valid =>
    (s.clientOf sock).map fun client =>
      if client.registered then s else ircRegisterClient key s client valid
  | .request sock request =>
    (s.clientOf sock).bind fun client => ircHandleRequest cfg key s client request
  | .disconnect sock => ircDisconnect key s sock

def startIrc : IrcState κ := ⟨0, [], [], [], [], fun _ => none, fun _ _ => 0⟩

/-- The state after the events, if they can happen. -/
def ircRun (cfg : IrcConfig) (key : List UInt8 → κ) (events : List IrcEvent) :
    Option (IrcState κ) :=
  events.foldl (fun s event => s.bind (fun s => ircStep cfg key s event)) (some startIrc)

end Serveez.Irc
