import Serveez.Hash.Table
import Serveez.Lib.Keyed

/-!
# Clients and channels of the IRC server

A client and a channel point to each other: `client->channel` is an array of channels, and
`channel->client` and `channel->cflag` are arrays of clients and of their flags in the channel.
Removing from an array moves its last entry. A channel is in the hash `cfg->channels` under its
name, a client in `cfg->clients` under its nick when it is registered.

`live` and `rooms` are the client and channel structures that have not been freed, known by their
addresses. A function that reads memory that is free has no result. `data` is what the connections
hold: `some none` is a connection whose `sock->data` is `NULL`, and `none` no connection.

The hashes are lists of their entries, with different keys. `key` gives the same value for names
that a hash takes for the same; for the hashes of the server it is `ircKey`.
-/

namespace Serveez.Irc

open Lib

/-- `irc_lcset` -/
def lcset (c : UInt8) : UInt8 :=
  if c = 91 then 123
  else if c = 93 then 125
  else if c = 124 then 92
  else if 65 ≤ c ∧ c ≤ 90 then c + 32
  else c

/-- The index of a character in the table: `(unsigned) c`, for a `char`. -/
def tableIndex (c : UInt8) : Nat := c.toInt8.toInt32.toUInt32.toNat

/-- `irc_lcset` has 256 entries. -/
def InTable (c : UInt8) : Prop := tableIndex c < 256

instance : DecidablePred InTable := fun c => inferInstanceAs (Decidable (tableIndex c < 256))

/-- The hashes compare with `irc_string_equal`, but keep the default hash code, which they compare
first. -/
def ircKey (name : List UInt8) : UInt64 × List UInt8 := (Hash.hashCode name, name.map lcset)

/-- The flags of a client on the way to its registration. -/
structure UMode where
  pass : Bool
  nick : Bool
  user : Bool
  ident : Bool
  dns : Bool
  deriving DecidableEq

/-- `UMODE_REGISTERED` -/
def UMode.registered (flag : UMode) : Bool :=
  flag.nick && flag.user && flag.pass && flag.ident && flag.dns

structure IrcClient where
  id : Nat
  sock : Nat
  nick : Option (List UInt8)
  flag : UMode
  registered : Bool
  channel : List Nat
  deriving DecidableEq

structure IrcChannel where
  id : Nat
  name : List UInt8
  client : List Nat
  cflag : List UInt32
  deriving DecidableEq

def modeOperator : UInt32 := 0x0001

/-- `given` is a history: the flag given to a client of a channel. -/
structure IrcState (κ : Type) where
  users : Int
  clients : List (κ × Nat)
  channels : List (κ × Nat)
  live : List IrcClient
  rooms : List IrcChannel
  data : Nat → Option (Option Nat)
  given : Nat → Nat → UInt32

variable {κ : Type} [DecidableEq κ]

/-! ## Memory -/

namespace IrcState

def clientAt (s : IrcState κ) (id : Nat) : Option IrcClient := findKey IrcClient.id id s.live

def channelAt (s : IrcState κ) (id : Nat) : Option IrcChannel := findKey IrcChannel.id id s.rooms

def setClient (s : IrcState κ) (id : Nat) (f : IrcClient → IrcClient) : IrcState κ :=
  { s with live := modifyKey IrcClient.id id f s.live }

def setChannel (s : IrcState κ) (id : Nat) (f : IrcChannel → IrcChannel) : IrcState κ :=
  { s with rooms := modifyKey IrcChannel.id id f s.rooms }

/-- `sock->data` -/
def setData (s : IrcState κ) (sock : Nat) (client : Option (Option Nat)) : IrcState κ :=
  { s with data := Function.update s.data sock client }

def give (s : IrcState κ) (channel client : Nat) (flag : UInt32) : IrcState κ :=
  { s with given :=
      Function.update s.given channel (Function.update (s.given channel) client flag) }

/-- The client of a connection. -/
def clientOf (s : IrcState κ) (sock : Nat) : Option IrcClient :=
  match s.data sock with
  | some (some id) => s.clientAt id
  | _ => none

/-- A message to clients reads each of them. -/
def tells (s : IrcState κ) (clients : List Nat) : Bool :=
  clients.all (fun id => (s.clientAt id).isSome)

/-- `irc_channel_users` reads the nicks, and a client that has none is fatal. -/
def lists (s : IrcState κ) (clients : List Nat) : Bool :=
  clients.all (fun id => (s.clientAt id).any (·.nick.isSome))

end IrcState

/-! ## The hashes -/

def ircFindNick (key : List UInt8 → κ) (s : IrcState κ) (nick : List UInt8) : Option Nat :=
  (findKey Prod.fst (key nick) s.clients).map Prod.snd

def ircFindChannel (key : List UInt8 → κ) (s : IrcState κ) (channel : List UInt8) : Option Nat :=
  (findKey Prod.fst (key channel) s.channels).map Prod.snd

/-- `svz_hash_put` -/
def putKey (k : κ) (id : Nat) (hash : List (κ × Nat)) : List (κ × Nat) :=
  (k, id) :: removeKey Prod.fst k hash

/-! ## Channels -/

/-- `irc_join_channel`, where `addr` is the block for a new channel. -/
def ircJoinChannel (limit : Int) (key : List UInt8 → κ) (s : IrcState κ) (client : Nat)
    (chan : List UInt8) (addr : Nat) : Option (IrcState κ) :=
  (s.clientAt client).bind fun c =>
  let enter (s : IrcState κ) (channel : Nat) (flag : UInt32) : IrcState κ :=
    (s.setClient client (fun c => { c with channel := c.channel ++ [channel] })).give
      channel client flag
  match ircFindChannel key s chan with
  | some id =>
    (s.channelAt id).bind fun channel =>
    if client ∈ channel.client then some s
    else if limit ≤ c.channel.length then some s
    else
      some (enter (s.setChannel id (fun ch =>
        { ch with client := ch.client ++ [client], cflag := ch.cflag ++ [0] })) id 0)
  | none =>
    if limit ≤ c.channel.length then some s
    else if (s.channelAt addr).isSome then none
    else
      some (enter { s with
        channels := putKey (key chan) addr s.channels
        rooms := ⟨addr, chan, [client], [modeOperator]⟩ :: s.rooms } addr modeOperator)

/-- `irc_delete_channel` -/
def ircDeleteChannel (key : List UInt8 → κ) (s : IrcState κ) (channel : Nat) :
    Option (IrcState κ) :=
  (s.channelAt channel).bind fun ch =>
  if s.channels.any (·.2 = channel) then
    some { s with
      channels := removeKey Prod.fst (key ch.name) s.channels
      rooms := removeKey IrcChannel.id channel s.rooms }
  else some s

/-- `irc_leave_channel` -/
def ircLeaveChannel (key : List UInt8 → κ) (s : IrcState κ) (client channel : Nat) :
    Option (IrcState κ) :=
  (s.channelAt channel).bind fun ch =>
  match ch.client.idxOf? client with
  | some n =>
    (s.clientAt client).bind fun c =>
    let s := s.setChannel channel (fun ch =>
      { ch with client := swapRemove ch.client n, cflag := swapRemove ch.cflag n })
    let s :=
      match c.channel.idxOf? channel with
      | some i => s.setClient client (fun c => { c with channel := swapRemove c.channel i })
      | none => s
    if swapRemove ch.client n = [] then ircDeleteChannel key s channel else some s
  | none => if ch.client = [] then ircDeleteChannel key s channel else some s

/-- The part of `irc_leave_channel` that takes the channel from the list of the client. -/
def unlistChannel (s : IrcState κ) (c : IrcClient) (client channel : Nat) : IrcState κ :=
  match c.channel.idxOf? channel with
  | some i => s.setClient client (fun c => { c with channel := swapRemove c.channel i })
  | none => s

/-! ## Clients -/

/-- `irc_delete_client` -/
def ircDeleteClient (key : List UInt8 → κ) (s : IrcState κ) (client : IrcClient) : IrcState κ :=
  { s with
    users := s.users - 1
    clients :=
      match client.nick with
      | some nick => removeKey Prod.fst (key nick) s.clients
      | none => s.clients
    live := removeKey IrcClient.id client.id s.live }

/-- The loop of `irc_leave_all_channels`; each round takes a channel from the client. -/
def leaveLoop (key : List UInt8 → κ) (client : Nat) : Nat → IrcState κ → Option (IrcState κ)
  | 0, s => some s
  | rounds + 1, s =>
    (s.clientAt client).bind fun c =>
    match c.channel with
    | [] => some s
    | channel :: _ =>
      (s.channelAt channel).bind fun ch =>
      if s.tells (ch.client.filter (· ≠ client)) then
        (ircLeaveChannel key s client channel).bind (leaveLoop key client rounds)
      else none

/-- `irc_leave_all_channels` -/
def ircLeaveAllChannels (key : List UInt8 → κ) (s : IrcState κ) (client : IrcClient) :
    Option (IrcState κ) :=
  (leaveLoop key client.id client.channel.length s).bind fun s =>
  (s.clientAt client.id).map fun c => (ircDeleteClient key s c).setData client.sock (some none)

/-- `irc_create_client` and `irc_start_auth`, with the block for the client. -/
def ircStartAuth (pass : Bool) (s : IrcState κ) (sock addr : Nat) : IrcState κ :=
  { s with
    users := s.users + 1
    live := ⟨addr, sock, none, ⟨!pass, false, false, false, false⟩, false, []⟩ :: s.live
    }.setData sock (some (some addr))

/-- `irc_add_client` -/
def ircAddClient (key : List UInt8 → κ) (s : IrcState κ) (client : IrcClient) : IrcState κ :=
  match client.nick with
  | none => s
  | some nick =>
    if (ircFindNick key s nick).isSome then s
    else { s with clients := putKey (key nick) client.id s.clients }

end Serveez.Irc
