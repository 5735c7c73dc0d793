import Serveez.Irc.Crypt

/-!
# Private messages

PRIVMSG goes through its targets, nicks and channels, with one text. For a sender with a password
the text is encrypted in place for each target that is reached, and a target that nobody has the
name of is written over it. NOTICE is for one nick and has a buffer of its own.

* `Delivered`: what the receivers should get.
-/

namespace Serveez.Irc.Messages

open Lib Channels

/-- `MAX_NAME_LEN` -/
def maxNameLen : Nat := 256

structure IrcTarget where
  channel : CString maxNameLen
  user : CString maxNameLen
  host : CString maxNameLen
  nick : CString maxNickLen
  mask : CString maxNameLen

/-- A line for a client, or for the sender. -/
inductive Reply
  | message (receiver : Nat) (name : Option (List UInt8)) (text : List UInt8)
  | absent (nick : Option (List UInt8))
  | notOnChannel (name : List UInt8)
  | cannotSend (name : List UInt8)
  | noSuchNick (text : List UInt8)

/-- What a request comes to: an error, or the lines for each target. -/
inductive Answer
  | needMoreParams
  | noText
  | sent (replies : List (List Reply))

/-- `pass` and `away` are of the clients, `priv` and `note` the buffers of PRIVMSG and NOTICE. -/
structure MessageState (κ : Type) where
  channels : ChannelState κ
  pass : Nat → List UInt8
  away : Nat → Bool
  priv : TextBuffer
  note : TextBuffer

variable {κ : Type} [DecidableEq κ]

/-- `client->key` -/
def MessageState.key (s : MessageState κ) (client : Nat) : UInt8 := ircGenKey (s.pass client)

/-! ## PRIVMSG -/

/-- The parameters behind the first one. -/
def textOf (paras : List (CString maxMsgLen)) : List UInt8 := (paras.drop 1).flatMap CString.text

/-- The text for the sender, in the buffer. -/
def scramble (s : MessageState κ) (client : IrcClient) (text : TextBuffer) : Option TextBuffer :=
  if client.flag.pass then text.write (ircEncryptText (s.key client.id) text.text) else some text

/-- What is printed to a client. -/
def shown (s : MessageState κ) (cl : IrcClient) (text : TextBuffer) : Option (List UInt8) :=
  if cl.flag.pass then (ircDecryptText (s.key cl.id) text.block).map cString else some text.text

/-- The text is printed to each of the clients. -/
def printTo (s : MessageState κ) (name : Option (List UInt8)) (text : TextBuffer) :
    List Nat → Option (List Reply)
  | [] => some []
  | id :: ids =>
    (s.channels.irc.clientAt id).bind fun cl =>
    (shown s cl text).bind fun shown =>
    (printTo s name text ids).map (.message id name shown :: ·)

/-- The text is encrypted and printed to each of the clients. -/
def deliver (s : MessageState κ) (client : IrcClient) (name : Option (List UInt8))
    (recipients : List Nat) (text : TextBuffer) : Option (List Reply × TextBuffer) :=
  (scramble s client text).bind fun text =>
  (printTo s name text recipients).map fun replies => (replies, text)

/-- Whether a channel takes messages of a client; the flag of one that is not in it is read before
the beginning of the array. -/
def maySend (settings : Settings) (channel : IrcChannel) (client : Nat) : Option Bool :=
  let i := channel.client.idxOf? client
  if settings.flag &&& modeMessage ≠ 0 ∧ i = none then some false
  else if settings.flag &&& modeModerate = 0 then some true
  else
    (i.bind (channel.cflag[·]?)).map fun cflag => cflag &&& (modeVoice ||| modeOperator) ≠ 0

/-- What is written over the text for a target that nobody has the name of. -/
def IrcTarget.name (target : IrcTarget) : List UInt8 :=
  if target.channel.text ≠ [] then target.channel.text
  else if target.nick.text ≠ [] then target.nick.text
  else if target.mask.text ≠ [] then target.nick.text
  else target.user.text ++ 64 :: target.host.text

/-- A round of `irc_priv_callback`. -/
def privTarget (key : List UInt8 → κ) (s : MessageState κ) (client : IrcClient)
    (target : IrcTarget) (text : TextBuffer) : Option (List Reply × TextBuffer) :=
  match ircFindNick key s.channels.irc target.nick.text with
  | some id =>
    (s.channels.irc.clientAt id).bind fun cl =>
    if s.away id then some ([.absent cl.nick], text) else deliver s client cl.nick [id] text
  | none =>
    match ircFindChannel key s.channels.irc target.channel.text with
    | some id =>
      (s.channels.irc.channelAt id).bind fun channel =>
      let outside := if client.id ∈ channel.client then [] else [.notOnChannel channel.name]
      (maySend (s.channels.settings id) channel client.id).bind fun may =>
      if may = false then some (outside ++ [.cannotSend channel.name], text)
      else
        (deliver s client (some channel.name) (channel.client.filter (· ≠ client.id)) text).map
          fun delivered => (outside ++ delivered.1, delivered.2)
    | none => (text.write target.name).map fun text => ([.noSuchNick text.text], text)

/-- The loop of `irc_priv_callback`. -/
def privLoop (key : List UInt8 → κ) (s : MessageState κ) (client : IrcClient) :
    List IrcTarget → TextBuffer → Option (List (List Reply) × TextBuffer)
  | [], text => some ([], text)
  | target :: targets, text =>
    (privTarget key s client target text).bind fun first =>
    (privLoop key s client targets first.2).map fun rest => (first.1 :: rest.1, rest.2)

/-- `irc_priv_callback` -/
def ircPrivCallback (key : List UInt8 → κ) (s : MessageState κ) (client : IrcClient)
    (paras : List (CString maxMsgLen)) (targets : List IrcTarget) :
    Option (Answer × TextBuffer) :=
  if paras.length < 2 then some (.needMoreParams, s.priv)
  else
    (s.priv.write (textOf paras)).bind fun text =>
    if text.text = [] then some (.noText, text)
    else (privLoop key s client targets text).map fun sent => (.sent sent.1, sent.2)

/-! ## NOTICE -/

/-- `irc_note_callback`; what the text decrypts to is not used. -/
def ircNoteCallback (key : List UInt8 → κ) (s : MessageState κ) (client : IrcClient)
    (paras : List (CString maxMsgLen)) (targets : List IrcTarget) :
    Option (Answer × TextBuffer) :=
  if paras.length < 2 then some (.needMoreParams, s.note)
  else
    (s.note.write (textOf paras)).bind fun text =>
    if text.text = [] then some (.noText, text)
    else
      match ircFindNick key s.channels.irc (targets.head?.elim [] (·.nick.text)) with
      | none => some (.sent [], text)
      | some id =>
        (s.channels.irc.clientAt id).bind fun cl =>
        if s.away id then some (.sent [[.absent cl.nick]], text)
        else
          (scramble s client text).bind fun text =>
          (shown s cl text).map fun _ => (.sent [[.message id cl.nick text.text]], text)

/-! ## What a PRIVMSG should do -/

def Answer.replies : Answer → List (List Reply)
  | .sent replies => replies
  | _ => []

/-- The messages among some lines, with their receivers. -/
def messages (replies : List Reply) : List (Nat × List UInt8) :=
  replies.filterMap fun
    | .message receiver _ text => some (receiver, text)
    | _ => none

/-- The clients that a target names. -/
def named (key : List UInt8 → κ) (s : MessageState κ) (client : IrcClient) (target : IrcTarget) :
    List Nat :=
  match ircFindNick key s.channels.irc target.nick.text with
  | some id => [id]
  | none =>
    ((ircFindChannel key s.channels.irc target.channel.text).bind s.channels.irc.channelAt).elim []
      (fun channel => channel.client.filter (· ≠ client.id))

/-- The target is a moderated channel, and the sender is not in it. -/
def Outside (key : List UInt8 → κ) (s : MessageState κ) (client : IrcClient)
    (target : IrcTarget) (channel : IrcChannel) : Prop :=
  ircFindNick key s.channels.irc target.nick.text = none ∧
    ∃ id, ircFindChannel key s.channels.irc target.channel.text = some id ∧
      s.channels.irc.channelAt id = some channel ∧
      (s.channels.settings id).flag &&& modeModerate ≠ 0 ∧ client.id ∉ channel.client

/-- What a PRIVMSG should do, and what NOTICE should do alike. -/
structure Delivered (key : List UInt8 → κ) (s : MessageState κ) (client : IrcClient)
    (paras : List (CString maxMsgLen)) (targets : List IrcTarget) : Prop where
  alone : ∃ a, ircPrivCallback key s client paras targets = some a ∧
    ∀ n target, targets[n]? = some target →
      ∃ b, ircPrivCallback key s client paras [target] = some b ∧
        messages (a.1.replies.getD n []) = messages (b.1.replies.getD 0 [])
  addressed : ∀ a, ircPrivCallback key s client paras targets = some a →
    ∀ n target, targets[n]? = some target →
      ∀ m ∈ messages (a.1.replies.getD n []), m.1 ∈ named key s client target
  refused : ∀ target ∈ targets, ∀ channel, Outside key s client target channel →
    ∃ a, ircPrivCallback key s client paras [target] = some a ∧
      messages (a.1.replies.getD 0 []) = [] ∧
      (2 ≤ paras.length → textOf paras ≠ [] →
        .cannotSend channel.name ∈ a.1.replies.getD 0 [])
  notice : ∀ target, targets = [target] →
    (ircFindNick key s.channels.irc target.nick.text).isSome →
      ∃ a b, ircPrivCallback key s client paras targets = some a ∧
        ircNoteCallback key s client paras targets = some b ∧
        messages (a.1.replies.getD 0 []) = messages (b.1.replies.getD 0 [])

end Serveez.Irc.Messages
