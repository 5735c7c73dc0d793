import Serveez.Irc.Request

/-!
# Which command a request is

`irc_handle_request` looks for the first entry of a table whose name begins with the word that the
client has sent, so a part of a name is the command too, and so is the empty word.

* `ircHandleRequest_eq`: what is done for a line.
* `dispatched_iff`: which lines run the right callback whatever the order of the table.
-/

namespace Serveez.Irc.Dispatch

open Lib Request
open Messages (maxNameLen)

/-- The entries of `irc_callback`, each with its own callback. -/
inductive Command
  | oper | info | kill | error | whowas | admin | time | lusers | stats | ping | pong | version
  | kick | away | who | whois | motd | invite | list | names | notice | topic | mode | privmsg
  | userhost | ison | users | part | quit | join | pass | user | nick
  deriving DecidableEq

def ascii (text : String) : List UInt8 := text.toList.map (fun c => c.toNat.toUInt8)

def Command.request : Command → List UInt8
  | .oper => ascii "OPER"
  | .info => ascii "INFO"
  | .kill => ascii "KILL"
  | .error => ascii "ERROR"
  | .whowas => ascii "WHOWAS"
  | .admin => ascii "ADMIN"
  | .time => ascii "TIME"
  | .lusers => ascii "LUSERS"
  | .stats => ascii "STATS"
  | .ping => ascii "PING"
  | .pong => ascii "PONG"
  | .version => ascii "VERSION"
  | .kick => ascii "KICK"
  | .away => ascii "AWAY"
  | .who => ascii "WHO"
  | .whois => ascii "WHOIS"
  | .motd => ascii "MOTD"
  | .invite => ascii "INVITE"
  | .list => ascii "LIST"
  | .names => ascii "NAMES"
  | .notice => ascii "NOTICE"
  | .topic => ascii "TOPIC"
  | .mode => ascii "MODE"
  | .privmsg => ascii "PRIVMSG"
  | .userhost => ascii "USERHOST"
  | .ison => ascii "ISON"
  | .users => ascii "USERS"
  | .part => ascii "PART"
  | .quit => ascii "QUIT"
  | .join => ascii "JOIN"
  | .pass => ascii "PASS"
  | .user => ascii "USER"
  | .nick => ascii "NICK"

/-- `irc_callback` -/
def ircCallback : List Command :=
  [.oper, .info, .kill, .error, .whowas, .admin, .time, .lusers, .stats, .ping, .pong, .version,
    .kick, .away, .who, .whois, .motd, .invite, .list, .names, .notice, .topic, .mode, .privmsg,
    .userhost, .ison, .users, .part, .quit, .join, .pass, .user, .nick]

def lower (c : UInt8) : UInt8 := if 65 ≤ c ∧ c ≤ 90 then c + 32 else c

/-- `!strncasecmp (name, word, strlen (word))` -/
def Begins (word name : List UInt8) : Prop := word.map lower <+: name.map lower

instance (word name : List UInt8) : Decidable (Begins word name) :=
  inferInstanceAs (Decidable (_ <+: _))

/-- A callback is run, or the command is unknown. -/
inductive Handled
  | ran (command : Command)
  | unknown (word : List UInt8)

/-- `irc_handle_request` with a table, for a connection of a client. -/
def ircHandleRequest (table : List Command) (line : List UInt8) : Option Handled :=
  (ircParseRequest line).bind fun r =>
  (cText r.request).map fun word =>
    match table.find? (fun entry => Begins word entry.request) with
    | some entry => .ran entry
    | none => .unknown word

/-! ## What should be done -/

/-- The word that a line begins with, behind its origin. -/
def wordOf (line : List UInt8) : List UInt8 := stringOf 0 (commandOf line)

/-- Two words are the same up to case. -/
def Same (word name : List UInt8) : Prop := word.map lower = name.map lower

/-- For every order of the table: the callback of an entry is run exactly if the word is its name,
and otherwise the command is unknown. -/
def Dispatched (line : List UInt8) : Prop :=
  ∀ table : List Command, table.Perm ircCallback →
    ∃ handled, ircHandleRequest table line = some handled ∧
      (∀ entry ∈ table, handled = .ran entry ↔ Same (wordOf line) entry.request) ∧
      ((∀ entry ∈ table, ¬ Same (wordOf line) entry.request) → handled = .unknown (wordOf line))

/-- The line is parsed, the command ends in its array, and is not a part of a name. -/
structure Meets (line : List UInt8) : Prop where
  room : LineMeets HasRoom line
  fits : Fits 0 maxNameLen (commandOf line)
  whole : ∀ entry ∈ ircCallback, Begins (wordOf line) entry.request →
    Same (wordOf line) entry.request

/-! ## The table -/

variable {line : List UInt8} {table : List Command} {handled : Handled}

theorem mem_ircCallback (entry : Command) : entry ∈ ircCallback := by
  cases entry <;> decide

/-- No two entries have the same name. -/
theorem nodup_requests : (ircCallback.map fun entry => entry.request.map lower).Nodup := by
  decide +kernel

theorem same_unique {entry other : Command} (h : Same entry.request other.request) :
    entry = other :=
  List.inj_on_of_nodup_map nodup_requests (mem_ircCallback entry) (mem_ircCallback other) h

theorem ircHandleRequest_eq : ircHandleRequest table line = some handled ↔
    (LineMeets HasRoom line ∧ Fits 0 maxNameLen (commandOf line)) ∧
      handled = match table.find? (fun entry => Begins (wordOf line) entry.request) with
        | some entry => .ran entry
        | none => .unknown (wordOf line) := by
  constructor
  · intro h
    obtain ⟨r, hparse, h⟩ := Option.bind_eq_some_iff.mp h
    obtain ⟨word, hword, rfl⟩ := Option.map_eq_some_iff.mp h
    obtain ⟨hmeets, rfl⟩ := ircParseRequest_iff.mp hparse
    obtain ⟨hfits, rfl⟩ := (cText_field hmeets.command).mp hword
    exact ⟨⟨hmeets, hfits⟩, rfl⟩
  · rintro ⟨⟨hmeets, hfits⟩, rfl⟩
    refine Option.bind_eq_some_iff.mpr ⟨_, ircParseRequest_iff.mpr ⟨hmeets, rfl⟩, ?_⟩
    exact Option.map_eq_some_iff.mpr ⟨_, (cText_field hmeets.command).mpr ⟨hfits, rfl⟩, rfl⟩

/-- A word that begins the first name of a table runs its callback. -/
theorem whole_of_dispatched (h : Dispatched line) (entry : Command)
    (hbegins : Begins (wordOf line) entry.request) : Same (wordOf line) entry.request := by
  obtain ⟨handled, hhandled, hran, -⟩ :=
    h (entry :: ircCallback.erase entry) (List.perm_cons_erase (mem_ircCallback entry)).symm
  have heq := (ircHandleRequest_eq.mp hhandled).2
  have hfirst : (entry :: ircCallback.erase entry).find?
      (fun entry => Begins (wordOf line) entry.request) = some entry :=
    List.find?_cons_of_pos (decide_eq_true hbegins)
  rw [hfirst] at heq
  exact (hran entry List.mem_cons_self).mp heq

/-- A line runs the right callback in every order of the table exactly if it is parsed and its
command is not a part of a name. -/
theorem dispatched_iff (line : List UInt8) : Dispatched line ↔ Meets line := by
  constructor
  · intro h
    obtain ⟨handled, hhandled, -⟩ := h ircCallback (List.Perm.refl _)
    obtain ⟨⟨hroom, hfits⟩, -⟩ := ircHandleRequest_eq.mp hhandled
    exact ⟨hroom, hfits, fun entry _ hbegins => whole_of_dispatched h entry hbegins⟩
  · intro h table hperm
    refine ⟨_, ircHandleRequest_eq.mpr ⟨⟨h.room, h.fits⟩, rfl⟩, ?_⟩
    have hsame (entry : Command) : Begins (wordOf line) entry.request ↔
        Same (wordOf line) entry.request := by
      refine ⟨h.whole entry (mem_ircCallback entry), fun hequal => ?_⟩
      exact ⟨[], (List.append_nil _).trans hequal⟩
    cases hfind : table.find? (fun entry => Begins (wordOf line) entry.request) with
    | some found =>
      have htest := List.find?_some hfind
      have hfound := (hsame found).mp (of_decide_eq_true htest)
      refine ⟨fun entry _ => ?_, fun hnone => ?_⟩
      · constructor
        · intro hran
          rw [← Handled.ran.inj hran]
          exact hfound
        · intro hentry
          rw [same_unique (hfound.symm.trans hentry)]
      · exact absurd hfound (hnone found (List.mem_of_find?_eq_some hfind))
    | none =>
      have hnone := List.find?_eq_none.mp hfind
      refine ⟨fun entry hentry => ?_, fun _ => rfl⟩
      refine iff_of_false (fun hran => Handled.noConfusion hran) (fun hentrySame => ?_)
      exact hnone entry hentry (decide_eq_true ((hsame entry).mpr hentrySame))

/-- WHO runs the callback of WHOWAS. -/
theorem who_not_dispatched : ¬ ∀ line, Dispatched line := by
  intro hall
  obtain ⟨handled, hhandled, hran, -⟩ := hall (ascii "WHO") ircCallback (List.Perm.refl _)
  have heq := (ircHandleRequest_eq.mp hhandled).2
  have hwhowas : ircCallback.find? (fun entry => Begins (wordOf (ascii "WHO")) entry.request) =
      some .whowas := by
    decide +kernel
  rw [hwhowas] at heq
  have hsame := (hran .whowas (mem_ircCallback _)).mp heq
  have hnot : ¬ Same (wordOf (ascii "WHO")) (Command.request .whowas) := by
    unfold Same
    decide +kernel
  exact hnot hsame

end Serveez.Irc.Dispatch
