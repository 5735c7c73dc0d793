import Serveez.Irc.State

/-!
# Configuration lines and the clients they admit

The Y, I and K lines of the configuration are parsed into connection classes, authorizations and
banned users, and `irc_client_valid` decides with them whether a client may be registered. A string
that is empty becomes `NULL`; a function that reads through `NULL`, or the table outside, has no
result. `debug` says whether the program was built with `ENABLE_DEBUG`.

* `regexLoop_fuel`: the matching ends.
-/

namespace Serveez.Irc

/-! ## Patterns -/

/-- The text from the last place of the character that it begins with. -/
def lastPlace (text : List UInt8) : List UInt8 :=
  (text.tails.filter (fun t => t ≠ [] ∧ lcset (t.headD 0) = lcset (text.headD 0))).getLastD []

/-- The text from the first place of a character on. -/
def firstPlace (c : UInt8) (text : List UInt8) : List UInt8 :=
  text.dropWhile (fun d => lcset c ≠ lcset d)

/-- What is left of the text and of the pattern at a wildcard or at the end of one of them, unless
they differ before. -/
def plainPart : List UInt8 → List UInt8 → Option (List UInt8 × List UInt8)
  | [], regex => some ([], regex)
  | text, [] => some (text, [])
  | c :: text, r :: regex =>
    if r = 42 ∨ r = 63 then some (c :: text, r :: regex)
    else if lcset c ≠ lcset r then none
    else plainPart text regex

/-- The loop of `irc_string_regex`; each round takes a character from the pattern. -/
def regexLoop : Nat → List UInt8 → List UInt8 → Bool
  | 0, _, _ => false
  | rounds + 1, text, regex =>
    if text = [] ∨ regex = [] then text = [] ∧ regex = []
    else
      match plainPart text regex with
      | none => false
      | some (text, []) => text = []
      | some (text, r :: regex) =>
        if r = 63 then
          match text with
          | [] => false
          | _ :: text => regexLoop rounds text regex
        else if r = 42 then
          let rest := regex.dropWhile (· = 63)
          regexLoop rounds (lastPlace (firstPlace (rest.headD 0) text)) rest
        else false

/-- `irc_string_regex` -/
def ircStringRegex (text regex : List UInt8) : Bool := regexLoop (regex.length + 1) text regex

/-! ## Reads of the table -/

/-- What the comparison of `plainPart` reads the table with. -/
def plainReads : List UInt8 → List UInt8 → List UInt8
  | c :: text, r :: regex =>
    if r = 42 ∨ r = 63 then []
    else if lcset c ≠ lcset r then [c, r]
    else c :: r :: plainReads text regex
  | _, _ => []

/-- What the search for the first place of a character reads the table with. -/
def firstReads (r : UInt8) : List UInt8 → List UInt8
  | [] => []
  | c :: text => if lcset r ≠ lcset c then r :: c :: firstReads r text else [r, c]

/-- What the search for the last place reads the table with, from the end of the text on. -/
def lastReads : List UInt8 → List UInt8
  | [] => []
  | c :: text => c :: 0 :: (lastPlace (c :: text)).reverse

/-- What the loop of `irc_string_regex` reads the table with, until it reads outside. -/
def regexReads : Nat → List UInt8 → List UInt8 → List UInt8
  | 0, _, _ => []
  | rounds + 1, text, regex =>
    if text = [] ∨ regex = [] then []
    else
      plainReads text regex ++
        match plainPart text regex with
        | none => []
        | some (_, []) => []
        | some (text, r :: regex) =>
          if r = 63 then
            match text with
            | [] => []
            | _ :: text => regexReads rounds text regex
          else if r = 42 then
            let rest := regex.dropWhile (· = 63)
            let first := firstPlace (rest.headD 0) text
            firstReads (rest.headD 0) text ++ lastReads first ++
              regexReads rounds (lastPlace first) rest
          else []

def ircStringReads (text regex : List UInt8) : List UInt8 :=
  regexReads (regex.length + 1) text regex

/-! ## The end of the matching -/

theorem plainPart_length {text regex text' regex' : List UInt8}
    (h : plainPart text regex = some (text', regex')) : regex'.length ≤ regex.length := by
  induction text generalizing regex with
  | nil =>
    rw [plainPart] at h
    obtain ⟨-, rfl⟩ := Prod.mk.inj (Option.some.inj h)
    exact Nat.le_refl _
  | cons c text ih =>
    cases regex with
    | nil =>
      rw [plainPart] at h
      · obtain ⟨-, rfl⟩ := Prod.mk.inj (Option.some.inj h)
        exact Nat.le_refl _
      · exact List.cons_ne_nil c text
    | cons r regex =>
      rw [plainPart] at h
      split_ifs at h
      · obtain ⟨-, rfl⟩ := Prod.mk.inj (Option.some.inj h)
        exact Nat.le_refl _
      · exact Nat.le_succ_of_le (ih h)

theorem regexLoop_eq {n m : Nat} {text regex : List UInt8} (hn : regex.length < n)
    (hm : regex.length < m) : regexLoop n text regex = regexLoop m text regex := by
  induction n generalizing m text regex with
  | zero => exact absurd hn (Nat.not_lt_zero _)
  | succ n ih =>
    cases m with
    | zero => exact absurd hm (Nat.not_lt_zero _)
    | succ m =>
      rw [regexLoop, regexLoop]
      by_cases hend : text = [] ∨ regex = []
      · rw [if_pos hend, if_pos hend]
      rw [if_neg hend, if_neg hend]
      cases hplain : plainPart text regex with
      | none => rfl
      | some rest =>
        obtain ⟨text', regex'⟩ := rest
        have hlength := plainPart_length hplain
        cases regex' with
        | nil => rfl
        | cons r regex' =>
          rw [List.length_cons] at hlength
          have hdrop := (List.dropWhile_sublist (l := regex') (· = 63)).length_le
          dsimp only
          split_ifs
          · cases text' with
            | nil => rfl
            | cons c text' => exact ih (by omega) (by omega)
          · exact ih (by omega) (by omega)
          · rfl

/-- The pattern gets shorter with each round, so the rounds are enough. -/
theorem regexLoop_fuel {n : Nat} {text regex : List UInt8} (h : regex.length < n) :
    regexLoop n text regex = ircStringRegex text regex :=
  regexLoop_eq h (Nat.lt_succ_self _)

/-! ## Lines -/

/-- A format has characters, decimals and strings. -/
inductive FormatItem
  | char (c : UInt8)
  | decimal
  | string

inductive LineArg
  | decimal (value : Nat)
  | string (text : List UInt8)
  deriving DecidableEq

def isDigit (c : UInt8) : Bool := 48 ≤ c && c ≤ 57

/-- The character that ends a string: the next one of the format. -/
def stopAt : List FormatItem → UInt8
  | .char c :: _ => c
  | _ => 0

/-- `irc_parse_line`, with buffers of `MAX_TMP_STRLEN` bytes. Behind an argument one character is
skipped, whatever it is. -/
def ircParseLine : List FormatItem → List UInt8 → List LineArg
  | [], _ => []
  | _ :: _, [] => []
  | .char f :: format, c :: line => if f = c then ircParseLine format line else []
  | [.decimal], line =>
    [.decimal ((line.takeWhile isDigit).foldl (fun n c => 10 * n + (c.toNat - 48)) 0)]
  | .decimal :: _ :: format, line =>
    .decimal ((line.takeWhile isDigit).foldl (fun n c => 10 * n + (c.toNat - 48)) 0) ::
      ircParseLine format ((line.dropWhile isDigit).drop 1)
  | [.string], line => [.string ((line.take 255).takeWhile (· ≠ 0))]
  | .string :: next :: format, line =>
    let text := (line.take 255).takeWhile (· ≠ stopAt (next :: format))
    .string text :: ircParseLine format (line.drop (text.length + 1))

/-- `svz_strdup` -/
def svzStrdup (text : List UInt8) : Option (List UInt8) := if text = [] then none else some text

structure IrcClass where
  nr : Nat
  pingFreq : Nat
  connectFreq : Nat
  maxLinks : Nat
  links : Nat
  sendqSize : Nat

structure IrcUser where
  userIp : Option (List UInt8)
  ip : Option (List UInt8)
  userHost : Option (List UInt8)
  host : Option (List UInt8)
  password : Option (List UInt8)
  cls : Nat

structure IrcKill where
  user : Option (List UInt8)
  host : Option (List UInt8)
  start : Nat
  stop : Nat

/-- `PARSE_TILL_AT` -/
def parseTillAt (text : List UInt8) : List UInt8 × List UInt8 :=
  (text.takeWhile (· ≠ 64), (text.dropWhile (· ≠ 64)).drop 1)

def parseYLine (line : List UInt8) : Option IrcClass :=
  match ircParseLine [.char 89, .char 58, .decimal, .char 58, .decimal, .char 58, .decimal,
    .char 58, .decimal, .char 58, .decimal] line with
  | [.decimal nr, .decimal pingFreq, .decimal connectFreq, .decimal maxLinks,
      .decimal sendqSize] => some ⟨nr, pingFreq, connectFreq, maxLinks, 0, sendqSize⟩
  | _ => none

def parseILine (line : List UInt8) : Option IrcUser :=
  match ircParseLine [.char 73, .char 58, .string, .char 58, .string, .char 58, .string,
    .char 58, .string, .char 58, .decimal] line with
  | [.string atIp, .string word, .string atHost, .string word', .decimal cls] =>
    some
      { userIp := svzStrdup (parseTillAt atIp).1
        ip := svzStrdup (parseTillAt atIp).2
        userHost := svzStrdup (parseTillAt atHost).1
        host := svzStrdup (parseTillAt atHost).2
        password := (svzStrdup word).or (svzStrdup word')
        cls := cls }
  | _ => none

/-- The format begins with an `O`. -/
def parseKLine (line : List UInt8) : Option IrcKill :=
  match ircParseLine [.char 79, .char 58, .string, .char 58, .decimal, .char 45, .decimal,
    .char 58, .string] line with
  | [.string host, .decimal start, .decimal stop, .string user] =>
    some ⟨svzStrdup user, svzStrdup host, start, stop⟩
  | _ => none

/-- What the server has of its lines to decide about clients. -/
structure IrcLines where
  classes : List IrcClass
  userAuth : List IrcUser
  banned : List IrcKill

/-- `irc_parse_config_lines`, for the Y, I and K lines. -/
def ircParseConfigLines (yLines iLines kLines : List (List UInt8)) : IrcLines where
  classes := (yLines.filterMap parseYLine).reverse
  userAuth := (iLines.filterMap parseILine).reverse
  banned := (kLines.filterMap parseKLine).reverse

/-! ## Clients -/

/-- The fields of a client that are compared, and the address of its connection. -/
structure ClientData where
  user : Option (List UInt8)
  host : Option (List UInt8)
  pass : Option (List UInt8)
  addr : List UInt8

instance (l : List UInt8) : Decidable (∀ c ∈ l, InTable c) := List.decidableBAll _ l

/-- `irc_string_regex` reads both strings, and the table with their characters. -/
def matchesPtr (text regex : Option (List UInt8)) : Option Bool :=
  text.bind fun text => regex.bind fun regex =>
    if ∀ c ∈ ircStringReads text regex, InTable c then some (ircStringRegex text regex) else none

/-- `irc_check_class`: whether one more client may enter, with the classes afterwards. -/
def ircCheckClass (classes : List IrcClass) (nr : Nat) : Bool × List IrcClass :=
  match classes.findIdx? (·.nr = nr) with
  | none => (true, classes)
  | some i =>
    ((classes[i]?).any (fun c => c.links < c.maxLinks),
      classes.modify i (fun c => { c with links := c.links + 1 }))

/-- The time stamp of `irc_client_killed`. -/
def timeStamp (hour min : Nat) : Nat := (hour + 1) * 100 + min

/-- `irc_client_killed` -/
def ircClientKilled (debug : Bool) (client : ClientData) (ts : Nat) : List IrcKill → Option Bool
  | [] => some false
  | kill :: banned =>
    (matchesPtr client.user kill.user).bind fun user =>
    if user = false then ircClientKilled debug client ts banned
    else
      (matchesPtr client.host kill.host).bind fun host =>
      if host = true ∧ kill.start ≤ ts ∧ ts ≤ kill.stop ∧ debug = true then some true
      else ircClientKilled debug client ts banned

/-- The comparison of a client with an authorization. -/
def authorizes (client : ClientData) (user : IrcUser) : Option Bool :=
  (matchesPtr client.user user.userIp).bind fun userIp =>
  (if userIp then matchesPtr (some client.addr) user.ip else some false).bind fun byIp =>
  if byIp then some true
  else
    (matchesPtr client.user user.userHost).bind fun userHost =>
    if userHost then matchesPtr client.host user.host else some false

/-- The password of an authorization; `agree` compares as `crypt` or `strcmp` does. -/
def passes (agree : List UInt8 → List UInt8 → Bool) (client : ClientData) (user : IrcUser) :
    Option Bool :=
  match user.password with
  | none => some true
  | some password => client.pass.map (agree · password)

/-- What `irc_client_valid` decides, the place of the class that a valid client has entered, and the
classes afterwards. -/
structure Verdict where
  valid : Bool
  entered : Option Nat
  classes : List IrcClass

/-- The loop of `irc_client_valid` over the authorizations. -/
def ircAuthorize (agree : List UInt8 → List UInt8 → Bool) (client : ClientData) :
    List IrcUser → List IrcClass → Option Verdict
  | [], classes => some ⟨false, none, classes⟩
  | user :: users, classes =>
    (authorizes client user).bind fun matched =>
    if matched = false then ircAuthorize agree client users classes
    else
      (passes agree client user).bind fun passed =>
      if passed = false then some ⟨false, none, classes⟩
      else if (ircCheckClass classes user.cls).1 = false then
        ircAuthorize agree client users (ircCheckClass classes user.cls).2
      else
        some ⟨true, classes.findIdx? (·.nr = user.cls), (ircCheckClass classes user.cls).2⟩

/-- `irc_client_valid` -/
def ircClientValid (agree : List UInt8 → List UInt8 → Bool) (debug : Bool) (cfg : IrcLines)
    (client : ClientData) (ts : Nat) : Option Verdict :=
  (ircClientKilled debug client ts cfg.banned).bind fun killed =>
  if killed then some ⟨false, none, cfg.classes⟩
  else ircAuthorize agree client cfg.userAuth cfg.classes

end Serveez.Irc
