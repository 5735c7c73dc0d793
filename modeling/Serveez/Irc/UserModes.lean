import Serveez.Irc.ConfigLines
import Serveez.Irc.Roll

/-!
# User modes and their counters

The modes that a client has, and the counters `operators` and `invisibles` of the configuration. A
successful OPER counts an operator that may be one already, MODE takes the operator mode away
without counting down, and a client that goes is not counted down.

`opered` is a history: the clients whose OPER has been successful.

* `modeLoop_spec`: what MODE does to the modes and counters.
* `counters_iff`: all states have the right counters exactly if only clients without the mode become
  operators, no operator takes the mode from itself, and no operator or invisible client goes.
-/

set_option linter.unusedSectionVars false

namespace Serveez.Irc

open Lib

/-! ## Operators -/

structure IrcOper where
  user : Option (List UInt8)
  host : Option (List UInt8)
  password : Option (List UInt8)
  nick : Option (List UInt8)
  cls : Nat

/-- An O line, or an o line with an `O`. -/
def parseOLine (line : List UInt8) : Option IrcOper :=
  match ircParseLine [.char 79, .char 58, .string, .char 58, .string, .char 58, .string, .char 58,
    .char 58, .decimal] line with
  | [.string atHost, .string password, .string nick, .decimal cls] =>
    some
      { user := svzStrdup (parseTillAt atHost).1
        host := svzStrdup (parseTillAt atHost).2
        password := svzStrdup password
        nick := svzStrdup nick
        cls := cls }
  | _ => none

/-- `irc_oper_valid`; the comparisons end at the first that fails. -/
def ircOperValid (agree : List UInt8 → List UInt8 → Bool) (data : ClientData)
    (nick : Option (List UInt8)) : List IrcOper → Option Bool
  | [] => some false
  | oper :: opers =>
    (matchesPtr data.user oper.user).bind fun user =>
    (if user then matchesPtr data.host oper.host else some false).bind fun host =>
    (if host then matchesPtr nick oper.nick else some false).bind fun nick' =>
    (if nick' then
      data.pass.bind fun pass => oper.password.map fun password => agree pass password
      else some false).bind fun valid =>
    if valid then some true else ircOperValid agree data nick opers

/-! ## States and steps -/

inductive UserFlag
  | invisible
  | server
  | wallop
  | operator
  deriving DecidableEq

structure ModeConfig where
  irc : IrcConfig
  agree : List UInt8 → List UInt8 → Bool
  opers : List IrcOper

structure ModeState (κ : Type) where
  irc : IrcState κ
  operators : Int
  invisibles : Int
  modes : Nat → UserFlag → Bool
  opered : Nat → Bool

/-- OPER with the fields of the client, MODE for a nick, and the other events. -/
inductive ModeEvent
  | oper (sock : Nat) (data : ClientData) (user password : List UInt8)
  | mode (sock : Nat) (nick : List UInt8) (changes : List UInt8)
  | other (event : IrcEvent)

variable {κ : Type} [DecidableEq κ]

def ModeState.setMode (s : ModeState κ) (client : Nat) (flag : UserFlag) (set : Bool) :
    ModeState κ :=
  { s with
    modes := Function.update s.modes client (Function.update (s.modes client) flag set) }

/-- `irc_user_flag` -/
def ircUserFlag (s : ModeState κ) (client : Nat) (flag : UserFlag) (set : Bool) : ModeState κ :=
  if set then
    let s :=
      if flag = .invisible ∧ s.modes client .invisible = false then
        { s with invisibles := s.invisibles + 1 }
      else s
    if flag = .operator then s else s.setMode client flag true
  else
    let s :=
      if flag = .invisible ∧ s.modes client .invisible = true then
        { s with invisibles := s.invisibles - 1 }
      else s
    s.setMode client flag false

/-- The mode of a character. -/
def userFlag (c : UInt8) : Option UserFlag :=
  if c = 105 then some .invisible
  else if c = 115 then some .server
  else if c = 119 then some .wallop
  else if c = 111 then some .operator
  else none

/-- The loop of `irc_mode_callback` over the modes of a client. -/
def modeLoop (client : Nat) : Bool → List UInt8 → ModeState κ → ModeState κ
  | _, [], s => s
  | set, c :: req, s =>
    if c = 43 then modeLoop client true req s
    else if c = 45 then modeLoop client false req s
    else
      match userFlag c with
      | some flag => modeLoop client set req (ircUserFlag s client flag set)
      | none => modeLoop client set req s

/-- `irc_oper_callback`, with two parameters. The password is copied into the one of PASS. -/
def ircOperCallback (cfg : ModeConfig) (s : ModeState κ) (client : IrcClient) (data : ClientData)
    (user password : List UInt8) : Option (ModeState κ) :=
  data.pass.bind fun _ =>
  data.user.bind fun ident =>
  let data := { data with pass := some password, user := some (if ident = [] then user else ident) }
  (ircOperValid cfg.agree data client.nick cfg.opers).map fun valid =>
    if valid then
      { s.setMode client.id .operator true with
        operators := s.operators + 1
        opered := Function.update s.opered client.id true }
    else s

def modeStep (cfg : ModeConfig) (key : List UInt8 → κ) (s : ModeState κ) :
    ModeEvent → Option (ModeState κ)
  | .oper sock data user password =>
    (s.irc.clientOf sock).bind fun client => ircOperCallback cfg s client data user password
  | .mode sock nick changes =>
    (s.irc.clientOf sock).map fun client =>
      if (ircFindChannel key s.irc nick).isSome then s
      else if ircFindNick key s.irc nick = some client.id then
        modeLoop client.id true changes s
      else s
  | .other event =>
    (ircStep cfg.irc key s.irc event).map fun irc =>
      { s with
        irc := irc
        modes := event.forgets s.modes (fun _ => false)
        opered := event.forgets s.opered false }

def startModes : ModeState κ := ⟨startIrc, 0, 0, fun _ _ => false, fun _ => false⟩

/-- The state after the events, if they can happen. -/
def modeRun (cfg : ModeConfig) (key : List UInt8 → κ) (events : List ModeEvent) :
    Option (ModeState κ) :=
  events.foldl (fun s event => s.bind (fun s => modeStep cfg key s event)) (some startModes)

/-- The counters are right, and the operators have become so by OPER. -/
structure Counters (s : ModeState κ) : Prop where
  operators : s.operators = s.irc.tally (s.modes · .operator)
  invisibles : s.invisibles = s.irc.tally (s.modes · .invisible)
  opered : ∀ id, s.modes id .operator = true → s.opered id = true

/-- Whether the modes of a MODE take the operator mode away. -/
def deops : Bool → List UInt8 → Bool
  | _, [] => false
  | set, c :: req =>
    if c = 43 then deops true req
    else if c = 45 then deops false req
    else !set && c = 111 || deops set req

/-- A successful OPER is not one of an operator, no operator takes the mode from itself, and no
operator or invisible client goes. -/
def KeepsCounters (cfg : ModeConfig) (key : List UInt8 → κ) (s : ModeState κ) : ModeEvent → Prop
  | .oper sock data user password =>
    ∀ c, s.irc.clientOf sock = some c → s.modes c.id .operator = true →
      ∀ ident ∈ data.user, ircOperValid cfg.agree
        { data with pass := some password, user := some (if ident = [] then user else ident) }
        c.nick cfg.opers ≠ some true
  | .mode sock nick changes =>
    ∀ c, s.irc.clientOf sock = some c → s.modes c.id .operator = true →
      ircFindChannel key s.irc nick = none → ircFindNick key s.irc nick = some c.id →
        deops true changes = false
  | .other event =>
    ∀ id, rollChange cfg.irc s.irc event = .goes id →
      s.modes id .operator = false ∧ s.modes id .invisible = false

/-! ## MODE -/

variable {cfg : ModeConfig} {key : List UInt8 → κ} {s s' s'' : ModeState κ} {client : Nat}

/-- A client that changes its own modes, and is counted as invisible or not. -/
structure OwnModes (client : Nat) (s s' : ModeState κ) : Prop where
  irc : s'.irc = s.irc
  operators : s'.operators = s.operators
  opered : s'.opered = s.opered
  others : ∀ id, id ≠ client → s'.modes id = s.modes id
  invisibles : s'.invisibles + (if s.modes client .invisible then 1 else 0) =
    s.invisibles + (if s'.modes client .invisible then 1 else 0)

theorem OwnModes.refl (client : Nat) (s : ModeState κ) : OwnModes client s s :=
  ⟨rfl, rfl, rfl, fun _ _ => rfl, rfl⟩

theorem OwnModes.trans (h : OwnModes client s s') (h' : OwnModes client s' s'') :
    OwnModes client s s'' := by
  refine ⟨h'.irc.trans h.irc, h'.operators.trans h.operators, h'.opered.trans h.opered,
    fun id hne => (h'.others id hne).trans (h.others id hne), ?_⟩
  have hfirst := h.invisibles
  have hsecond := h'.invisibles
  omega

theorem ircUserFlag_own (s : ModeState κ) (client : Nat) (flag : UserFlag) (set : Bool) :
    OwnModes client s (ircUserFlag s client flag set) := by
  have hothers (s : ModeState κ) (set : Bool) (id : Nat) (hne : id ≠ client) :
      (s.setMode client flag set).modes id = s.modes id := Function.update_of_ne hne _ _
  unfold ircUserFlag
  cases set with
  | true =>
    rw [if_pos rfl]
    cases flag with
    | operator => exact OwnModes.refl client s
    | _ =>
      refine ⟨by split <;> rfl, by split <;> rfl, by split <;> rfl, ?_, ?_⟩
      · intro id hne
        split <;> exact hothers _ true id hne
      · cases hold : s.modes client .invisible <;> simp [hold, ModeState.setMode]
  | false =>
    rw [if_neg Bool.false_ne_true]
    cases flag with
    | _ =>
      refine ⟨by split <;> rfl, by split <;> rfl, by split <;> rfl, ?_, ?_⟩
      · intro id hne
        split <;> exact hothers _ false id hne
      · cases hold : s.modes client .invisible <;> simp [hold, ModeState.setMode]

theorem ircUserFlag_operator (s : ModeState κ) (client : Nat) (flag : UserFlag) (set : Bool) :
    (ircUserFlag s client flag set).modes client .operator =
      (s.modes client .operator && !(!set && decide (flag = .operator))) := by
  unfold ircUserFlag
  cases set <;> cases flag <;> simp [ModeState.setMode] <;> split <;> simp

theorem userFlag_operator {c : UInt8} {flag : UserFlag} (h : userFlag c = some flag) :
    decide (flag = .operator) = decide (c = 111) := by
  unfold userFlag at h
  split_ifs at h with hi hs hw ho <;> obtain rfl := Option.some.inj h
  · rw [hi]; rfl
  · rw [hs]; rfl
  · rw [hw]; rfl
  · rw [ho]; rfl

theorem modeLoop_spec (client : Nat) (req : List UInt8) (set : Bool) (s : ModeState κ) :
    OwnModes client s (modeLoop client set req s) ∧
      (modeLoop client set req s).modes client .operator =
        (s.modes client .operator && !deops set req) := by
  induction req generalizing set s with
  | nil => exact ⟨OwnModes.refl client s, by simp [modeLoop, deops]⟩
  | cons c req ih =>
    rw [modeLoop, deops]
    split_ifs with hplus hminus
    · exact ih true s
    · exact ih false s
    · cases hflag : userFlag c with
      | none =>
        have hnot : c ≠ 111 := by
          rintro rfl
          exact absurd hflag (by decide)
        simpa [hnot] using ih set s
      | some flag =>
        obtain ⟨hown, hoperator⟩ := ih set (ircUserFlag s client flag set)
        refine ⟨(ircUserFlag_own s client flag set).trans hown, ?_⟩
        rw [hoperator, ircUserFlag_operator, userFlag_operator hflag, Bool.not_or, Bool.and_assoc]

/-! ## Steps -/

/-- What OPER does: nothing, or a client becomes an operator. -/
theorem modeStep_oper {sock : Nat} {data : ClientData} {user password : List UInt8}
    (h : modeStep cfg key s (.oper sock data user password) = some s') :
    ∃ c valid, s.irc.clientOf sock = some c ∧
      (∃ ident ∈ data.user, ircOperValid cfg.agree
        { data with pass := some password, user := some (if ident = [] then user else ident) }
        c.nick cfg.opers = some valid) ∧
      s' = if valid then
          { s.setMode c.id .operator true with
            operators := s.operators + 1
            opered := Function.update s.opered c.id true }
        else s := by
  obtain ⟨c, hc, h⟩ := Option.bind_eq_some_iff.mp h
  obtain ⟨pass, -, h⟩ := Option.bind_eq_some_iff.mp h
  obtain ⟨ident, hident, h⟩ := Option.bind_eq_some_iff.mp h
  obtain ⟨valid, hvalid, rfl⟩ := Option.map_eq_some_iff.mp h
  exact ⟨c, valid, hc, ⟨ident, hident, hvalid⟩, rfl⟩

/-- What MODE does: nothing, or a client changes its own modes. -/
theorem modeStep_mode {sock : Nat} {nick changes : List UInt8}
    (h : modeStep cfg key s (.mode sock nick changes) = some s') :
    s' = s ∧ (∀ c, s.irc.clientOf sock = some c → ¬ (ircFindChannel key s.irc nick = none ∧
        ircFindNick key s.irc nick = some c.id)) ∨
      ∃ c, s.irc.clientOf sock = some c ∧ ircFindChannel key s.irc nick = none ∧
        ircFindNick key s.irc nick = some c.id ∧ OwnModes c.id s s' ∧
        s'.modes c.id .operator = (s.modes c.id .operator && !deops true changes) := by
  obtain ⟨c, hc, rfl⟩ := Option.map_eq_some_iff.mp h
  split_ifs with hchannel hnick
  · refine Or.inl ⟨rfl, fun d hd hfound => ?_⟩
    rw [hfound.1] at hchannel
    exact Bool.false_ne_true hchannel
  · obtain ⟨hown, hoperator⟩ := modeLoop_spec c.id changes true s
    exact Or.inr ⟨c, hc, Option.not_isSome_iff_eq_none.mp hchannel, hnick, hown, hoperator⟩
  · refine Or.inl ⟨rfl, fun d hd hfound => ?_⟩
    obtain rfl := Option.some.inj (hd.symm.trans hc)
    exact hnick hfound.2

theorem modeStep_other {event : IrcEvent} (h : modeStep cfg key s (.other event) = some s') :
    ircStep cfg.irc key s.irc event = some s'.irc ∧ s'.operators = s.operators ∧
      s'.invisibles = s.invisibles ∧ s'.modes = event.forgets s.modes (fun _ => false) ∧
      s'.opered = event.forgets s.opered false := by
  obtain ⟨irc, hirc, rfl⟩ := Option.map_eq_some_iff.mp h
  exact ⟨hirc, rfl, rfl, rfl, rfl⟩

theorem tally_other (h : Entered key s.irc) {event : IrcEvent}
    (hstep : modeStep cfg key s (.other event) = some s') (flag : UserFlag) :
    (∀ id, rollChange cfg.irc s.irc event = .goes id → s.modes id flag = false) ∧
        s'.irc.tally (s'.modes · flag) = s.irc.tally (s.modes · flag) ∨
      (∃ id, rollChange cfg.irc s.irc event = .goes id ∧ s.modes id flag = true) ∧
        s'.irc.tally (s'.modes · flag) + 1 = s.irc.tally (s.modes · flag) := by
  obtain ⟨hirc, -, -, hmodes, -⟩ := modeStep_other hstep
  have htally := tally_step h hirc (s.modes · flag)
  have hforgets : event.forgets (s.modes · flag) false = (s'.modes · flag) := by
    rw [hmodes]
    exact (forgets_map event s.modes (fun _ => false) (· flag)).symm
  rwa [hforgets] at htally

theorem modeStep_entered (h : Entered key s.irc) {event : ModeEvent}
    (hstep : modeStep cfg key s event = some s') : Entered key s'.irc := by
  cases event with
  | oper sock data user password =>
    obtain ⟨c, valid, -, -, rfl⟩ := modeStep_oper hstep
    cases valid <;> exact h
  | mode sock nick changes =>
    rcases modeStep_mode hstep with ⟨rfl, -⟩ | ⟨c, -, -, -, hown, -⟩
    · exact h
    · exact hown.irc ▸ h
  | other event => exact ircStep_entered h (modeStep_other hstep).1

theorem tally_setMode (h : Entered key s.irc) {sock : Nat} {c : IrcClient}
    (hc : s.irc.clientOf sock = some c) (flag : UserFlag) :
    s.irc.tally ((s.setMode c.id .operator true).modes · flag) +
        (if flag = .operator ∧ s.modes c.id .operator = true then 1 else 0) =
      s.irc.tally (s.modes · flag) + (if flag = .operator then 1 else 0) := by
  have hone := tally_of_one h hc (s.modes · flag)
    ((s.setMode c.id .operator true).modes · flag)
    (fun id hne => congrFun (Function.update_of_ne hne _ _) flag)
  have hself : (s.setMode c.id .operator true).modes c.id flag =
      Function.update (s.modes c.id) .operator true flag :=
    congrFun (Function.update_self _ _ _) flag
  rw [hself] at hone
  by_cases hflag : flag = .operator
  · rw [hflag] at hone ⊢
    rw [Function.update_self] at hone
    simpa only [true_and, if_true] using hone
  · rw [Function.update_of_ne hflag] at hone
    simp only [hflag, false_and, if_false]
    omega

theorem Counters.oper (h : Entered key s.irc) (hcounters : Counters s) {sock : Nat} {c : IrcClient}
    (hc : s.irc.clientOf sock = some c) (hnot : s.modes c.id .operator = false) :
    Counters { s.setMode c.id .operator true with
      operators := s.operators + 1
      opered := Function.update s.opered c.id true } := by
  have hoperator := tally_setMode h hc .operator
  have hinvisible := tally_setMode h hc .invisible
  have hbefore := hcounters.operators
  refine ⟨?_, ?_, ?_⟩
  · show s.operators + 1 = (s.irc.tally ((s.setMode c.id .operator true).modes · .operator) : Int)
    simp only [hnot, Bool.false_eq_true, and_false, if_true, if_false] at hoperator
    omega
  · show s.invisibles = (s.irc.tally ((s.setMode c.id .operator true).modes · .invisible) : Int)
    have hne : UserFlag.invisible ≠ .operator := by decide
    simp only [hne, false_and, if_false] at hinvisible
    rw [hcounters.invisibles]
    omega
  · intro id hid
    show Function.update s.opered c.id true id = true
    by_cases hself : id = c.id
    · rw [hself, Function.update_self]
    · rw [Function.update_of_ne hself]
      apply hcounters.opered
      have hsame := congrFun (Function.update_of_ne hself
        (Function.update (s.modes c.id) .operator true) s.modes) UserFlag.operator
      exact hsame.symm.trans hid

theorem OwnModes.tally (h : Entered key s.irc) {sock : Nat} {c : IrcClient}
    (hc : s.irc.clientOf sock = some c) (hown : OwnModes c.id s s') (flag : UserFlag) :
    s'.irc.tally (s'.modes · flag) + (if s.modes c.id flag then 1 else 0) =
      s.irc.tally (s.modes · flag) + (if s'.modes c.id flag then 1 else 0) := by
  rw [hown.irc]
  exact tally_of_one h hc (s.modes · flag) (s'.modes · flag)
    (fun id hne => congrFun (hown.others id hne) flag)

theorem counters_of_keeps (h : Entered key s.irc) (hcounters : Counters s) {event : ModeEvent}
    (hstep : modeStep cfg key s event = some s') (hkeeps : KeepsCounters cfg key s event) :
    Counters s' := by
  cases event with
  | oper sock data user password =>
    obtain ⟨c, valid, hc, ⟨ident, hident, hvalid⟩, rfl⟩ := modeStep_oper hstep
    cases valid with
    | false => exact hcounters
    | true =>
      exact hcounters.oper h hc (Bool.eq_false_iff.mpr
        (fun hoperator => hkeeps c hc hoperator ident hident hvalid))
  | mode sock nick changes =>
    rcases modeStep_mode hstep with ⟨rfl, -⟩ | ⟨c, hc, hchannel, hnick, hown, hoperator⟩
    · exact hcounters
    have hsame : s'.modes c.id .operator = s.modes c.id .operator := by
      cases hold : s.modes c.id .operator with
      | false => rw [hoperator, hold, Bool.false_and]
      | true =>
        rw [hoperator, hold, hkeeps c hc hold hchannel hnick]
        rfl
    have hoperators := hown.tally h hc .operator
    have hinvisibles := hown.tally h hc .invisible
    rw [hsame] at hoperators
    refine ⟨?_, ?_, fun id hid => ?_⟩
    · rw [hown.operators, hcounters.operators]
      omega
    · have hown' := hown.invisibles
      rw [hcounters.invisibles] at hown'
      split_ifs at hown' hinvisibles <;> omega
    · rw [hown.opered]
      by_cases hself : id = c.id
      · rw [hself, hsame] at hid
        exact hself ▸ hcounters.opered c.id hid
      · rw [hown.others id hself] at hid
        exact hcounters.opered id hid
  | other event =>
    obtain ⟨-, hoperators, hinvisibles, hmodes, hopered⟩ := modeStep_other hstep
    have hkept (flag : UserFlag)
        (hgoes : ∀ id, rollChange cfg.irc s.irc event = .goes id → s.modes id flag = false) :
        s'.irc.tally (s'.modes · flag) = s.irc.tally (s.modes · flag) := by
      rcases tally_other h hstep flag with ⟨-, hsame⟩ | ⟨⟨id, hgone, hset⟩, -⟩
      · exact hsame
      · exact absurd (hset.symm.trans (hgoes id hgone)) Bool.noConfusion
    refine ⟨?_, ?_, fun id hid => ?_⟩
    · rw [hoperators, hcounters.operators, hkept .operator (fun id hgoes => (hkeeps id hgoes).1)]
    · rw [hinvisibles, hcounters.invisibles,
        hkept .invisible (fun id hgoes => (hkeeps id hgoes).2)]
    · rw [hmodes] at hid
      rw [hopered]
      unfold IrcEvent.forgets at hid ⊢
      split at hid
      · next sock addr =>
        by_cases hself : id = addr
        · rw [hself, Function.update_self] at hid
          exact absurd hid Bool.false_ne_true
        · rw [Function.update_of_ne hself] at hid ⊢
          exact hcounters.opered id hid
      · exact hcounters.opered id hid

theorem keepsCounters_of_counters (h : Entered key s.irc) (hcounters : Counters s)
    {event : ModeEvent} (hstep : modeStep cfg key s event = some s') (hnext : Counters s') :
    KeepsCounters cfg key s event := by
  have hbefore := hcounters.operators
  have hafter := hnext.operators
  cases event with
  | oper sock data user password =>
    intro c hc hoperator ident hident hvalid
    obtain ⟨d, valid, hd, ⟨ident', hident', hvalid'⟩, rfl⟩ := modeStep_oper hstep
    obtain rfl := Option.some.inj (hc.symm.trans hd)
    obtain rfl := Option.some.inj (hident.symm.trans hident')
    obtain rfl := Option.some.inj (hvalid.symm.trans hvalid')
    have htally := tally_setMode h hc .operator
    simp only [hoperator, and_self, if_true] at htally
    have hafter' : s.operators + 1 =
        (s.irc.tally ((s.setMode c.id .operator true).modes · .operator) : Int) := hafter
    omega
  | mode sock nick changes =>
    intro c hc hoperator hchannel hnick
    rcases modeStep_mode hstep with ⟨-, hnot⟩ | ⟨d, hd, -, -, hown, hdeops⟩
    · exact absurd ⟨hchannel, hnick⟩ (hnot c hc)
    · obtain rfl := Option.some.inj (hc.symm.trans hd)
      have htally := hown.tally h hc .operator
      rw [hoperator, Bool.true_and] at hdeops
      rw [hown.operators] at hafter
      cases hset : deops true changes with
      | false => rfl
      | true =>
        rw [hset] at hdeops
        simp only [hoperator, hdeops, Bool.not_true, Bool.false_eq_true, if_true, if_false]
          at htally
        omega
  | other event =>
    obtain ⟨-, hoperators, hinvisibles, -, -⟩ := modeStep_other hstep
    have hinvisible := hcounters.invisibles
    have hinvisible' := hnext.invisibles
    refine fun id hgoes => ⟨?_, ?_⟩
    · rcases tally_other h hstep .operator with ⟨hnone, -⟩ | ⟨-, hless⟩
      · exact hnone id hgoes
      · omega
    · rcases tally_other h hstep .invisible with ⟨hnone, -⟩ | ⟨-, hless⟩
      · exact hnone id hgoes
      · omega

/-! ## Runs -/

theorem counters_start : Counters (startModes : ModeState κ) :=
  ⟨rfl, rfl, fun _ hid => absurd hid Bool.false_ne_true⟩

theorem counters_iff (cfg : ModeConfig) (key : List UInt8 → κ) (events : List ModeEvent) :
    (∀ pre, pre <+: events → ∀ s, modeRun cfg key pre = some s → Counters s) ↔
      ∀ pre event, pre ++ [event] <+: events → ∀ s s', modeRun cfg key pre = some s →
        modeStep cfg key s event = some s' → KeepsCounters cfg key s event := by
  apply forall_reached_iff (modeStep cfg key) (fun s => Entered key s.irc)
  · exact entered_start
  · exact counters_start
  · exact fun s event s' hentered hcounters hstep hnext =>
      keepsCounters_of_counters hentered hcounters hstep hnext
  · exact fun s event s' hentered hcounters hstep hkeeps =>
      ⟨modeStep_entered hentered hstep, counters_of_keeps hentered hcounters hstep hkeeps⟩

/-- A client becomes an operator twice. -/
theorem operTwice_not_counters :
    ¬ ∀ (cfg : ModeConfig) (events : List ModeEvent), ∀ pre, pre <+: events → ∀ s,
        modeRun cfg ircKey pre = some s → Counters s := by
  intro hall
  -- `O:*@*:p:*::1`
  let oLine : List UInt8 := [79, 58, 42, 64, 42, 58, 112, 58, 42, 58, 58, 49]
  let cfg : ModeConfig := ⟨⟨10, none⟩, (· == ·), (parseOLine oLine).toList⟩
  let data : ClientData := ⟨some [126, 117], some [104], some [120], [49]⟩
  let events : List ModeEvent :=
    [.other (.connect 1 1), .other (.request 1 (.nick (some [97]))),
      .other (.request 1 (.user true)), .oper 1 data [117] [112],
      .oper 1 { data with pass := some [112] } [117] [112]]
  have hrun : (modeRun cfg ircKey events).map
      (fun s => (s.operators, s.irc.tally (s.modes · .operator))) = some (2, 1) := by
    decide +kernel
  obtain ⟨s, hs, hstate⟩ := Option.map_eq_some_iff.mp hrun
  obtain ⟨hoperators, htally⟩ := Prod.mk.inj hstate
  have hcounters := (hall cfg events events (List.prefix_refl _) s hs).operators
  rw [htally, hoperators] at hcounters
  exact absurd hcounters (by decide)

end Serveez.Irc
