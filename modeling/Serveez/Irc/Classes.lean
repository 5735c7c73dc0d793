import Serveez.Irc.KLines
import Serveez.Irc.Roll

/-!
# Connection classes

How many clients have entered a connection class. `irc_check_class` counts a client before it is
known whether there is room for it, and nothing counts down when a client goes.

`entered` is a history: the class that a client has entered when it was registered.

* `ircAuthorize_counts`: what the I lines do to the classes if the client meets none that is full.
* `classes_iff`: all states have the right links exactly if no client meets a full class and no
  client goes that has entered a class.
-/

set_option linter.unusedSectionVars false

namespace Serveez.Irc

open Lib

structure AdmissionConfig where
  irc : IrcConfig
  agree : List UInt8 → List UInt8 → Bool
  debug : Bool

structure ClassState (κ : Type) where
  irc : IrcState κ
  lines : IrcLines
  entered : Nat → Option Nat

/-- `irc_idle`, with the fields of the client and the time, and the other events. -/
inductive ClassEvent
  | idle (sock : Nat) (data : ClientData) (ts : Nat)
  | other (event : IrcEvent)

variable {κ : Type} [DecidableEq κ]

def classStep (cfg : AdmissionConfig) (key : List UInt8 → κ) (s : ClassState κ) :
    ClassEvent → Option (ClassState κ)
  | .idle sock data ts =>
    (s.irc.clientOf sock).bind fun client =>
    if client.registered = true ∨ client.flag.registered = false then some s
    else
      (ircClientValid cfg.agree cfg.debug s.lines data ts).bind fun verdict =>
      (ircStep cfg.irc key s.irc (.idle sock verdict.valid)).map fun irc =>
        { irc := irc
          lines := { s.lines with classes := verdict.classes }
          entered :=
            if verdict.valid then Function.update s.entered client.id verdict.entered
            else s.entered }
  | .other (.idle _ _) => none
  | .other event =>
    (ircStep cfg.irc key s.irc event).map fun irc =>
      { s with irc := irc, entered := event.forgets s.entered none }

def startClasses (yLines iLines kLines : List (List UInt8)) : ClassState κ :=
  ⟨startIrc, ircParseConfigLines yLines iLines kLines, fun _ => none⟩

/-- The state after the events, if they can happen. -/
def classRun (cfg : AdmissionConfig) (key : List UInt8 → κ)
    (yLines iLines kLines : List (List UInt8)) (events : List ClassEvent) : Option (ClassState κ) :=
  events.foldl (fun s event => s.bind (fun s => classStep cfg key s event))
    (some (startClasses yLines iLines kLines))

/-- The clients on the server that have entered a class. -/
def ClassState.within (s : ClassState κ) (place : Nat) : Nat :=
  s.irc.tally (fun id => s.entered id = some place)

/-- The links of a class are its clients, and a class without room has as many as it may have. -/
structure Accounted (s : ClassState κ) : Prop where
  links : ∀ (place : Nat) (cls : IrcClass), s.lines.classes[place]? = some cls →
    cls.links = s.within place
  bound : ∀ (place : Nat) (cls : IrcClass), s.lines.classes[place]? = some cls →
    cls.links ≤ cls.maxLinks
  full : ∀ (place : Nat) (cls : IrcClass), s.lines.classes[place]? = some cls →
    cls.maxLinks ≤ cls.links → s.within place = cls.maxLinks

/-- The first authorization that matches the client is of a class that is full. -/
def MeetsFull (agree : List UInt8 → List UInt8 → Bool) (client : ClientData)
    (users : List IrcUser) (classes : List IrcClass) : Prop :=
  ∃ before user after, users = before ++ user :: after ∧
    (∀ other ∈ before, authorizes client other = some false) ∧
    authorizes client user = some true ∧ passes agree client user = some true ∧
    Full classes user.cls

/-- No client that is not banned meets a full class, and no client goes that has entered one. -/
def KeepsClasses (cfg : AdmissionConfig) (s : ClassState κ) : ClassEvent → Prop
  | .idle sock data ts =>
    ∀ c, s.irc.clientOf sock = some c → c.registered = false → c.flag.registered = true →
      ircClientKilled cfg.debug data ts s.lines.banned = some false →
        ¬ MeetsFull cfg.agree data s.lines.userAuth s.lines.classes
  | .other event => ∀ id, rollChange cfg.irc s.irc event = .goes id → s.entered id = none

/-! ## I lines -/

section Lines

variable {agree : List UInt8 → List UInt8 → Bool} {client : ClientData} {users : List IrcUser}
  {classes : List IrcClass} {verdict : Verdict}

theorem meetsFull_cons {user : IrcUser} :
    MeetsFull agree client (user :: users) classes ↔
      authorizes client user = some true ∧ passes agree client user = some true ∧
        Full classes user.cls ∨
      authorizes client user = some false ∧ MeetsFull agree client users classes := by
  constructor
  · rintro ⟨before, other, after, hsplit, hbefore, hmeets⟩
    cases before with
    | nil =>
      obtain ⟨rfl, -⟩ := List.cons.inj hsplit
      exact Or.inl hmeets
    | cons first before =>
      obtain ⟨rfl, hrest⟩ := List.cons.inj hsplit
      obtain ⟨hfirst, hbefore⟩ := List.forall_mem_cons.mp hbefore
      exact Or.inr ⟨hfirst, before, other, after, hrest, hbefore, hmeets⟩
  · rintro (hmeets | ⟨hfirst, before, other, after, rfl, hbefore, hmeets⟩)
    · exact ⟨[], user, users, rfl, fun _ h => absurd h List.not_mem_nil, hmeets⟩
    · exact ⟨user :: before, other, after, rfl, List.forall_mem_cons.mpr ⟨hfirst, hbefore⟩, hmeets⟩

theorem ircCheckClass_grows (nr : Nat) {place : Nat} {cls : IrcClass}
    (hcls : classes[place]? = some cls) :
    ∃ cls', (ircCheckClass classes nr).2[place]? = some cls' ∧ cls'.maxLinks = cls.maxLinks ∧
      cls.links ≤ cls'.links := by
  unfold ircCheckClass
  split
  · exact ⟨cls, hcls, rfl, Nat.le_refl _⟩
  · next i _ =>
    dsimp only
    rw [List.getElem?_modify, hcls]
    by_cases hplace : i = place
    · exact ⟨{ cls with links := cls.links + 1 }, by simp [hplace], rfl, Nat.le_succ _⟩
    · exact ⟨cls, by simp [hplace], rfl, Nat.le_refl _⟩

theorem ircAuthorize_grows (h : ircAuthorize agree client users classes = some verdict)
    {place : Nat} {cls : IrcClass} (hcls : classes[place]? = some cls) :
    ∃ cls', verdict.classes[place]? = some cls' ∧ cls'.maxLinks = cls.maxLinks ∧
      cls.links ≤ cls'.links := by
  induction users generalizing classes cls with
  | nil =>
    obtain rfl := Option.some.inj h
    exact ⟨cls, hcls, rfl, Nat.le_refl _⟩
  | cons user users ih =>
    rw [ircAuthorize] at h
    obtain ⟨matched, -, h⟩ := Option.bind_eq_some_iff.mp h
    split at h
    · exact ih h hcls
    obtain ⟨passed, -, h⟩ := Option.bind_eq_some_iff.mp h
    obtain ⟨cls₁, hcls₁, hmax₁, hle₁⟩ := ircCheckClass_grows user.cls hcls
    split_ifs at h
    · obtain rfl := Option.some.inj h
      exact ⟨cls, hcls, rfl, Nat.le_refl _⟩
    · obtain ⟨cls₂, hcls₂, hmax₂, hle₂⟩ := ih h hcls₁
      exact ⟨cls₂, hcls₂, hmax₂.trans hmax₁, Nat.le_trans hle₁ hle₂⟩
    · obtain rfl := Option.some.inj h
      exact ⟨cls₁, hcls₁, hmax₁, hle₁⟩

theorem ircCheckClass_full {nr : Nat} (hfull : Full classes nr) :
    ∃ (place : Nat) (cls : IrcClass), classes[place]? = some cls ∧ cls.maxLinks ≤ cls.links ∧
      (ircCheckClass classes nr).2[place]? = some { cls with links := cls.links + 1 } := by
  unfold Full ircCheckClass at *
  split at hfull
  · exact absurd hfull.symm Bool.false_ne_true
  · next i hfind =>
    obtain ⟨hlt, -⟩ := List.findIdx?_eq_some_iff_getElem.mp hfind
    dsimp only at hfull ⊢
    rw [List.getElem?_eq_getElem hlt] at hfull
    refine ⟨i, classes[i], List.getElem?_eq_getElem hlt, by simpa using hfull, ?_⟩
    rw [List.getElem?_modify, List.getElem?_eq_getElem hlt]
    simp

theorem exceeds_of_meetsFull (hmeets : MeetsFull agree client users classes)
    (h : ircAuthorize agree client users classes = some verdict) :
    ∃ (place : Nat) (cls : IrcClass),
      verdict.classes[place]? = some cls ∧ cls.maxLinks < cls.links := by
  induction users generalizing classes with
  | nil =>
    obtain ⟨before, user, after, hsplit, -⟩ := hmeets
    exact absurd hsplit.symm (List.append_ne_nil_of_right_ne_nil _ (List.cons_ne_nil _ _))
  | cons user users ih =>
    rw [ircAuthorize] at h
    rcases meetsFull_cons.mp hmeets with ⟨hmatched, hpassed, hfull⟩ | ⟨hnot, hmeets⟩
    · have hcheck : (ircCheckClass classes user.cls).1 = false := hfull
      rw [hmatched, Option.bind_some, if_neg (by decide), hpassed, Option.bind_some,
        if_neg (by decide), if_pos hcheck] at h
      obtain ⟨place, cls, -, hle, hcls⟩ := ircCheckClass_full hfull
      obtain ⟨cls', hcls', hmax, hlinks⟩ := ircAuthorize_grows h hcls
      refine ⟨place, cls', hcls', ?_⟩
      dsimp only at hmax hlinks
      omega
    · rw [hnot, Option.bind_some, if_pos rfl] at h
      exact ih hmeets h

theorem ircAuthorize_counts (hmeets : ¬ MeetsFull agree client users classes)
    (h : ircAuthorize agree client users classes = some verdict) :
    verdict.valid = false ∧ verdict.classes = classes ∨
      verdict.valid = true ∧ ∃ nr, ¬ Full classes nr ∧
        verdict.entered = classes.findIdx? (·.nr = nr) ∧
        verdict.classes = (ircCheckClass classes nr).2 := by
  induction users with
  | nil =>
    obtain rfl := Option.some.inj h
    exact Or.inl ⟨rfl, rfl⟩
  | cons user users ih =>
    rw [meetsFull_cons, not_or] at hmeets
    obtain ⟨hfirst, hrest⟩ := hmeets
    rw [ircAuthorize] at h
    obtain ⟨matched, hmatched, h⟩ := Option.bind_eq_some_iff.mp h
    split at h
    · next hfalse => exact ih (fun hmeets => hrest ⟨hfalse ▸ hmatched, hmeets⟩) h
    · next htrue =>
      obtain ⟨passed, hpassed, h⟩ := Option.bind_eq_some_iff.mp h
      split_ifs at h with hwrong hfull
      · obtain rfl := Option.some.inj h
        exact Or.inl ⟨rfl, rfl⟩
      · rw [Bool.not_eq_false] at htrue hwrong
        exact absurd ⟨htrue ▸ hmatched, hwrong ▸ hpassed, hfull⟩ hfirst
      · obtain rfl := Option.some.inj h
        exact Or.inr ⟨rfl, user.cls, hfull, rfl, rfl⟩

end Lines

/-! ## Steps -/

variable {cfg : AdmissionConfig} {key : List UInt8 → κ} {s s' : ClassState κ}

/-- A client that is not registered has entered no class, and the classes are there. -/
structure Admitted (key : List UInt8 → κ) (s : ClassState κ) : Prop where
  entries : Entered key s.irc
  fresh : ∀ p ∈ s.irc.roll, p.2 = false → s.entered p.1 = none
  place : ∀ p ∈ s.irc.roll, ∀ place, s.entered p.1 = some place →
    place < s.lines.classes.length

theorem length_ircCheckClass (classes : List IrcClass) (nr : Nat) :
    (ircCheckClass classes nr).2.length = classes.length := by
  unfold ircCheckClass
  split
  · rfl
  · exact List.length_modify _ _ _

variable {data : ClientData} {verdict : Verdict}

theorem length_ircAuthorize {agree : List UInt8 → List UInt8 → Bool} {client : ClientData}
    {users : List IrcUser} {classes : List IrcClass}
    (h : ircAuthorize agree client users classes = some verdict) :
    verdict.classes.length = classes.length := by
  induction users generalizing classes with
  | nil =>
    obtain rfl := Option.some.inj h
    rfl
  | cons user users ih =>
    rw [ircAuthorize] at h
    obtain ⟨matched, -, h⟩ := Option.bind_eq_some_iff.mp h
    split at h
    · exact ih h
    obtain ⟨passed, -, h⟩ := Option.bind_eq_some_iff.mp h
    split_ifs at h
    · obtain rfl := Option.some.inj h
      rfl
    · exact (ih h).trans (length_ircCheckClass _ _)
    · obtain rfl := Option.some.inj h
      exact length_ircCheckClass _ _

theorem length_ircClientValid {ts : Nat} {lines : IrcLines}
    (h : ircClientValid cfg.agree cfg.debug lines data ts = some verdict) :
    verdict.classes.length = lines.classes.length := by
  obtain ⟨killed, -, h⟩ := Option.bind_eq_some_iff.mp h
  split at h
  · obtain rfl := Option.some.inj h
    rfl
  · exact length_ircAuthorize h

theorem entered_lt {ts : Nat} {lines : IrcLines}
    (h : ircClientValid cfg.agree cfg.debug lines data ts = some verdict) {place : Nat}
    (hplace : verdict.entered = some place) : place < verdict.classes.length := by
  obtain ⟨killed, -, h⟩ := Option.bind_eq_some_iff.mp h
  split at h
  · obtain rfl := Option.some.inj h
    exact absurd hplace.symm (Option.some_ne_none place)
  · generalize lines.userAuth = users at h
    generalize lines.classes = classes at h
    induction users generalizing classes with
    | nil =>
      obtain rfl := Option.some.inj h
      exact absurd hplace.symm (Option.some_ne_none place)
    | cons user users ih =>
      rw [ircAuthorize] at h
      obtain ⟨matched, -, h⟩ := Option.bind_eq_some_iff.mp h
      split at h
      · exact ih classes h
      obtain ⟨passed, -, h⟩ := Option.bind_eq_some_iff.mp h
      split_ifs at h
      · obtain rfl := Option.some.inj h
        exact absurd hplace.symm (Option.some_ne_none place)
      · exact ih _ h
      · obtain rfl := Option.some.inj h
        obtain ⟨hlt, -⟩ := List.findIdx?_eq_some_iff_getElem.mp hplace
        rw [length_ircCheckClass]
        exact hlt

theorem Accounted.of_links
    (hlinks : ∀ (place : Nat) (cls : IrcClass), s.lines.classes[place]? = some cls →
      cls.links = s.within place ∧ cls.links ≤ cls.maxLinks) : Accounted s := by
  refine ⟨fun place cls hcls => (hlinks place cls hcls).1,
    fun place cls hcls => (hlinks place cls hcls).2, fun place cls hcls hfull => ?_⟩
  obtain ⟨hwithin, hbound⟩ := hlinks place cls hcls
  omega

theorem ircClientValid_counts {ts : Nat} {lines : IrcLines}
    (hmeets : ircClientKilled cfg.debug data ts lines.banned = some false →
      ¬ MeetsFull cfg.agree data lines.userAuth lines.classes)
    (h : ircClientValid cfg.agree cfg.debug lines data ts = some verdict) :
    verdict.valid = false ∧ verdict.classes = lines.classes ∨
      verdict.valid = true ∧ ∃ nr, ¬ Full lines.classes nr ∧
        verdict.entered = lines.classes.findIdx? (·.nr = nr) ∧
        verdict.classes = (ircCheckClass lines.classes nr).2 := by
  obtain ⟨killed, hkilled, h⟩ := Option.bind_eq_some_iff.mp h
  split at h
  · obtain rfl := Option.some.inj h
    exact Or.inl ⟨rfl, rfl⟩
  · next hnot =>
    rw [Bool.not_eq_true] at hnot
    exact ircAuthorize_counts (hmeets (hnot ▸ hkilled)) h

/-- What `irc_idle` does if it asks whether a client is valid. -/
theorem classStep_idle {sock ts : Nat} (h : classStep cfg key s (.idle sock data ts) = some s') :
    (s' = s ∧ ∀ c, s.irc.clientOf sock = some c →
        c.registered = true ∨ c.flag.registered = false) ∨
      ∃ c verdict, s.irc.clientOf sock = some c ∧ c.registered = false ∧
      c.flag.registered = true ∧
      ircClientValid cfg.agree cfg.debug s.lines data ts = some verdict ∧
      ircStep cfg.irc key s.irc (.idle sock verdict.valid) = some s'.irc ∧
      s'.lines = { s.lines with classes := verdict.classes } ∧
      s'.entered =
        if verdict.valid then Function.update s.entered c.id verdict.entered else s.entered := by
  obtain ⟨c, hc, h⟩ := Option.bind_eq_some_iff.mp h
  split at h
  · next hnot =>
    refine Or.inl ⟨(Option.some.inj h).symm, fun c' hc' => ?_⟩
    obtain rfl := Option.some.inj (hc.symm.trans hc')
    exact hnot
  · next hnot =>
    obtain ⟨hregistered, hflag⟩ := not_or.mp hnot
    obtain ⟨verdict, hverdict, h⟩ := Option.bind_eq_some_iff.mp h
    obtain ⟨irc, hirc, rfl⟩ := Option.map_eq_some_iff.mp h
    exact Or.inr ⟨c, verdict, hc, Bool.eq_false_iff.mpr hregistered,
      Bool.not_eq_false _ ▸ hflag, hverdict, hirc, rfl, rfl⟩

/-- The roll after `irc_idle` has registered a client or not. -/
theorem roll_idle {cfg : IrcConfig} {s s' : IrcState κ} {sock : Nat} {c : IrcClient} {valid : Bool}
    (hc : s.clientOf sock = some c) (hregistered : c.registered = false)
    (hflag : c.flag.registered = true)
    (hstep : ircStep cfg key s (.idle sock valid) = some s') :
    s'.roll = RollChange.apply s.roll (if valid then .enrolls c.id else .same) := by
  rw [ircStep_roll hstep, rollChange, hc]
  dsimp only
  rw [hregistered, hflag]
  simp only [true_and]

theorem Admitted.idle (h : Admitted key s) {sock ts : Nat}
    (hstep : classStep cfg key s (.idle sock data ts) = some s') : Admitted key s' := by
  rcases classStep_idle hstep with ⟨rfl, -⟩ | ⟨c, verdict, hc, hregistered, hflag, hverdict, hirc,
    hlines, hentered⟩
  · exact h
  have hroll := roll_idle hc hregistered hflag hirc
  have hlength : s'.lines.classes.length = s.lines.classes.length := by
    rw [hlines]
    exact length_ircClientValid hverdict
  cases hvalid : verdict.valid with
  | false =>
    rw [hvalid] at hroll hentered
    refine ⟨ircStep_entered h.entries hirc, fun p hp => ?_, fun p hp place hplace => ?_⟩
    · rw [hroll] at hp
      rw [hentered]
      exact h.fresh p hp
    · rw [hroll] at hp
      rw [hentered] at hplace
      rw [hlength]
      exact h.place p hp place hplace
  | true =>
    rw [hvalid] at hroll hentered
    have hfind := h.entries.findKey_roll hc
    -- the client itself, or another one that has its class from before
    have hcases : ∀ p ∈ s'.irc.roll, p = (c.id, true) ∧ s'.entered p.1 = verdict.entered ∨
        p ∈ s.irc.roll ∧ s'.entered p.1 = s.entered p.1 := by
      intro p hp
      rw [hroll] at hp
      rcases (mem_modifyKey h.entries.roll hfind).mp hp with rfl | ⟨hp, hne⟩
      · refine Or.inl ⟨rfl, ?_⟩
        rw [hentered]
        exact Function.update_self _ _ _
      · refine Or.inr ⟨hp, ?_⟩
        rw [hentered]
        exact Function.update_of_ne hne _ _
    refine ⟨ircStep_entered h.entries hirc, fun p hp hnot => ?_, fun p hp place hplace => ?_⟩
    · rcases hcases p hp with ⟨rfl, -⟩ | ⟨hp, hsame⟩
      · exact absurd hnot.symm Bool.false_ne_true
      · rw [hsame]
        exact h.fresh p hp hnot
    · rcases hcases p hp with ⟨-, hnew⟩ | ⟨hp, hsame⟩
      · rw [hnew] at hplace
        rw [hlength, ← length_ircClientValid hverdict]
        exact entered_lt hverdict hplace
      · rw [hsame] at hplace
        rw [hlength]
        exact h.place p hp place hplace

theorem Accounted.idle (h : Accounted s) (hadmitted : Admitted key s) {sock ts : Nat}
    (hkeeps : KeepsClasses cfg s (.idle sock data ts))
    (hstep : classStep cfg key s (.idle sock data ts) = some s') : Accounted s' := by
  rcases classStep_idle hstep with ⟨rfl, -⟩ | ⟨c, verdict, hc, hregistered, hflag, hverdict, hirc,
    hlines, hentered⟩
  · exact h
  have hroll := roll_idle hc hregistered hflag hirc
  have hclasses : s'.lines.classes = verdict.classes := by rw [hlines]
  have hnone : s.entered c.id = none :=
    hadmitted.fresh _ (findKey_mem (hadmitted.entries.findKey_roll hc)).1 hregistered
  have hwithin (place : Nat) : s'.within place = s.within place +
      if verdict.valid = true ∧ verdict.entered = some place then 1 else 0 := by
    have hids : s'.irc.roll.map Prod.fst = s.irc.roll.map Prod.fst := by
      rw [hroll]
      split
      · exact map_modifyKey (fun _ => rfl)
      · rfl
    unfold ClassState.within
    rw [tally_of_ids hids, hentered]
    cases verdict.valid with
    | false => simp
    | true =>
      have hone := tally_of_one hadmitted.entries hc
        (fun id => decide (s.entered id = some place))
        (fun id => decide (Function.update s.entered c.id verdict.entered id = some place))
        (fun id hne => by rw [Function.update_of_ne hne])
      simpa [hnone] using hone
  apply Accounted.of_links
  intro place cls hcls
  rw [hclasses] at hcls
  rcases ircClientValid_counts (hkeeps c hc hregistered hflag) hverdict with
    ⟨hvalid, hsame⟩ | ⟨hvalid, nr, hroom, hplace, hcheck⟩
  · rw [hsame] at hcls
    rw [hwithin, hvalid]
    simpa using ⟨h.links place cls hcls, h.bound place cls hcls⟩
  · rw [hwithin, hvalid, hplace]
    rw [hcheck] at hcls
    unfold ircCheckClass at hcls
    unfold Full ircCheckClass at hroom
    cases hnr : s.lines.classes.findIdx? (·.nr = nr) with
    | none =>
      rw [hnr] at hcls
      simpa using ⟨h.links place cls hcls, h.bound place cls hcls⟩
    | some i =>
      rw [hnr] at hcls hroom
      dsimp only at hcls hroom
      rw [List.getElem?_modify] at hcls
      obtain ⟨old, hold, hcls⟩ := Option.map_eq_some_iff.mp hcls
      have hlinks := h.links place old hold
      have hbound := h.bound place old hold
      by_cases hi : i = place
      · rw [if_pos hi] at hcls
        obtain rfl := hcls
        rw [hi, hold] at hroom
        have hlt : old.links < old.maxLinks := by simpa using hroom
        simp only [hi, true_and, if_true]
        omega
      · rw [if_neg hi] at hcls
        obtain rfl := hcls
        have hne : ¬ (some i = some place) := fun hsame => hi (Option.some.inj hsame)
        simp only [hne, and_false, if_false]
        omega

/-! ## Other events -/

theorem classStep_other {event : IrcEvent} (h : classStep cfg key s (.other event) = some s') :
    ircStep cfg.irc key s.irc event = some s'.irc ∧ s'.lines = s.lines ∧
      s'.entered = event.forgets s.entered none ∧ ∀ sock valid, event ≠ .idle sock valid := by
  cases event with
  | idle sock valid => exact absurd h.symm (Option.some_ne_none _)
  | _ =>
    obtain ⟨irc, hirc, rfl⟩ := Option.map_eq_some_iff.mp h
    exact ⟨hirc, rfl, rfl, fun _ _ hidle => IrcEvent.noConfusion hidle⟩

theorem Admitted.other (h : Admitted key s) {event : IrcEvent}
    (hstep : classStep cfg key s (.other event) = some s') : Admitted key s' := by
  obtain ⟨hirc, hlines, hentered, hidle⟩ := classStep_other hstep
  -- a client is new and has no class, or it was there
  have hcases : ∀ p ∈ s'.irc.roll, s'.entered p.1 = none ∨
      p ∈ s.irc.roll ∧ s'.entered p.1 = s.entered p.1 := by
    intro p hp
    rw [ircStep_roll hirc] at hp
    rw [hentered]
    rcases rollChange_cases cfg.irc s.irc event with hsame | ⟨sock, addr, rfl, hcomes⟩ |
      ⟨sock, c, hc, hgoes⟩ | ⟨sock, valid, c, rfl, -⟩
    · rw [hsame] at hp
      exact forgets_cases event s.entered none p.1 |>.imp_right (fun hkept => ⟨hp, hkept⟩)
    · rw [hcomes] at hp
      rcases List.mem_cons.mp hp with rfl | hp
      · exact Or.inl (Function.update_self _ _ _)
      · exact forgets_cases _ s.entered none p.1 |>.imp_right (fun hkept => ⟨hp, hkept⟩)
    · rw [hgoes] at hp
      exact forgets_cases event s.entered none p.1 |>.imp_right
        (fun hkept => ⟨(mem_removeKey.mp hp).1, hkept⟩)
    · exact absurd rfl (hidle sock valid)
  refine ⟨ircStep_entered h.entries hirc, fun p hp hnot => ?_, fun p hp place hplace => ?_⟩
  · rcases hcases p hp with hnone | ⟨hp, hsame⟩
    · exact hnone
    · rw [hsame]
      exact h.fresh p hp hnot
  · rcases hcases p hp with hnone | ⟨hp, hsame⟩
    · rw [hnone] at hplace
      exact absurd hplace.symm (Option.some_ne_none place)
    · rw [hlines]
      exact h.place p hp place (hsame ▸ hplace)

/-- The clients of a class after an event that is not `irc_idle`. -/
theorem within_other (h : Admitted key s) {event : IrcEvent}
    (hstep : classStep cfg key s (.other event) = some s') (place : Nat) :
    (∀ id, rollChange cfg.irc s.irc event = .goes id → s.entered id ≠ some place) ∧
        s'.within place = s.within place ∨
      (∃ id, rollChange cfg.irc s.irc event = .goes id ∧ s.entered id = some place) ∧
        s'.within place + 1 = s.within place := by
  obtain ⟨hirc, -, hentered, -⟩ := classStep_other hstep
  have htally := tally_step h.entries hirc (fun id => decide (s.entered id = some place))
  have hforgets : event.forgets (fun id => decide (s.entered id = some place)) false =
      fun id => decide (s'.entered id = some place) := by
    rw [hentered]
    exact (forgets_map event s.entered none (fun cls => decide (cls = some place))).symm
  rw [hforgets] at htally
  simp only [decide_eq_false_iff_not, decide_eq_true_eq] at htally
  exact htally

/-! ## Runs -/

theorem admitted_start (yLines iLines kLines : List (List UInt8)) :
    Admitted key (startClasses yLines iLines kLines : ClassState κ) :=
  ⟨entered_start, fun _ hp => absurd hp List.not_mem_nil, fun _ hp => absurd hp List.not_mem_nil⟩

theorem accounted_start (yLines iLines kLines : List (List UInt8)) :
    Accounted (startClasses yLines iLines kLines : ClassState κ) := by
  apply Accounted.of_links
  intro place cls hcls
  have hmem := List.mem_of_getElem? hcls
  -- a class begins without links
  obtain ⟨line, -, hparse⟩ := List.mem_filterMap.mp (List.mem_reverse.mp hmem)
  have hlinks : cls.links = 0 := by
    unfold parseYLine at hparse
    split at hparse
    · obtain rfl := Option.some.inj hparse
      rfl
    · exact absurd hparse.symm (Option.some_ne_none cls)
  rw [hlinks]
  exact ⟨rfl, Nat.zero_le _⟩

theorem keepsClasses_step (h : Admitted key s) (hacc : Accounted s) {event : ClassEvent}
    (hstep : classStep cfg key s event = some s') (hkeeps : KeepsClasses cfg s event) :
    Admitted key s' ∧ Accounted s' := by
  cases event with
  | idle sock data ts => exact ⟨h.idle hstep, hacc.idle h hkeeps hstep⟩
  | other event =>
    refine ⟨h.other hstep, Accounted.of_links ?_⟩
    obtain ⟨-, hlines, -⟩ := classStep_other hstep
    intro place cls hcls
    rw [hlines] at hcls
    rcases within_other h hstep place with ⟨-, hsame⟩ | ⟨⟨id, hgoes, hplace⟩, -⟩
    · rw [hsame]
      exact ⟨hacc.links place cls hcls, hacc.bound place cls hcls⟩
    · rw [hkeeps id hgoes] at hplace
      exact absurd hplace.symm (Option.some_ne_none place)

theorem keepsClasses_of_accounted (h : Admitted key s) (hacc : Accounted s) {event : ClassEvent}
    (hstep : classStep cfg key s event = some s') (hnext : Accounted s') :
    KeepsClasses cfg s event := by
  cases event with
  | idle sock data ts =>
    intro c hc hregistered hflag hkilled hmeets
    rcases classStep_idle hstep with ⟨-, hnot⟩ | ⟨-, verdict, -, -, -, hverdict, -, hlines, -⟩
    · rcases hnot c hc with htrue | hfalse
      · exact Bool.false_ne_true (hregistered.symm.trans htrue)
      · exact Bool.false_ne_true (hfalse.symm.trans hflag)
    · unfold ircClientValid at hverdict
      rw [hkilled, Option.bind_some, if_neg Bool.false_ne_true] at hverdict
      obtain ⟨place, cls, hcls, hlt⟩ := exceeds_of_meetsFull hmeets hverdict
      have hbound := hnext.bound place cls (by rw [hlines]; exact hcls)
      omega
  | other event =>
    intro id hgoes
    by_contra hsome
    obtain ⟨place, hplace⟩ := Option.ne_none_iff_exists'.mp hsome
    obtain ⟨-, hlines, -⟩ := classStep_other hstep
    -- the client was on the roll with its class
    rcases within_other h hstep place with ⟨hnot, -⟩ | ⟨-, hless⟩
    · exact hnot id hgoes hplace
    · have hlt : place < s.lines.classes.length := by
        rcases rollChange_cases cfg.irc s.irc event with hsame | ⟨sock, addr, -, hcomes⟩ |
          ⟨sock, c, hc, hleaves⟩ | ⟨sock, valid, c, -, -, henrolls⟩
        · rw [hsame] at hgoes
          exact RollChange.noConfusion hgoes
        · rw [hcomes] at hgoes
          exact RollChange.noConfusion hgoes
        · obtain rfl := RollChange.goes.inj (hleaves.symm.trans hgoes)
          exact h.place _ (findKey_mem (h.entries.findKey_roll hc)).1 place hplace
        · rw [henrolls] at hgoes
          exact RollChange.noConfusion hgoes
      have hcls := List.getElem?_eq_getElem hlt
      have hlinks := hacc.links place _ hcls
      have hlinks' := hnext.links place _ (by rw [hlines]; exact hcls)
      omega

end Serveez.Irc
