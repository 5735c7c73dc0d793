import Serveez.Irc.Entries

/-!
# The roll of clients

Which clients are on the server, and which of them are registered. An event brings one client, takes
one away, or registers one; all other events leave the roll as it is (`ircStep_roll`).

* `rollChange`: what an event does to the roll.
* `tally_step`: the clients of which something is known, after an event.
-/

set_option linter.unusedSectionVars false

namespace Serveez.Irc

open Lib

variable {κ : Type} [DecidableEq κ] {key : List UInt8 → κ} {s s' : IrcState κ} {cfg : IrcConfig}

def IrcClient.ticket (c : IrcClient) : Nat × Bool := (c.id, c.registered)

def IrcState.roll (s : IrcState κ) : List (Nat × Bool) := s.live.map IrcClient.ticket

inductive RollChange
  | same
  | comes (id : Nat)
  | goes (id : Nat)
  | enrolls (id : Nat)

def RollChange.apply (roll : List (Nat × Bool)) : RollChange → List (Nat × Bool)
  | .same => roll
  | .comes id => (id, false) :: roll
  | .goes id => removeKey Prod.fst id roll
  | .enrolls id => modifyKey Prod.fst id (fun p => (p.1, true)) roll

/-- The client of a connection goes. -/
def clientGoes (s : IrcState κ) (sock : Nat) : RollChange :=
  match s.clientOf sock with
  | some c => .goes c.id
  | none => .same

/-- What an event does to the roll. -/
def rollChange (cfg : IrcConfig) (s : IrcState κ) : IrcEvent → RollChange
  | .connect _ addr => .comes addr
  | .idle sock valid =>
    match s.clientOf sock with
    | some c =>
      if c.registered = false ∧ c.flag.registered = true ∧ valid = true then .enrolls c.id
      else .same
    | none => .same
  | .request sock .quit => clientGoes s sock
  | .request sock (.pass (some password)) =>
    if cfg.pass.all (· password) then .same else clientGoes s sock
  | .disconnect sock => clientGoes s sock
  | _ => .same

theorem SameClients.roll (h : SameClients s s') : s'.roll = s.roll := by
  have hticket (l : List IrcClient) :
      l.map IrcClient.ticket = (l.map IrcClient.plain).map IrcClient.ticket := by
    rw [List.map_map]
    rfl
  unfold IrcState.roll
  rw [hticket, hticket s.live, h.live]

theorem roll_setClient {id : Nat} {f : IrcClient → IrcClient} (hf : ∀ c, (f c).ticket = c.ticket) :
    (s.setClient id f).roll = s.roll := map_modifyKey hf

theorem roll_delete (c : IrcClient) :
    (ircDeleteClient key s c).roll = removeKey Prod.fst c.id s.roll := by
  unfold IrcState.roll ircDeleteClient removeKey
  dsimp only
  rw [List.filter_map]
  rfl

theorem roll_leave {c : IrcClient} (hleave : ircLeaveAllChannels key s c = some s') :
    s'.roll = removeKey Prod.fst c.id s.roll := by
  obtain ⟨s₁, c₁, hwithin, hc₁, rfl⟩ := (within_composes 0).leaveAllChannels hleave
  rw [← hwithin.same.roll, ← (clientAt_mem hc₁).2]
  have hdelete : (ircDeleteClient key s₁ c₁).roll = removeKey Prod.fst c₁.id s₁.roll :=
    roll_delete c₁
  exact hdelete

theorem ircNickCallback_roll {c : IrcClient} {nick : Option (List UInt8)}
    (hnick : ircNickCallback key s c nick = some s') : s'.roll = s.roll := by
  rcases ircNickCallback_cases hnick with rfl | ⟨text, clients, -, -, rfl, -⟩
  · rfl
  · exact map_modifyKey (fun _ => rfl)

theorem ircRegisterClient_roll (c : IrcClient) (valid : Bool) :
    (ircRegisterClient key s c valid).roll =
      if c.flag.registered = true ∧ valid = true then
        modifyKey Prod.fst c.id (fun p => (p.1, true)) s.roll else s.roll := by
  unfold ircRegisterClient
  split_ifs with hvalid
  · have hlive : (ircAddClient key s c).live = s.live := by
      unfold ircAddClient
      split
      · rfl
      · split <;> rfl
    unfold IrcState.roll IrcState.setClient modifyKey
    dsimp only
    rw [hlive, List.map_map, List.map_map]
    apply List.map_congr_left
    intro a _
    simp only [Function.comp_apply]
    split_ifs with hid hid' hid'
    · rfl
    · exact absurd hid hid'
    · exact absurd hid' hid
    · rfl
  · rfl

theorem ircHandleRequest_roll {sock : Nat} {c : IrcClient} {request : IrcRequest}
    (hc : s.clientOf sock = some c)
    (hhandle : ircHandleRequest cfg key s c request = some s') :
    s'.roll = (rollChange cfg s (.request sock request)).apply s.roll := by
  have hrules : Composes cfg.channelsPerUser key (Within key) := within_composes _
  have hgoes : clientGoes s sock = .goes c.id := by
    unfold clientGoes
    rw [hc]
  cases request with
  | quit =>
    rw [rollChange, hgoes]
    exact roll_leave hhandle
  | pass password =>
    obtain rfl := Option.some.inj hhandle
    cases password with
    | none => rfl
    | some password =>
      rw [rollChange, hgoes]
      unfold ircPassCallback
      dsimp only
      split
      · exact roll_setClient (fun _ => rfl)
      · exact roll_delete c
  | nick nick => exact ircNickCallback_roll hhandle
  | user enough =>
    obtain rfl := Option.some.inj hhandle
    unfold ircUserCallback
    split
    · rfl
    · exact roll_setClient (fun _ => rfl)
  | join targets => exact (hrules.joinCallback hhandle).same.roll
  | part targets => exact (hrules.partCallback hhandle).same.roll
  | kick targets => exact (hrules.kickCallback hhandle).same.roll
  | mode channel changes => exact (hrules.modeCallback hhandle).same.roll
  | other =>
    obtain rfl := Option.some.inj hhandle
    rfl

theorem authDone_roll {sock : Nat} {f : UMode → UMode} (hdone : authDone s sock f = some s') :
    s'.roll = s.roll := by
  unfold authDone at hdone
  split at hdone
  · obtain rfl := Option.some.inj hdone
    rfl
  · obtain ⟨c, -, rfl⟩ := Option.map_eq_some_iff.mp hdone
    exact roll_setClient (fun _ => rfl)

theorem ircStep_roll {event : IrcEvent} (hstep : ircStep cfg key s event = some s') :
    s'.roll = (rollChange cfg s event).apply s.roll := by
  cases event with
  | connect sock addr =>
    unfold ircStep at hstep
    dsimp only at hstep
    split_ifs at hstep
    obtain rfl := Option.some.inj hstep
    rfl
  | identDone sock =>
    unfold ircStep at hstep
    exact authDone_roll hstep
  | rdnsDone sock =>
    unfold ircStep at hstep
    exact authDone_roll hstep
  | idle sock valid =>
    obtain ⟨c, hc, rfl⟩ := Option.map_eq_some_iff.mp hstep
    rw [rollChange, hc]
    dsimp only
    cases hregistered : c.registered with
    | true => rfl
    | false =>
      rw [if_neg Bool.false_ne_true, ircRegisterClient_roll]
      simp only [true_and]
      split <;> rfl
  | request sock request =>
    obtain ⟨c, hc, hhandle⟩ := Option.bind_eq_some_iff.mp hstep
    exact ircHandleRequest_roll hc hhandle
  | disconnect sock =>
    unfold ircStep ircDisconnect at hstep
    dsimp only at hstep
    rw [rollChange, clientGoes, IrcState.clientOf]
    split at hstep
    · exact absurd hstep.symm (Option.some_ne_none _)
    · next hdata =>
      obtain rfl := Option.some.inj hstep
      rw [hdata]
      rfl
    · next id hdata =>
      obtain ⟨c, hc, hstep⟩ := Option.bind_eq_some_iff.mp hstep
      obtain ⟨s₁, hs₁, rfl⟩ := Option.map_eq_some_iff.mp hstep
      rw [hdata]
      dsimp only
      rw [hc]
      have hroll : s₁.roll = removeKey Prod.fst c.id s.roll := roll_leave hs₁
      exact hroll

theorem Entered.roll (h : Entered key s) : Keyed Prod.fst s.roll := by
  have hlive := h.live
  unfold Keyed at hlive
  unfold Keyed IrcState.roll
  rwa [List.map_map]

theorem clientGoes_cases (s : IrcState κ) (sock : Nat) :
    clientGoes s sock = .same ∨ ∃ c, s.clientOf sock = some c ∧ clientGoes s sock = .goes c.id := by
  unfold clientGoes
  cases hc : s.clientOf sock with
  | none => exact Or.inl rfl
  | some c => exact Or.inr ⟨c, rfl, rfl⟩

theorem rollChange_cases (cfg : IrcConfig) (s : IrcState κ) (event : IrcEvent) :
    rollChange cfg s event = .same ∨
      (∃ sock addr, event = .connect sock addr ∧ rollChange cfg s event = .comes addr) ∨
      (∃ sock c, s.clientOf sock = some c ∧ rollChange cfg s event = .goes c.id) ∨
      ∃ sock valid c, event = .idle sock valid ∧ s.clientOf sock = some c ∧
        rollChange cfg s event = .enrolls c.id := by
  have hgoes {sock : Nat} (h : rollChange cfg s event = clientGoes s sock) :
      rollChange cfg s event = .same ∨
        ∃ sock c, s.clientOf sock = some c ∧ rollChange cfg s event = .goes c.id := by
    rw [h]
    exact (clientGoes_cases s sock).imp_right fun hleaves => ⟨sock, hleaves⟩
  cases event with
  | connect sock addr => exact Or.inr (Or.inl ⟨sock, addr, rfl, rfl⟩)
  | identDone sock => exact Or.inl rfl
  | rdnsDone sock => exact Or.inl rfl
  | idle sock valid =>
    rw [rollChange]
    cases hc : s.clientOf sock with
    | none => exact Or.inl rfl
    | some c =>
      dsimp only
      split_ifs
      · exact Or.inr (Or.inr (Or.inr ⟨sock, valid, c, rfl, hc, rfl⟩))
      · exact Or.inl rfl
  | disconnect sock => exact (hgoes rfl).imp_right fun h => Or.inr (Or.inl h)
  | request sock request =>
    cases request with
    | quit => exact (hgoes rfl).imp_right fun h => Or.inr (Or.inl h)
    | pass password =>
      cases password with
      | none => exact Or.inl rfl
      | some password =>
        by_cases hpass : cfg.pass.all (· password) = true
        · exact Or.inl (if_pos hpass)
        · exact (hgoes (if_neg hpass)).imp_right fun h => Or.inr (Or.inl h)
    | _ => exact Or.inl rfl

/-- A client that comes was not there. -/
theorem connect_fresh {sock addr : Nat} (hstep : ircStep cfg key s (.connect sock addr) = some s') :
    findKey Prod.fst addr s.roll = none := by
  unfold ircStep at hstep
  dsimp only at hstep
  split_ifs at hstep with hused
  have hnone := Option.not_isSome_iff_eq_none.mp (not_or.mp hused).2
  refine findKey_none.mpr (fun p hp hid => ?_)
  obtain ⟨c, hc, rfl⟩ := List.mem_map.mp hp
  exact findKey_none.mp hnone c hc hid

theorem mem_roll {c : IrcClient} (hc : c ∈ s.live) : (c.id, c.registered) ∈ s.roll :=
  List.mem_map_of_mem hc

theorem Entered.findKey_roll (h : Entered key s) {sock : Nat} {c : IrcClient}
    (hc : s.clientOf sock = some c) :
    findKey Prod.fst c.id s.roll = some (c.id, c.registered) :=
  findKey_of_mem h.roll (mem_roll (clientOf_mem hc).1) rfl

/-! ## Counting clients -/

/-- What is known of a client, which is not known of a new client at the same address. -/
def IrcEvent.forgets {α : Type} (event : IrcEvent) (f : Nat → α) (a : α) : Nat → α :=
  match event with
  | .connect _ addr => Function.update f addr a
  | _ => f

theorem forgets_cases {α : Type} (event : IrcEvent) (f : Nat → α) (a : α) (id : Nat) :
    event.forgets f a id = a ∨ event.forgets f a id = f id := by
  unfold IrcEvent.forgets
  split
  · next sock addr =>
    by_cases hid : id = addr
    · exact Or.inl (hid ▸ Function.update_self _ _ _)
    · exact Or.inr (Function.update_of_ne hid _ _)
  · exact Or.inr rfl

theorem forgets_map {α β : Type} (event : IrcEvent) (f : Nat → α) (a : α) (g : α → β) :
    (fun id => g (event.forgets f a id)) = event.forgets (fun id => g (f id)) (g a) := by
  unfold IrcEvent.forgets
  split
  · next sock addr =>
    funext id
    by_cases hid : id = addr
    · rw [hid, Function.update_self, Function.update_self]
    · rw [Function.update_of_ne hid, Function.update_of_ne hid]
  · rfl

/-- The clients on the server of which something is known. -/
def IrcState.tally (s : IrcState κ) (e : Nat → Bool) : Nat := s.live.countP (fun c => e c.id)

theorem tally_roll (s : IrcState κ) (e : Nat → Bool) :
    s.tally e = s.roll.countP (fun p => e p.1) := by
  unfold IrcState.tally IrcState.roll
  rw [List.countP_map]
  rfl

theorem tally_of_one (h : Entered key s) {sock : Nat} {c : IrcClient}
    (hc : s.clientOf sock = some c) (e e' : Nat → Bool) (hothers : ∀ id, id ≠ c.id → e' id = e id) :
    s.tally e' + (if e c.id then 1 else 0) = s.tally e + (if e' c.id then 1 else 0) := by
  have hfind := h.findKey_roll hc
  have hsame : (removeKey Prod.fst c.id s.roll).countP (fun p => e' p.1) =
      (removeKey Prod.fst c.id s.roll).countP (fun p => e p.1) := by
    apply List.countP_congr
    intro p hp
    rw [hothers p.1 (mem_removeKey.mp hp).2]
  have hold := countP_removeKey (fun p => e p.1) h.roll hfind
  have hnew := countP_removeKey (fun p => e' p.1) h.roll hfind
  rw [tally_roll, tally_roll]
  dsimp only at hold hnew
  omega

/-- Who is registered does not matter. -/
theorem tally_of_ids {s s' : IrcState κ} (h : s'.roll.map Prod.fst = s.roll.map Prod.fst)
    (e : Nat → Bool) : s'.tally e = s.tally e := by
  have hids (l : List (Nat × Bool)) : l.countP (fun p => e p.1) = (l.map Prod.fst).countP e := by
    rw [List.countP_map]
    rfl
  rw [tally_roll, tally_roll, hids, hids, h]

theorem tally_step (h : Entered key s) {event : IrcEvent}
    (hstep : ircStep cfg key s event = some s') (e : Nat → Bool) :
    (∀ id, rollChange cfg s event = .goes id → e id = false) ∧
        s'.tally (event.forgets e false) = s.tally e ∨
      (∃ id, rollChange cfg s event = .goes id ∧ e id = true) ∧
        s'.tally (event.forgets e false) + 1 = s.tally e := by
  have hroll := ircStep_roll hstep
  have hkept (hconnect : ∀ sock addr, event ≠ .connect sock addr) :
      event.forgets e false = e := by
    unfold IrcEvent.forgets
    split
    · exact absurd rfl (hconnect _ _)
    · rfl
  rcases rollChange_cases cfg s event with hsame | ⟨sock, addr, rfl, hcomes⟩ |
    ⟨sock, c, hc, hgoes⟩ | ⟨sock, valid, c, rfl, hc, henrolls⟩
  · rw [hsame] at hroll
    have hconnect : ∀ sock addr, event ≠ .connect sock addr := by
      rintro sock addr rfl
      exact RollChange.noConfusion hsame
    refine Or.inl ⟨fun id hgoes => ?_, ?_⟩
    · rw [hsame] at hgoes
      exact RollChange.noConfusion hgoes
    · rw [hkept hconnect]
      exact tally_of_ids (congrArg _ hroll) e
  · refine Or.inl ⟨fun id hgoes => RollChange.noConfusion (hcomes.symm.trans hgoes), ?_⟩
    have hroll' : s'.roll = (addr, false) :: s.roll := hroll
    rw [tally_roll, tally_roll, hroll', List.countP_cons]
    show List.countP (fun p => Function.update e addr false p.1) s.roll +
      (if Function.update e addr false addr then 1 else 0) = _
    rw [Function.update_self, if_neg Bool.false_ne_true, Nat.add_zero]
    apply List.countP_congr
    intro p hp
    rw [Function.update_of_ne (findKey_none.mp (connect_fresh hstep) p hp)]
  · rw [hgoes] at hroll
    have hconnect : ∀ sock addr, event ≠ .connect sock addr := by
      rintro sock addr rfl
      exact RollChange.noConfusion hgoes
    have hcount := countP_removeKey (fun p => e p.1) h.roll (h.findKey_roll hc)
    have hroll' : s'.roll = removeKey Prod.fst c.id s.roll := hroll
    rw [hkept hconnect, tally_roll, tally_roll, hroll']
    cases hknown : e c.id with
    | false =>
      refine Or.inl ⟨fun id hid => ?_, ?_⟩
      · rw [hgoes] at hid
        exact RollChange.goes.inj hid ▸ hknown
      · simpa [hknown] using hcount
    | true =>
      refine Or.inr ⟨⟨c.id, hgoes, hknown⟩, ?_⟩
      simpa [hknown] using hcount
  · rw [henrolls] at hroll
    refine Or.inl ⟨fun id hgoes => RollChange.noConfusion (henrolls.symm.trans hgoes), ?_⟩
    refine tally_of_ids ?_ e
    rw [hroll]
    exact map_modifyKey (fun _ => rfl)

end Serveez.Irc
