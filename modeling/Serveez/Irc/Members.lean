import Serveez.Irc.Tidy

/-!
# Clients that are in a channel

Only a client that sends JOIN comes into a channel. A new client can be in one all the same: the
list of a channel may have the address of a client that a wrong password has deleted, and memory
that is free is given away again.

* `Parting.step` with `members_parting`: the members after an event without JOIN.
* `ircStep_barred`: clients that are not registered stay out of the channels (`Barred`), unless such
  an address is given to one.
-/

set_option linter.unusedSectionVars false

namespace Serveez.Irc

open Lib

variable {κ : Type} [DecidableEq κ] {key : List UInt8 → κ} {s s' s'' : IrcState κ} {limit : Int}
  {cfg : IrcConfig}

/-- The clients that the channels list. -/
def IrcState.members (s : IrcState κ) : List Nat := s.rooms.flatMap IrcChannel.client

theorem mem_members {id : Nat} : id ∈ s.members ↔ ∃ ch ∈ s.rooms, id ∈ ch.client :=
  List.mem_flatMap

theorem members_of_rooms (h : s'.rooms = s.rooms) : s'.members ⊆ s.members := by
  unfold IrcState.members
  rw [h]
  exact List.Subset.refl _

theorem members_modify {id : Nat} {f : IrcChannel → IrcChannel} (extra : List Nat)
    (hf : ∀ ch, (f ch).client ⊆ extra ++ ch.client)
    (hrooms : s'.rooms = modifyKey IrcChannel.id id f s.rooms) :
    s'.members ⊆ extra ++ s.members := by
  intro a ha
  obtain ⟨ch', hch', ha⟩ := mem_members.mp ha
  rw [hrooms] at hch'
  obtain ⟨ch, hch, rfl⟩ := List.mem_map.mp hch'
  have hkept : a ∈ ch.client → a ∈ extra ++ s.members :=
    fun hin => List.mem_append_right _ (mem_members.mpr ⟨ch, hch, hin⟩)
  split at ha
  · rcases List.mem_append.mp (hf ch ha) with hnew | hin
    · exact List.mem_append_left _ hnew
    · exact hkept hin
  · exact hkept ha

/-! ## Leaving and joining -/

theorem ircDeleteChannel_members {channel : Nat}
    (hdelete : ircDeleteChannel key s channel = some s') : s'.members ⊆ s.members := by
  unfold ircDeleteChannel at hdelete
  obtain ⟨ch, -, hdelete⟩ := Option.bind_eq_some_iff.mp hdelete
  split_ifs at hdelete <;> obtain rfl := Option.some.inj hdelete
  · intro a ha
    obtain ⟨room, hroom, ha⟩ := mem_members.mp ha
    exact mem_members.mpr ⟨room, (mem_removeKey.mp hroom).1, ha⟩
  · exact List.Subset.refl _

theorem members_leaving : Leaving key (fun s s' : IrcState κ => s'.members ⊆ s.members) where
  refl s := List.Subset.refl s.members
  trans h h' := List.Subset.trans h' h
  channel _ _ n := members_modify [] (fun ch => swapRemove_subset ch.client n) rfl
  client _ _ _ := members_of_rooms rfl
  delete := ircDeleteChannel_members

theorem ircClientFlag_members {channel : Nat} {cflag : UInt32} {change : ModeChange}
    (hflag : ircClientFlag s channel cflag change = some s') : s'.members ⊆ s.members := by
  obtain ⟨-, f, hrooms⟩ := ircClientFlag_cases hflag
  refine members_modify [] ?_ hrooms
  exact fun ch => List.Subset.refl ch.client

theorem members_parting : Parting key (fun s s' : IrcState κ => s'.members ⊆ s.members) :=
  { refl := fun s => List.Subset.refl s.members
    trans := fun h h' => List.Subset.trans h' h
    leave := members_leaving.leaveChannel
    flag := ircClientFlag_members }

theorem ircJoinChannel_members {client addr : Nat} {chan : List UInt8}
    (hjoin : ircJoinChannel limit key s client chan addr = some s') :
    s'.members ⊆ client :: s.members := by
  rcases ircJoinChannel_cases hjoin with rfl | ⟨c, ch, rfl, -, -, -, -, -, hrooms⟩ |
    ⟨c, rfl, -, -, -, -, hrooms, -⟩
  · exact List.subset_cons_self _ _
  · refine members_modify [c.id] (fun ch a ha => ?_) hrooms
    rcases List.mem_append.mp ha with hin | hnew
    · exact List.mem_append_right _ hin
    · exact List.mem_append_left _ hnew
  · unfold IrcState.members
    rw [hrooms]
    exact List.Subset.refl _

theorem ircJoinChannel_full (hlimit : limit ≤ 0) {client addr : Nat} {chan : List UInt8}
    (hjoin : ircJoinChannel limit key s client chan addr = some s') : s' = s := by
  unfold ircJoinChannel at hjoin
  obtain ⟨c, -, hjoin⟩ := Option.bind_eq_some_iff.mp hjoin
  have hfull : limit ≤ (c.channel.length : Int) := Int.le_trans hlimit (Int.natCast_nonneg _)
  split at hjoin
  · obtain ⟨ch, -, hjoin⟩ := Option.bind_eq_some_iff.mp hjoin
    split_ifs at hjoin
    · exact (Option.some.inj hjoin).symm
    · exact (Option.some.inj hjoin).symm
  · rw [if_pos hfull] at hjoin
    exact (Option.some.inj hjoin).symm

/-! ## Nicks -/

/-- The flag of a nick comes with the nick. -/
def Nicked (s : IrcState κ) : Prop := ∀ c ∈ s.live, c.flag.nick = true → c.nick.isSome = true

theorem Nicked.of_same (h : Nicked s) (hsame : SameClients s s') : Nicked s' := by
  intro c hc
  have hplain : c.plain ∈ s.live.map IrcClient.plain := hsame.live ▸ List.mem_map_of_mem hc
  obtain ⟨a, ha, hown⟩ := List.mem_map.mp hplain
  have hnick : a.plain.nick = c.plain.nick := congrArg IrcClient.nick hown
  have hflag : a.plain.flag = c.plain.flag := congrArg IrcClient.flag hown
  rw [show c.nick = a.nick from hnick.symm, show c.flag = a.flag from hflag.symm]
  exact h a ha

theorem Nicked.modify (h : Nicked s) {id : Nat} {f : IrcClient → IrcClient}
    (hf : ∀ c ∈ s.live, (f c).flag.nick = true → (f c).nick.isSome = true)
    (hlive : s'.live = modifyKey IrcClient.id id f s.live) : Nicked s' := by
  intro c hc
  rw [hlive] at hc
  obtain ⟨a, ha, rfl⟩ := List.mem_map.mp hc
  split
  · exact hf a ha
  · exact h a ha

theorem Nicked.of_subset (h : Nicked s) (hlive : s'.live ⊆ s.live) : Nicked s' :=
  fun c hc => h c (hlive hc)

theorem ircDeleteClient_nicked (h : Nicked s) (c : IrcClient) : Nicked (ircDeleteClient key s c) :=
  h.of_subset (fun _ ha => (mem_removeKey.mp ha).1)

theorem ircLeaveAllChannels_nicked (h : Nicked s) {c : IrcClient}
    (hleave : ircLeaveAllChannels key s c = some s') : Nicked s' := by
  obtain ⟨s₁, c₁, hwithin, -, rfl⟩ := (within_composes 0).leaveAllChannels hleave
  have hdelete : Nicked (ircDeleteClient key s₁ c₁) :=
    ircDeleteClient_nicked (h.of_same hwithin.same) c₁
  exact hdelete.of_subset (List.Subset.refl _)

theorem ircStep_nicked (h : Nicked s) {event : IrcEvent}
    (hstep : ircStep cfg key s event = some s') : Nicked s' := by
  cases ircStep_effect hstep with
  | comes hsock haddr =>
    intro c hc
    rcases List.mem_cons.mp hc with rfl | hc
    · exact fun hflag => absurd hflag Bool.false_ne_true
    · exact h c hc
  | @flags _ sock c f hc hf =>
    refine h.modify ?_ rfl
    intro a ha hflag
    exact h a ha ((hf a.flag).symm.trans hflag)
  | named hc hnick =>
    rcases ircNickCallback_cases hnick with rfl | ⟨text, clients, -, -, rfl, -⟩
    · exact h
    · refine h.modify ?_ rfl
      exact fun _ _ _ => rfl
  | enrolls hc hnot hflag hadd =>
    refine h.modify ?_ rfl
    exact h
  | deleted hc hwrong => exact ircDeleteClient_nicked h _
  | joins hall => exact h.of_same (hall (within_composes _)).same
  | parts hall => exact h.of_same (hall (within_composes 0).toParting).same
  | quits hc hleave => exact ircLeaveAllChannels_nicked h hleave
  | closed hdata => exact h
  | disconnects hc hleave =>
    exact (ircLeaveAllChannels_nicked h hleave).of_subset (List.Subset.refl _)

/-! ## Clients that are not registered -/

/-- A client that is not registered is in no channel. -/
structure Barred (key : List UInt8 → κ) (s : IrcState κ) : Prop where
  entries : Entered key s
  nicked : Nicked s
  outside : ∀ c ∈ s.live, c.registered = false → c.id ∉ s.members

theorem Barred.nick (h : Barred key s) {id : Nat} (hid : id ∈ s.members) {c : IrcClient}
    (hc : s.clientAt id = some c) : c.nick.isSome = true := by
  obtain ⟨hmem, rfl⟩ := clientAt_mem hc
  have hregistered : c.registered = true := by
    by_contra hnot
    exact h.outside c hmem (Bool.eq_false_iff.mpr hnot) hid
  exact h.nicked c hmem (h.entries.named.flagged c.plain (List.mem_map_of_mem hmem) hregistered)

theorem Barred.nick_of_entry (h : Barred key s) {e : κ × Nat} (he : e ∈ s.clients) {c : IrcClient}
    (hc : s.clientAt e.2 = some c) : c.nick.isSome = true := by
  obtain ⟨hmem, hid⟩ := clientAt_mem hc
  have hown := h.entries.named.of_entry (c := c.plain) (List.mem_map_of_mem hmem) he hid.symm
  exact h.nicked c hmem (h.entries.named.flagged c.plain (List.mem_map_of_mem hmem) hown.1)

theorem mem_roll_iff {id : Nat} {registered : Bool} :
    (id, registered) ∈ s.roll ↔ ∃ c ∈ s.live, c.id = id ∧ c.registered = registered := by
  unfold IrcState.roll IrcClient.ticket
  simp only [List.mem_map, Prod.mk.injEq]

theorem ircJoinChannel_barred (h : Barred key s) {client addr : Nat} {chan : List UInt8}
    (hclient : (client, false) ∉ s.roll)
    (hjoin : ircJoinChannel limit key s client chan addr = some s') : Barred key s' := by
  have hwithin := ircJoinChannel_within hjoin
  refine ⟨h.entries.of_within hwithin, h.nicked.of_same hwithin.same, fun c hc hnot hin => ?_⟩
  have hticket : (c.id, false) ∈ s.roll := by
    rw [← hwithin.same.roll]
    exact mem_roll_iff.mpr ⟨c, hc, rfl, hnot⟩
  rcases List.mem_cons.mp (ircJoinChannel_members hjoin hin) with rfl | hin
  · exact hclient hticket
  · obtain ⟨a, ha, hid, hregistered⟩ := mem_roll_iff.mp hticket
    exact h.outside a ha hregistered (hid ▸ hin)

/-- Who is not registered after an event has not been so before, or is new. -/
theorem unregistered_before {change : RollChange} {id : Nat}
    (h : (id, false) ∈ change.apply s.roll) : (id, false) ∈ s.roll ∨ change = .comes id := by
  cases change with
  | same => exact Or.inl h
  | comes addr =>
    rcases List.mem_cons.mp h with hnew | h
    · exact Or.inr (congrArg RollChange.comes (Prod.mk.inj hnew).1.symm)
    · exact Or.inl h
  | goes addr => exact Or.inl (mem_removeKey.mp h).1
  | enrolls addr =>
    obtain ⟨p, hp, hown⟩ := List.mem_map.mp h
    split at hown
    · exact absurd (Prod.mk.inj hown).2.symm Bool.false_ne_true
    · exact Or.inl (hown ▸ hp)

/-- An event without JOIN, in which no new client gets an address that a channel lists. -/
theorem ircStep_barred (h : Barred key s) {event : IrcEvent}
    (hstep : ircStep cfg key s event = some s')
    (hjoin : ∀ sock targets, event ≠ .request sock (.join targets))
    (hfree : ∀ sock addr, event = .connect sock addr → addr ∉ s.members) : Barred key s' := by
  have hmembers : s'.members ⊆ s.members := members_parting.step members_of_rooms hstep hjoin
  refine ⟨ircStep_entered h.entries hstep, ircStep_nicked h.nicked hstep, fun c hc hnot hin => ?_⟩
  have hticket : (c.id, false) ∈ s'.roll := mem_roll_iff.mpr ⟨c, hc, rfl, hnot⟩
  rw [ircStep_roll hstep] at hticket
  rcases unregistered_before hticket with hold | hcomes
  · obtain ⟨a, ha, hid, hregistered⟩ := mem_roll_iff.mp hold
    exact h.outside a ha hregistered (hid ▸ hmembers hin)
  · rcases rollChange_cases cfg s event with hsame | ⟨sock, addr, rfl, hnew⟩ | ⟨-, a, -, hgoes⟩ |
      ⟨-, -, a, -, -, henrolls⟩
    · exact RollChange.noConfusion (hcomes.symm.trans hsame)
    · obtain rfl := RollChange.comes.inj (hcomes.symm.trans hnew)
      exact hfree sock c.id rfl (hmembers hin)
    · exact RollChange.noConfusion (hcomes.symm.trans hgoes)
    · exact RollChange.noConfusion (hcomes.symm.trans henrolls)

theorem barred_start : Barred key (startIrc : IrcState κ) :=
  ⟨entered_start, fun _ hc => absurd hc List.not_mem_nil,
    fun _ hc => absurd hc List.not_mem_nil⟩

end Serveez.Irc
