import Serveez.Irc.Tidy

/-!
# Rounds of PART

The loop over the targets counts with the variable that the loop over the members of a channel
counts with, so behind a channel comes the target whose place is one more than its number of
members.

* `leave_parted`: what a round leaves.
* `rounds_visited`: the rounds go the way that the numbers of members lead.
* `parts_iff`: which lists of targets are left as they should be.
-/

set_option linter.unusedSectionVars false

namespace Serveez.Irc.PartRounds

open Lib

variable {κ : Type} [DecidableEq κ]

/-- A channel that has been left, and the clients that have been told. -/
structure Part where
  channel : Nat
  told : List Nat

/-- The loop of `irc_part_callback`, with the channels that are left. It has no result if it does
not come to its end in so many rounds. -/
def partRounds (key : List UInt8 → κ) (client : Nat) (targets : List (List UInt8)) :
    Nat → Nat → IrcState κ → Option (List Part × IrcState κ)
  | 0, _, _ => none
  | rounds + 1, n, s =>
    match targets[n]? with
    | none => some ([], s)
    | some target =>
      match ircFindChannel key s target with
      | none => some ([], s)
      | some id =>
        (s.channelAt id).bind fun channel =>
        if client ∉ channel.client then some ([], s)
        else if s.tells channel.client then
          (ircLeaveChannel key s client id).bind fun s =>
          (partRounds key client targets rounds (channel.client.length + 1) s).map fun rest =>
            (⟨id, channel.client⟩ :: rest.1, rest.2)
        else none

/-! ## What PART should do -/

/-- A target is the name of a channel that the client is on. -/
structure On (key : List UInt8 → κ) (s : IrcState κ) (client : Nat) (target : List UInt8)
    (ch : IrcChannel) : Prop where
  found : ircFindChannel key s target = some ch.id
  room : s.channelAt ch.id = some ch
  member : client ∈ ch.client

/-- Exactly the channels of the targets are left, each once, and their members have been told. -/
structure Left (key : List UInt8 → κ) (s s' : IrcState κ) (client : IrcClient)
    (targets : List (List UInt8)) (parts : List Part) : Prop where
  once : (parts.map Part.channel).Nodup
  exact : ∀ id, id ∈ parts.map Part.channel ↔
    ∃ target ∈ targets, ircFindChannel key s target = some id
  told : ∀ part ∈ parts, ∃ ch, s.channelAt part.channel = some ch ∧ part.told = ch.client
  left : ∀ id ∈ parts.map Part.channel, ∀ ch, s'.channelAt id = some ch → client.id ∉ ch.client
  others : ∀ id, id ∉ parts.map Part.channel → s'.channelAt id = s.channelAt id
  list : ∃ c, s'.clientAt client.id = some c ∧
    ∀ r, r ∈ c.channel ↔ r ∈ client.channel ∧ r ∉ parts.map Part.channel

/-- PART comes to its end and leaves what it should. -/
def PartsRight (key : List UInt8 → κ) (s : IrcState κ) (client : IrcClient)
    (targets : List (List UInt8)) : Prop :=
  ∃ parts s', partRounds key client.id targets (s.rooms.length + 1) 0 s = some (parts, s') ∧
    ircPartCallback key s client targets = some s' ∧ Left key s s' client targets parts

/-- The places that the numbers of members lead to. -/
inductive Visited (key : List UInt8 → κ) (s : IrcState κ) (client : Nat)
    (targets : List (List UInt8)) : Nat → Prop
  | first : Visited key s client targets 0
  | next {n : Nat} {target : List UInt8} {ch : IrcChannel}
      (hvisited : Visited key s client targets n) (htarget : targets[n]? = some target)
      (hon : On key s client target ch) : Visited key s client targets (ch.client.length + 1)

/-- The members of the channels exist, and each channel is at a place that is visited. -/
structure Meets (key : List UInt8 → κ) (s : IrcState κ) (client : Nat)
    (targets : List (List UInt8)) : Prop where
  members : ∀ target ∈ targets, ∀ ch, On key s client target ch → s.tells ch.client = true
  visited : ∀ target ∈ targets, ∀ ch, On key s client target ch →
    ∃ (n : Nat) (other : List UInt8), Visited key s client targets n ∧
      targets[n]? = some other ∧ On key s client other ch

/-! ## Leaving a channel -/

variable {key : List UInt8 → κ} {s s' t t' : IrcState κ} {client : IrcClient} {gone : List Nat}
  {targets : List (List UInt8)} {target : List UInt8} {ch : IrcChannel} {n : Nat}

theorem partRounds_partLoop {rounds client : Nat} {parts : List Part}
    (h : partRounds key client targets rounds n s = some (parts, s')) :
    partLoop key client targets rounds n s = some s' := by
  induction rounds generalizing n s parts with
  | zero => exact absurd h.symm (Option.some_ne_none _)
  | succ rounds ih =>
    rw [partRounds] at h
    rw [partLoop]
    cases htarget : targets[n]? with
    | none =>
      rw [htarget] at h
      rw [(Prod.mk.inj (Option.some.inj h)).2]
    | some target =>
      rw [htarget] at h
      dsimp only at h ⊢
      cases hfind : ircFindChannel key s target with
      | none =>
        rw [hfind] at h
        rw [(Prod.mk.inj (Option.some.inj h)).2]
      | some id =>
        rw [hfind] at h
        dsimp only at h ⊢
        obtain ⟨ch, hch, h⟩ := Option.bind_eq_some_iff.mp h
        rw [hch, Option.bind_some]
        split_ifs at h ⊢ with hmember htells
        · obtain ⟨s₁, hs₁, h⟩ := Option.bind_eq_some_iff.mp h
          obtain ⟨⟨more, s₂⟩, hrest, hpair⟩ := Option.map_eq_some_iff.mp h
          obtain rfl : s₂ = s' := (Prod.mk.inj hpair).2
          rw [hs₁, Option.bind_some, ih hrest]
        · rw [(Prod.mk.inj (Option.some.inj h)).2]

theorem ircLeaveChannel_isSome {client : Nat} {c : IrcClient} (hch : s.channelAt ch.id = some ch)
    (hc : s.clientAt client = some c) : ∃ s', ircLeaveChannel key s client ch.id = some s' := by
  have hdelete (t : IrcState κ) {a : IrcChannel} (ha : t.channelAt ch.id = some a) :
      ∃ t', ircDeleteChannel key t ch.id = some t' := by
    unfold ircDeleteChannel
    rw [ha, Option.bind_some]
    split <;> exact ⟨_, rfl⟩
  unfold ircLeaveChannel
  rw [hch, Option.bind_some]
  cases hplace : ch.client.idxOf? client with
  | none =>
    dsimp only
    split
    · exact hdelete s hch
    · exact ⟨_, rfl⟩
  | some i =>
    dsimp only
    rw [hc, Option.bind_some]
    split
    · have hchannel : ∀ f : IrcChannel → IrcChannel, (∀ a, (f a).id = a.id) →
          (s.setChannel ch.id f).channelAt ch.id = some (f ch) :=
        fun f hf => findKey_modifyKey hf hch
      have hkept := hchannel
        (fun ch => { ch with client := swapRemove ch.client i, cflag := swapRemove ch.cflag i })
        (fun _ => rfl)
      split <;> exact hdelete _ hkept
    · exact ⟨_, rfl⟩

theorem ircLeaveChannel_left (htidy : Tidy s) {client : Nat} {c : IrcClient}
    (hch : s.channelAt ch.id = some ch) (hc : s.clientAt client = some c)
    (hleave : ircLeaveChannel key s client ch.id = some s') :
    (∀ a, s'.channelAt ch.id = some a → client ∉ a.client) ∧
      ∀ id, id ≠ ch.id → s'.channelAt id = s.channelAt id := by
  have hchmem := (channelAt_mem hch).1
  unfold ircLeaveChannel at hleave
  rw [hch, Option.bind_some] at hleave
  cases hplace : ch.client.idxOf? client with
  | none =>
    rw [hplace] at hleave
    dsimp only at hleave
    rw [if_neg (htidy.occupied ch hchmem)] at hleave
    obtain rfl := Option.some.inj hleave
    refine ⟨fun a ha => ?_, fun _ _ => rfl⟩
    obtain rfl := Option.some.inj (hch.symm.trans ha)
    exact List.idxOf?_eq_none_iff.mp hplace
  | some i =>
    obtain ⟨hi, hget, -⟩ := List.idxOf?_eq_some_iff.mp hplace
    rw [hplace] at hleave
    dsimp only at hleave
    rw [hc, Option.bind_some] at hleave
    let g : IrcChannel → IrcChannel := fun ch =>
      { ch with client := swapRemove ch.client i, cflag := swapRemove ch.cflag i }
    have hout : client ∉ (g ch).client := by
      intro hin
      have hmem := (mem_swapRemove_iff hi (htidy.clientNodup ch hchmem)).mp hin
      exact hmem.2 hget.symm
    -- the state before a channel without clients is deleted
    have hrooms : (unlistChannel (s.setChannel ch.id g) c client ch.id).rooms =
        modifyKey IrcChannel.id ch.id g s.rooms := by
      unfold unlistChannel
      split <;> rfl
    have hleft : (if swapRemove ch.client i = [] then
        ircDeleteChannel key (unlistChannel (s.setChannel ch.id g) c client ch.id) ch.id
        else some (unlistChannel (s.setChannel ch.id g) c client ch.id)) = some s' := hleave
    generalize unlistChannel (s.setChannel ch.id g) c client ch.id = u at hrooms hleft
    have hself : u.channelAt ch.id = some (g ch) := by
      rw [IrcState.channelAt, hrooms]
      exact findKey_modifyKey (fun _ => rfl) hch
    have hothers (id : Nat) (hid : id ≠ ch.id) : u.channelAt id = s.channelAt id := by
      rw [IrcState.channelAt, hrooms]
      exact findKey_modifyKey_ne hid (fun _ => rfl)
    have hkept : (∀ a, u.channelAt ch.id = some a → client ∉ a.client) ∧
        ∀ id, id ≠ ch.id → u.channelAt id = s.channelAt id := by
      refine ⟨fun a ha => ?_, hothers⟩
      obtain rfl := Option.some.inj (hself.symm.trans ha)
      exact hout
    split at hleft
    · unfold ircDeleteChannel at hleft
      rw [hself, Option.bind_some] at hleft
      split at hleft
      · obtain rfl := Option.some.inj hleft
        refine ⟨fun a ha => ?_, fun id hid => ?_⟩
        · have hnone : findKey IrcChannel.id ch.id (removeKey IrcChannel.id ch.id u.rooms) = none :=
            findKey_removeKey
          exact absurd (hnone.symm.trans ha) (Option.some_ne_none a).symm
        · exact (findKey_removeKey_ne hid).trans (hothers id hid)
      · obtain rfl := Option.some.inj hleft
        exact hkept
    · obtain rfl := Option.some.inj hleft
      exact hkept

/-! ## The state in between -/

/-- The client has left the channels `gone` of the state `s`. -/
structure Parted (key : List UInt8 → κ) (s t : IrcState κ) (client : IrcClient)
    (gone : List Nat) : Prop where
  entered : Entered key t
  tidy : Tidy t
  left : ∀ id ∈ gone, ∀ ch, t.channelAt id = some ch → client.id ∉ ch.client
  others : ∀ id, id ∉ gone → t.channelAt id = s.channelAt id
  list : ∃ c, t.clientAt client.id = some c ∧ ∀ r, r ∈ c.channel ↔ r ∈ client.channel ∧ r ∉ gone
  live : ∀ id, (t.clientAt id).isSome = (s.clientAt id).isSome

/-- What a round leaves. -/
theorem leave_parted (h : Parted key s t client gone) (hch : t.channelAt ch.id = some ch)
    (hmember : client.id ∈ ch.client) :
    ∃ t', ircLeaveChannel key t client.id ch.id = some t' ∧
      Parted key s t' client (ch.id :: gone) := by
  obtain ⟨c, hc, hlist⟩ := h.list
  have hsome : ∃ t', ircLeaveChannel key t client.id ch.id = some t' :=
    ircLeaveChannel_isSome hch hc
  obtain ⟨t', hleave⟩ := hsome
  obtain ⟨hout, hothers⟩ := ircLeaveChannel_left h.tidy hch hc hleave
  rcases ircLeaveChannel_cases h.tidy h.entered hleave with ⟨-, hnot⟩ | ⟨c', ch', f, hid, hsame, hl⟩
  · exact absurd hmember (hnot ch hch)
  have hcc : c' = c := by
    have hat := hl.client
    rw [hid] at hat
    exact Option.some.inj (hat.symm.trans hc)
  subst hcc
  refine ⟨t', hleave, ⟨h.entered.of_within (within_leaving.leaveChannel hleave),
    hl.tidy h.tidy h.entered, ?_, ?_, ⟨f c', ?_, fun r => ?_⟩, fun id => ?_⟩⟩
  · intro id hid a ha
    by_cases hsame : id = ch.id
    · rw [hsame] at ha
      exact hout a ha
    · rw [hothers id hsame] at ha
      exact h.left id ((List.mem_cons.mp hid).resolve_left hsame) a ha
  · intro id hid
    rw [List.mem_cons, not_or] at hid
    rw [hothers id hid.1, h.others id hid.2]
  · rw [← hid, IrcState.clientAt, hl.live]
    exact findKey_modifyKey hl.same hl.client
  · rw [hl.kept, hlist, hsame, List.mem_cons, not_or, and_assoc, and_comm (a := r ∉ gone)]
  · rw [← h.live id, IrcState.clientAt, hl.live]
    by_cases hself : id = c'.id
    · rw [hself, findKey_modifyKey hl.same hl.client, hl.client]
      rfl
    · rw [findKey_modifyKey_ne hself hl.same]
      rfl

/-! ## Rounds -/

theorem tells_live (h : Parted key s t client gone) (clients : List Nat) :
    t.tells clients = s.tells clients := by
  unfold IrcState.tells
  exact congrArg clients.all (funext h.live)

theorem find_kept (hentered : Entered key s) (h : Parted key s t client gone)
    (hon : On key s client.id target ch) (hgone : ch.id ∉ gone) :
    ircFindChannel key t target = some ch.id ∧ t.channelAt ch.id = some ch := by
  have hat : t.channelAt ch.id = some ch := (h.others ch.id hgone).trans hon.room
  obtain ⟨a, ha, hkey⟩ := hentered.findChannel_iff.mp hon.found
  obtain rfl := Option.some.inj (hon.room.symm.trans ha)
  exact ⟨h.entered.findChannel_iff.mpr ⟨ch, hat, hkey⟩, hat⟩

theorem find_gone (hentered : Entered key s) (h : Parted key s t client gone)
    (hon : On key s client.id target ch) (hgone : ch.id ∈ gone) {id : Nat}
    (hfind : ircFindChannel key t target = some id) :
    ∃ a, t.channelAt id = some a ∧ client.id ∉ a.client := by
  obtain ⟨a, ha, hkey⟩ := h.entered.findChannel_iff.mp hfind
  refine ⟨a, ha, h.left id ?_ a ha⟩
  by_contra hnot
  have hfound := hentered.findChannel_iff.mpr ⟨a, (h.others id hnot).symm.trans ha, hkey⟩
  rw [hon.found] at hfound
  exact hnot (Option.some.inj hfound ▸ hgone)

theorem round_stop (hentered : Entered key s) (h : Parted key s t client gone)
    (hon : ∀ target ∈ targets, ∃ ch, On key s client.id target ch)
    (hstop : ∀ target ch, targets[n]? = some target → On key s client.id target ch → ch.id ∈ gone)
    (rounds : Nat) : partRounds key client.id targets (rounds + 1) n t = some ([], t) := by
  rw [partRounds]
  cases htarget : targets[n]? with
  | none => rfl
  | some target =>
    obtain ⟨ch, hch⟩ := hon target (List.mem_of_getElem? htarget)
    dsimp only
    cases hfind : ircFindChannel key t target with
    | none => rfl
    | some id =>
      obtain ⟨a, ha, hout⟩ := find_gone hentered h hch (hstop target ch htarget hch) hfind
      dsimp only
      rw [ha, Option.bind_some, if_pos hout]

/-- A channel that has not been left is left, if its members exist. -/
theorem round_leave (hentered : Entered key s) (h : Parted key s t client gone)
    (htarget : targets[n]? = some target) (hon : On key s client.id target ch)
    (hgone : ch.id ∉ gone) (rounds : Nat) :
    ∃ t', Parted key s t' client (ch.id :: gone) ∧
      partRounds key client.id targets (rounds + 1) n t =
        if s.tells ch.client then
          (partRounds key client.id targets rounds (ch.client.length + 1) t').map fun rest =>
            (⟨ch.id, ch.client⟩ :: rest.1, rest.2)
        else none := by
  obtain ⟨hfind, hat⟩ := find_kept hentered h hon hgone
  obtain ⟨t', hleave, hparted⟩ := leave_parted h hat hon.member
  refine ⟨t', hparted, ?_⟩
  rw [partRounds, htarget]
  dsimp only
  rw [hfind]
  dsimp only
  rw [hat, Option.bind_some, if_neg (not_not.mpr hon.member), tells_live h, hleave,
    Option.bind_some]

theorem round_cases (hentered : Entered key s) (h : Parted key s t client gone)
    (hon : ∀ target ∈ targets, ∃ ch, On key s client.id target ch) {rounds : Nat}
    {parts : List Part} (hrounds : partRounds key client.id targets (rounds + 1) n t =
      some (parts, t')) :
    (parts = [] ∧ t' = t ∧ ∀ target ch, targets[n]? = some target →
      On key s client.id target ch → ch.id ∈ gone) ∨
    ∃ target ch u more, targets[n]? = some target ∧ On key s client.id target ch ∧
      ch.id ∉ gone ∧ s.tells ch.client = true ∧ Parted key s u client (ch.id :: gone) ∧
      partRounds key client.id targets rounds (ch.client.length + 1) u = some (more, t') ∧
      parts = ⟨ch.id, ch.client⟩ :: more := by
  by_cases hstop : ∀ target ch, targets[n]? = some target → On key s client.id target ch →
      ch.id ∈ gone
  · rw [round_stop hentered h hon hstop] at hrounds
    obtain ⟨rfl, rfl⟩ := Prod.mk.inj (Option.some.inj hrounds)
    exact Or.inl ⟨rfl, rfl, hstop⟩
  · push Not at hstop
    obtain ⟨target, ch, htarget, hch, hgone⟩ := hstop
    obtain ⟨u, hparted, heq⟩ := round_leave hentered h htarget hch hgone rounds
    rw [heq] at hrounds
    split_ifs at hrounds with htells
    obtain ⟨⟨more, u'⟩, hmore, hpair⟩ := Option.map_eq_some_iff.mp hrounds
    obtain ⟨rfl, rfl⟩ := Prod.mk.inj hpair
    exact Or.inr ⟨target, ch, u, more, htarget, hch, hgone, htells, hparted, hmore, rfl⟩

/-! ## Runs of rounds -/

section runs

variable (hentered : Entered key s) (hon : ∀ target ∈ targets, ∃ ch, On key s client.id target ch)
  {rounds : Nat} {parts : List Part}
include hentered hon

/-- What the rounds leave: the channels of the parts, each once. -/
theorem rounds_parted (h : Parted key s t client gone)
    (hrounds : partRounds key client.id targets rounds n t = some (parts, t')) :
    (parts.map Part.channel).Nodup ∧ (∀ id ∈ parts.map Part.channel, id ∉ gone) ∧
      ∃ gone', Parted key s t' client gone' ∧
        ∀ id, id ∈ gone' ↔ id ∈ gone ∨ id ∈ parts.map Part.channel := by
  induction rounds generalizing n t gone parts with
  | zero => exact absurd hrounds.symm (Option.some_ne_none _)
  | succ rounds ih =>
    rcases round_cases hentered h hon hrounds with ⟨rfl, rfl, -⟩ |
        ⟨target, ch, u, more, -, -, hgone, -, hparted, hmore, rfl⟩
    · refine ⟨List.nodup_nil, fun _ hid => absurd hid List.not_mem_nil, gone, h, fun id => ?_⟩
      simp
    · obtain ⟨hnodup, hnew, gone', hparted', hmem⟩ := ih hparted hmore
      refine ⟨List.nodup_cons.mpr ⟨fun hid => hnew _ hid List.mem_cons_self, hnodup⟩,
        fun id hid => ?_, gone', hparted', fun id => ?_⟩
      · rcases List.mem_cons.mp hid with rfl | hid
        · exact hgone
        · exact fun hin => hnew id hid (List.mem_cons_of_mem _ hin)
      · rw [hmem, List.map_cons, List.mem_cons, List.mem_cons, or_assoc, or_left_comm]

theorem rounds_visited (h : Parted key s t client gone)
    (hvisited : Visited key s client.id targets n)
    (hrounds : partRounds key client.id targets rounds n t = some (parts, t')) :
    ∀ part ∈ parts, ∃ (m : Nat) (target : List UInt8) (ch : IrcChannel),
      Visited key s client.id targets m ∧ targets[m]? = some target ∧
      On key s client.id target ch ∧ s.tells ch.client = true ∧ part = ⟨ch.id, ch.client⟩ := by
  induction rounds generalizing n t gone parts with
  | zero => exact absurd hrounds.symm (Option.some_ne_none _)
  | succ rounds ih =>
    rcases round_cases hentered h hon hrounds with ⟨rfl, -, -⟩ |
        ⟨target, ch, u, more, htarget, hch, -, htells, hparted, hmore, rfl⟩
    · exact fun _ hpart => absurd hpart List.not_mem_nil
    · intro part hpart
      rcases List.mem_cons.mp hpart with rfl | hpart
      · exact ⟨n, target, ch, hvisited, htarget, hch, htells, rfl⟩
      · exact ih hparted (hvisited.next htarget hch) hmore part hpart

/-- Where a channel is left, the one at the place that it leads to is left. -/
theorem rounds_closed (h : Parted key s t client gone)
    (hrounds : partRounds key client.id targets rounds n t = some (parts, t'))
    {m : Nat} (hm : m = n ∨ ∃ part ∈ parts, m = part.told.length + 1)
    (htarget : targets[m]? = some target) (hch : On key s client.id target ch) :
    ch.id ∈ gone ∨ ch.id ∈ parts.map Part.channel := by
  induction rounds generalizing n t gone parts with
  | zero => exact absurd hrounds.symm (Option.some_ne_none _)
  | succ rounds ih =>
    rcases round_cases hentered h hon hrounds with ⟨rfl, -, hstop⟩ |
        ⟨target', ch', u, more, htarget', hch', -, -, hparted, hmore, rfl⟩
    · rcases hm with rfl | ⟨part, hpart, -⟩
      · exact Or.inl (hstop target ch htarget hch)
      · exact absurd hpart List.not_mem_nil
    · have hrest (hm : m = ch'.client.length + 1 ∨ ∃ part ∈ more, m = part.told.length + 1) :
          ch.id ∈ gone ∨ ch.id ∈ (⟨ch'.id, ch'.client⟩ :: more : List Part).map Part.channel := by
        rw [List.map_cons, List.mem_cons]
        rcases ih hparted hmore hm with hin | hin
        · exact (List.mem_cons.mp hin).elim (fun hid => Or.inr (Or.inl hid)) Or.inl
        · exact Or.inr (Or.inr hin)
      rcases hm with rfl | ⟨part, hpart, hm⟩
      · obtain rfl := Option.some.inj (htarget.symm.trans htarget')
        rw [List.map_cons, List.mem_cons]
        exact Or.inr (Or.inl (Option.some.inj (hch.found.symm.trans hch'.found)))
      · rcases List.mem_cons.mp hpart with rfl | hpart
        · exact hrest (Or.inl hm)
        · exact hrest (Or.inr ⟨part, hpart, hm⟩)

theorem rounds_end (h : Parted key s t client gone)
    (htells : ∀ target ∈ targets, ∀ ch, On key s client.id target ch → s.tells ch.client = true)
    (hnodup : gone.Nodup) (hrooms : gone ⊆ s.rooms.map IrcChannel.id)
    (hlong : s.rooms.length < rounds + gone.length) :
    (partRounds key client.id targets rounds n t).isSome = true := by
  induction rounds generalizing n t gone with
  | zero =>
    have hshort := (List.subperm_of_subset hnodup hrooms).length_le
    rw [List.length_map] at hshort
    omega
  | succ rounds ih =>
    by_cases hstop : ∀ target ch, targets[n]? = some target → On key s client.id target ch →
        ch.id ∈ gone
    · rw [round_stop hentered h hon hstop]
      rfl
    · push Not at hstop
      obtain ⟨target, ch, htarget, hch, hgone⟩ := hstop
      obtain ⟨u, hparted, heq⟩ := round_leave hentered h htarget hch hgone rounds
      rw [heq, if_pos (htells target (List.mem_of_getElem? htarget) ch hch), Option.isSome_map]
      refine ih hparted (List.nodup_cons.mpr ⟨hgone, hnodup⟩) (List.cons_subset.mpr ⟨?_, hrooms⟩) ?_
      · exact List.mem_map_of_mem (channelAt_mem hch.room).1
      · rw [List.length_cons]
        omega

end runs

/-! ## Lists of targets -/

theorem On.eq (h : On key s client.id target ch) {other : List UInt8} {a : IrcChannel}
    (ha : On key s client.id other a) (hid : a.id = ch.id) : a = ch := by
  have hroom := ha.room
  rw [hid, h.room] at hroom
  exact (Option.some.inj hroom).symm

theorem parted_start (hentered : Entered key s) (htidy : Tidy s)
    (hc : s.clientAt client.id = some client) : Parted key s s client [] :=
  ⟨hentered, htidy, fun _ hid => absurd hid List.not_mem_nil, fun _ _ => rfl,
    ⟨client, hc, fun _ => (and_iff_left List.not_mem_nil).symm⟩, fun _ => rfl⟩

theorem ircRun_tidy {cfg : IrcConfig} {events : List IrcEvent}
    (hrun : ircRun cfg key events = some s) : Tidy s :=
  (reached_invariant (I := fun s => Entered key s ∧ Tidy s)
    (fun _ _ _ h hstep => ⟨ircStep_entered h.1 hstep, ircStep_tidy h.2 h.1 hstep⟩)
    ⟨entered_start, tidy_start⟩ hrun).2

/-- Targets that are left as they should be are visited. -/
theorem meets_of_right (hentered : Entered key s) (htidy : Tidy s)
    (hc : s.clientAt client.id = some client)
    (hon : ∀ target ∈ targets, ∃ ch, On key s client.id target ch)
    (h : PartsRight key s client targets) : Meets key s client.id targets := by
  obtain ⟨parts, s', hrounds, -, hleft⟩ := h
  have hvisited := rounds_visited hentered hon (parted_start hentered htidy hc) .first hrounds
  have hreached : ∀ target ∈ targets, ∀ ch, On key s client.id target ch →
      ∃ (n : Nat) (other : List UInt8), Visited key s client.id targets n ∧
        targets[n]? = some other ∧ On key s client.id other ch ∧ s.tells ch.client = true := by
    intro target htarget ch hch
    obtain ⟨part, hpart, hid⟩ :=
      List.mem_map.mp ((hleft.exact ch.id).mpr ⟨target, htarget, hch.found⟩)
    obtain ⟨n, other, a, hn, hother, ha, htells, rfl⟩ := hvisited part hpart
    obtain rfl := hch.eq ha hid
    exact ⟨n, other, hn, hother, ha, htells⟩
  refine ⟨fun target htarget ch hch => ?_, fun target htarget ch hch => ?_⟩
  · obtain ⟨-, -, -, -, -, htells⟩ := hreached target htarget ch hch
    exact htells
  · obtain ⟨n, other, hn, hother, ha, -⟩ := hreached target htarget ch hch
    exact ⟨n, other, hn, hother, ha⟩

/-- Targets that are visited are left as they should be. -/
theorem right_of_meets (hentered : Entered key s) (htidy : Tidy s)
    (hc : s.clientAt client.id = some client)
    (hon : ∀ target ∈ targets, ∃ ch, On key s client.id target ch)
    (h : Meets key s client.id targets) : PartsRight key s client targets := by
  have hstart := parted_start hentered htidy hc
  have hlong : s.rooms.length < s.rooms.length + 1 + ([] : List Nat).length := Nat.lt_succ_self _
  obtain ⟨⟨parts, s'⟩, hrounds⟩ := Option.isSome_iff_exists.mp
    (rounds_end (n := 0) hentered hon hstart h.members List.nodup_nil (List.nil_subset _) hlong)
  obtain ⟨hnodup, -, gone, hparted, hgone⟩ := rounds_parted hentered hon hstart hrounds
  have hvisited := rounds_visited hentered hon hstart .first hrounds
  have hpart (id : Nat) : id ∈ gone ↔ id ∈ parts.map Part.channel := by
    rw [hgone]
    exact or_iff_right List.not_mem_nil
  -- a channel at a place that is visited has been left
  have hplaces (n : Nat) (hn : Visited key s client.id targets n) : ∀ target ch,
      targets[n]? = some target → On key s client.id target ch →
      ch.id ∈ parts.map Part.channel := by
    have hclosed {m : Nat} (hm : m = 0 ∨ ∃ part ∈ parts, m = part.told.length + 1)
        {target : List UInt8} {ch : IrcChannel} (htarget : targets[m]? = some target)
        (hch : On key s client.id target ch) : ch.id ∈ parts.map Part.channel :=
      (rounds_closed hentered hon hstart hrounds hm htarget hch).resolve_left List.not_mem_nil
    induction hn with
    | first => exact fun _ _ htarget hch => hclosed (Or.inl rfl) htarget hch
    | @next m other ch _ hother hch ih =>
      intro target a htarget ha
      obtain ⟨part, hmem, hid⟩ := List.mem_map.mp (ih other ch hother hch)
      obtain ⟨_, _, b, -, -, hb, -, rfl⟩ := hvisited part hmem
      obtain rfl := hch.eq hb hid
      exact hclosed (Or.inr ⟨_, hmem, rfl⟩) htarget ha
  refine ⟨parts, s', hrounds, partRounds_partLoop hrounds, hnodup, fun id => ⟨fun hid => ?_, ?_⟩,
    fun part hmem => ?_, fun id hid => hparted.left id ((hpart id).mpr hid),
    fun id hid => hparted.others id (fun hin => hid ((hpart id).mp hin)), ?_⟩
  · obtain ⟨part, hmem, rfl⟩ := List.mem_map.mp hid
    obtain ⟨_, target, ch, -, htarget, hch, -, rfl⟩ := hvisited part hmem
    exact ⟨target, List.mem_of_getElem? htarget, hch.found⟩
  · rintro ⟨target, htarget, hfind⟩
    obtain ⟨ch, hch⟩ := hon target htarget
    obtain rfl := Option.some.inj (hch.found.symm.trans hfind)
    obtain ⟨n, other, hn, hother, ha⟩ := h.visited target htarget ch hch
    exact hplaces n hn other ch hother ha
  · obtain ⟨_, _, ch, -, -, hch, -, rfl⟩ := hvisited part hmem
    exact ⟨ch, hch.room, rfl⟩
  · obtain ⟨c, hat, hlist⟩ := hparted.list
    exact ⟨c, hat, fun r => by rw [hlist, hpart]⟩

/-- Exactly the channels of the targets are left, and their members are told, if the members exist
and the numbers of members lead from place to place past each channel. -/
theorem parts_iff (cfg : IrcConfig) (key : List UInt8 → κ) (events : List IrcEvent)
    (s : IrcState κ) (hrun : ircRun cfg key events = some s) (client : IrcClient)
    (hc : s.clientAt client.id = some client) (targets : List (List UInt8))
    (hon : ∀ target ∈ targets, ∃ ch, On key s client.id target ch) :
    PartsRight key s client targets ↔ Meets key s client.id targets :=
  ⟨meets_of_right (ircRun_entered hrun) (ircRun_tidy hrun) hc hon,
    right_of_meets (ircRun_entered hrun) (ircRun_tidy hrun) hc hon⟩

/-- A client that joins two channels. -/
def twoChannels : List IrcEvent :=
  [.connect 1 1, .request 1 (.nick (some [97])),
    .request 1 (.join [⟨[35, 97], true, 10⟩, ⟨[35, 98], true, 11⟩])]

/-- `PART #a,#a,#b`, where the client is alone on both channels: the loop goes from the first target
to the third. -/
theorem parts_bothChannels : ∃ (s : IrcState (List UInt8)) (client : IrcClient),
    ircRun ⟨10, none⟩ id twoChannels = some s ∧ s.clientAt client.id = some client ∧
    PartsRight id s client [[35, 97], [35, 97], [35, 98]] := by
  obtain ⟨s, hs⟩ : ∃ s, ircRun ⟨10, none⟩ id twoChannels = some s := ⟨_, rfl⟩
  let client : IrcClient := ⟨1, 1, some [97], ⟨true, true, false, false, false⟩, false, [10, 11]⟩
  let ch : IrcChannel := ⟨10, [35, 97], [1], [1]⟩
  let ch' : IrcChannel := ⟨11, [35, 98], [1], [1]⟩
  have hstate : (ircRun ⟨10, none⟩ id twoChannels).map (fun s => (s.clientAt 1,
      ircFindChannel id s [35, 97], s.channelAt 10, ircFindChannel id s [35, 98],
      s.channelAt 11)) = some (some client, some 10, some ch, some 11, some ch') := rfl
  rw [hs, Option.map_some, Option.some_inj] at hstate
  simp only [Prod.mk.injEq] at hstate
  obtain ⟨hc, hfound, hroom, hfound', hroom'⟩ := hstate
  have hon : On id s client.id [35, 97] ch := ⟨hfound, hroom, List.mem_singleton.mpr rfl⟩
  have hon' : On id s client.id [35, 98] ch' := ⟨hfound', hroom', List.mem_singleton.mpr rfl⟩
  have htells : s.tells [1] = true := by
    unfold IrcState.tells
    rw [List.all_cons, hc]
    rfl
  have htargets : ∀ target ∈ [[35, 97], [35, 97], [35, 98]],
      target = [35, 97] ∨ target = ([35, 98] : List UInt8) := by decide
  refine ⟨s, client, hs, hc, (parts_iff ⟨10, none⟩ id twoChannels s hs client hc _ ?_).mpr ?_⟩
  · intro target htarget
    rcases htargets target htarget with rfl | rfl
    · exact ⟨ch, hon⟩
    · exact ⟨ch', hon'⟩
  · have hsame : ∀ {target : List UInt8} {a b : IrcChannel}, On id s client.id target a →
        On id s client.id target b → a = b :=
      fun ha hb => hb.eq ha (Option.some_inj.mp (ha.found.symm.trans hb.found))
    constructor
    · intro target htarget a ha
      rcases htargets target htarget with rfl | rfl
      · exact hsame ha hon ▸ htells
      · exact hsame ha hon' ▸ htells
    · intro target htarget a ha
      rcases htargets target htarget with rfl | rfl
      · exact ⟨0, _, .first, rfl, ha⟩
      · exact ⟨2, _, .next .first rfl hon, rfl, ha⟩

/-- `PART #a,#b`, where the client is alone on both channels, leaves `#a` only. -/
theorem secondChannel_kept : ∃ (s : IrcState (List UInt8)) (client : IrcClient),
    ircRun ⟨10, none⟩ id twoChannels = some s ∧ s.clientAt client.id = some client ∧
    (∀ target ∈ [[35, 97], [35, 98]], ∃ ch, On id s client.id target ch) ∧
    ¬ PartsRight id s client [[35, 97], [35, 98]] := by
  refine ⟨_, ⟨1, 1, some [97], ⟨true, true, false, false, false⟩, false, [10, 11]⟩, rfl, rfl,
    fun target htarget => ?_, ?_⟩
  · rcases List.mem_cons.mp htarget with rfl | htarget
    · exact ⟨⟨10, [35, 97], [1], [1]⟩, rfl, rfl, List.mem_singleton.mpr rfl⟩
    · obtain rfl := List.mem_singleton.mp htarget
      exact ⟨⟨11, [35, 98], [1], [1]⟩, rfl, rfl, List.mem_singleton.mpr rfl⟩
  · rintro ⟨parts, s', hrounds, -, hleft⟩
    let left (rest : List Part × IrcState (List UInt8)) : List Nat := rest.1.map Part.channel
    have hparts : some [10] = some (left (parts, s')) := congrArg (Option.map left) hrounds
    have hsecond : 11 ∈ parts.map Part.channel := (hleft.exact 11).mpr ⟨[35, 98], by simp, rfl⟩
    have hids : [10] = parts.map Part.channel := Option.some.inj hparts
    rw [← hids] at hsecond
    exact absurd hsecond (by decide)

end Serveez.Irc.PartRounds
