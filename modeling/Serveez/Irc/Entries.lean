import Serveez.Irc.Registry

/-!
# Entries of the hashes

Whatever else goes wrong, the entries of the hash of channels are the channels under their names
(`Rooms`), and the entries of the hash of clients are registered clients under their nicks
(`Named`). All steps keep this (`ircStep_entered`).

* `within_composes`: the commands about channels.
* `Named.update`: one client changes, with its entry; `Named.flags`, `Named.named`,
  `Named.entered`, `Named.deleted` are the changes that the commands make.
-/

set_option linter.unusedSectionVars false

namespace Serveez.Irc

open Lib

/-! ## Entries of channels -/

variable {κ : Type} [DecidableEq κ] {key : List UInt8 → κ} {s s' : IrcState κ} {limit : Int}

/-- The entries of the hash are the channels, known by their addresses, under their names. -/
structure Rooms (key : List UInt8 → κ) (channels : List (κ × Nat))
    (rooms : List (Nat × List UInt8)) : Prop where
  ids : Keyed Prod.fst rooms
  keys : Keyed Prod.fst channels
  entry : ∀ e ∈ channels, ∃ name, (e.2, name) ∈ rooms ∧ key name = e.1
  entered : ∀ r ∈ rooms, (key r.2, r.1) ∈ channels

def IrcState.names (s : IrcState κ) : List (Nat × List UInt8) :=
  s.rooms.map (fun ch => (ch.id, ch.name))

theorem Rooms.opened {channels : List (κ × Nat)} {rooms : List (Nat × List UInt8)}
    (h : Rooms key channels rooms) {addr : Nat} {chan : List UInt8}
    (haddr : findKey Prod.fst addr rooms = none)
    (hfree : findKey Prod.fst (key chan) channels = none) :
    Rooms key (putKey (key chan) addr channels) ((addr, chan) :: rooms) := by
  have hput : putKey (key chan) addr channels = (key chan, addr) :: channels := by
    rw [putKey, removeKey_of_ne (findKey_none.mp hfree)]
  rw [hput]
  refine ⟨h.ids.cons haddr, h.keys.cons hfree, fun e he => ?_, fun r hr => ?_⟩
  · rcases List.mem_cons.mp he with rfl | he
    · exact ⟨chan, List.mem_cons_self, rfl⟩
    · obtain ⟨name, hmem, hkey⟩ := h.entry e he
      exact ⟨name, List.mem_cons_of_mem _ hmem, hkey⟩
  · rcases List.mem_cons.mp hr with rfl | hr
    · exact List.mem_cons_self
    · exact List.mem_cons_of_mem _ (h.entered r hr)

theorem Rooms.deleted {channels : List (κ × Nat)} {rooms : List (Nat × List UInt8)}
    (h : Rooms key channels rooms) {r : Nat × List UInt8} (hr : r ∈ rooms) :
    Rooms key (removeKey Prod.fst (key r.2) channels) (removeKey Prod.fst r.1 rooms) := by
  have hown := h.entered r hr
  -- the entry under the name is the one of the channel
  have hothers : ∀ e ∈ channels, e.1 = key r.2 ↔ e.2 = r.1 := by
    intro e he
    constructor
    · intro hsame
      rw [h.keys.eq_of_key he hown hsame]
    · intro hid
      obtain ⟨name, hmem, hkey⟩ := h.entry e he
      rw [← hkey, ← h.ids.eq_of_key hmem hr hid]
  refine ⟨h.ids.removeKey r.1, h.keys.removeKey _, fun e he => ?_, fun a ha => ?_⟩
  · obtain ⟨he, hne⟩ := mem_removeKey.mp he
    obtain ⟨name, hmem, hkey⟩ := h.entry e he
    exact ⟨name, mem_removeKey.mpr ⟨hmem, fun hid => hne ((hothers e he).mpr hid)⟩, hkey⟩
  · obtain ⟨ha, hne⟩ := mem_removeKey.mp ha
    have he := h.entered a ha
    exact mem_removeKey.mpr ⟨he, fun hsame => hne ((hothers _ he).mp hsame)⟩

/-- What a change of channels keeps. -/
structure Within (key : List UInt8 → κ) (s s' : IrcState κ) : Prop where
  same : SameClients s s'
  rooms : Rooms key s.channels s.names → Rooms key s'.channels s'.names

theorem names_setChannel (s : IrcState κ) (id : Nat) {f : IrcChannel → IrcChannel}
    (hf : ∀ ch, (f ch).id = ch.id ∧ (f ch).name = ch.name) : (s.setChannel id f).names = s.names :=
  map_modifyKey (fun ch => Prod.ext (hf ch).1 (hf ch).2)

theorem plain_setClient {id : Nat} {f : IrcClient → IrcClient} (hf : ∀ c, (f c).plain = c.plain) :
    (s.setClient id f).live.map IrcClient.plain = s.live.map IrcClient.plain :=
  map_modifyKey hf

theorem findKey_names {id : Nat} :
    findKey Prod.fst id s.names = (s.channelAt id).map (fun ch => (ch.id, ch.name)) := by
  unfold findKey IrcState.names IrcState.channelAt findKey
  rw [List.find?_map]
  rfl

theorem Within.refl (s : IrcState κ) : Within key s s := ⟨⟨rfl, rfl, rfl, rfl⟩, id⟩

theorem ircJoinChannel_within {client addr : Nat} {chan : List UInt8}
    (hjoin : ircJoinChannel limit key s client chan addr = some s') : Within key s s' := by
  unfold ircJoinChannel at hjoin
  obtain ⟨c, -, hjoin⟩ := Option.bind_eq_some_iff.mp hjoin
  cases hfind : ircFindChannel key s chan with
  | some id =>
    rw [hfind] at hjoin
    dsimp only at hjoin
    obtain ⟨ch, -, hjoin⟩ := Option.bind_eq_some_iff.mp hjoin
    split_ifs at hjoin <;> obtain rfl := Option.some.inj hjoin
    · exact Within.refl s
    · exact Within.refl s
    · refine ⟨⟨plain_setClient (fun _ => rfl), rfl, rfl, rfl⟩, fun h => ?_⟩
      have hnames := names_setChannel s id
        (f := fun ch => { ch with client := ch.client ++ [client], cflag := ch.cflag ++ [0] })
        (fun _ => ⟨rfl, rfl⟩)
      rw [← hnames] at h
      exact h
  | none =>
    rw [hfind] at hjoin
    dsimp only at hjoin
    split_ifs at hjoin with hfull hused
    · obtain rfl := Option.some.inj hjoin
      exact Within.refl s
    · obtain rfl := Option.some.inj hjoin
      refine ⟨⟨plain_setClient (fun _ => rfl), rfl, rfl, rfl⟩, fun h => ?_⟩
      refine h.opened ?_ (Option.map_eq_none_iff.mp hfind)
      rw [findKey_names, Option.not_isSome_iff_eq_none.mp hused, Option.map_none]

theorem ircDeleteChannel_within {channel : Nat}
    (hdelete : ircDeleteChannel key s channel = some s') : Within key s s' := by
  unfold ircDeleteChannel at hdelete
  obtain ⟨ch, hch, hdelete⟩ := Option.bind_eq_some_iff.mp hdelete
  obtain ⟨hmem, rfl⟩ := channelAt_mem hch
  split_ifs at hdelete <;> obtain rfl := Option.some.inj hdelete
  · refine ⟨⟨rfl, rfl, rfl, rfl⟩, fun h => ?_⟩
    have hdeleted := h.deleted (r := (ch.id, ch.name)) (List.mem_map_of_mem hmem)
    unfold IrcState.names
    have hnames : (removeKey IrcChannel.id ch.id s.rooms).map (fun ch => (ch.id, ch.name)) =
        removeKey Prod.fst ch.id s.names := by
      unfold removeKey IrcState.names
      rw [List.filter_map]
      rfl
    rw [hnames]
    exact hdeleted
  · exact Within.refl s

theorem Within.trans {s'' : IrcState κ} (h : Within key s s') (h' : Within key s' s'') :
    Within key s s'' := ⟨h.same.trans h'.same, fun hrooms => h'.rooms (h.rooms hrooms)⟩

theorem within_leaving : Leaving key (Within (κ := κ) key) where
  refl := Within.refl
  trans := Within.trans
  channel s id n := by
    refine ⟨⟨rfl, rfl, rfl, rfl⟩, fun h => ?_⟩
    have hnames := names_setChannel s id
      (f := fun ch => { ch with client := swapRemove ch.client n, cflag := swapRemove ch.cflag n })
      (fun _ => ⟨rfl, rfl⟩)
    rw [← hnames] at h
    exact h
  client _ _ _ := ⟨⟨plain_setClient (fun _ => rfl), rfl, rfl, rfl⟩, id⟩
  delete := ircDeleteChannel_within

theorem ircClientFlag_within {channel : Nat} {cflag : UInt32} {change : ModeChange}
    (hflag : ircClientFlag s channel cflag change = some s') : Within key s s' := by
  unfold ircClientFlag at hflag
  obtain ⟨ch, -, hflag⟩ := Option.bind_eq_some_iff.mp hflag
  split_ifs at hflag
  · obtain rfl := Option.some.inj hflag
    exact Within.refl s
  · split at hflag
    · obtain rfl := Option.some.inj hflag
      exact Within.refl s
    · next i _ =>
      obtain ⟨victim, -, rfl⟩ := Option.map_eq_some_iff.mp hflag
      refine ⟨⟨rfl, rfl, rfl, rfl⟩, fun h => ?_⟩
      have hnames := names_setChannel s channel
        (f := fun ch => { ch with cflag := ch.cflag.modify i change.changed })
        (fun _ => ⟨rfl, rfl⟩)
      rw [← hnames] at h
      exact h

theorem within_composes (limit : Int) : Composes limit key (Within key) :=
  { refl := Within.refl, trans := Within.trans, leave := within_leaving.leaveChannel,
    flag := ircClientFlag_within, join := ircJoinChannel_within }

/-! ## Entries of clients -/

/-- The entries of the hash are registered clients, under their nicks. -/
structure Named (key : List UInt8 → κ) (clients : List (κ × Nat)) (live : List IrcClient) :
    Prop where
  ids : Keyed IrcClient.id live
  keys : Keyed Prod.fst clients
  entry : ∀ e ∈ clients, ∃ c ∈ live, c.id = e.2 ∧ c.registered = true ∧ c.nick.map key = some e.1
  flagged : ∀ c ∈ live, c.registered = true → c.flag.nick = true
  text : ∀ c ∈ live, ∀ nick, c.nick = some nick → 0 ∉ nick

namespace Named

variable {clients clients' : List (κ × Nat)} {live : List IrcClient} {c : IrcClient}
  {f : IrcClient → IrcClient}

theorem of_entry (h : Named key clients live) (hc : c ∈ live) {e : κ × Nat} (he : e ∈ clients)
    (hid : e.2 = c.id) : c.registered = true ∧ c.nick.map key = some e.1 := by
  obtain ⟨a, ha, hsame, hown⟩ := h.entry e he
  obtain rfl := h.ids.eq_of_key ha hc (hsame.trans hid)
  exact hown

/-- One client changes, and in the hash only its entry. -/
theorem update (h : Named key clients live) (hc : findKey IrcClient.id c.id live = some c)
    (hf : ∀ a, (f a).id = a.id) (hkeys : Keyed Prod.fst clients')
    (hentry : ∀ e ∈ clients', e ∈ clients ∧ e.2 ≠ c.id ∨
      e.2 = c.id ∧ (f c).registered = true ∧ (f c).nick.map key = some e.1)
    (hflag : (f c).registered = true → (f c).flag.nick = true)
    (htext : ∀ nick, (f c).nick = some nick → 0 ∉ nick) :
    Named key clients' (modifyKey IrcClient.id c.id f live) := by
  have hmem (a : IrcClient) : a ∈ modifyKey IrcClient.id c.id f live ↔
      a = f c ∨ a ∈ live ∧ a.id ≠ c.id := mem_modifyKey h.ids hc
  refine ⟨h.ids.modifyKey c.id hf, hkeys, fun e he => ?_, fun a ha => ?_, fun a ha => ?_⟩
  · rcases hentry e he with ⟨he, hne⟩ | ⟨hid, hown⟩
    · obtain ⟨a, ha, hid, hown⟩ := h.entry e he
      exact ⟨a, (hmem a).mpr (Or.inr ⟨ha, hid ▸ hne⟩), hid, hown⟩
    · exact ⟨f c, (hmem _).mpr (Or.inl rfl), (hf c).trans hid.symm, hown⟩
  · rcases (hmem a).mp ha with rfl | ⟨ha, -⟩
    · exact hflag
    · exact h.flagged a ha
  · rcases (hmem a).mp ha with rfl | ⟨ha, -⟩
    · exact htext
    · exact h.text a ha

theorem flags (h : Named key clients live) (hc : findKey IrcClient.id c.id live = some c)
    (hf : ∀ a, (f a).id = a.id)
    (hkeep : (f c).nick = c.nick ∧ (f c).registered = c.registered ∧
      (f c).flag.nick = c.flag.nick) :
    Named key clients (modifyKey IrcClient.id c.id f live) := by
  obtain ⟨hmem, -⟩ := findKey_mem hc
  obtain ⟨hnick, hregistered, hflag⟩ := hkeep
  apply h.update hc hf h.keys
  · intro e he
    by_cases hid : e.2 = c.id
    · rw [hregistered, hnick]
      exact Or.inr ⟨hid, h.of_entry hmem he hid⟩
    · exact Or.inl ⟨he, hid⟩
  · rw [hregistered, hflag]
    exact h.flagged c hmem
  · rw [hnick]
    exact h.text c hmem

theorem named (h : Named key clients live) (hc : findKey IrcClient.id c.id live = some c)
    (hf : ∀ a, (f a).id = a.id) (hnot : c.registered = false)
    (hkeep : (f c).registered = c.registered)
    (htext : ∀ nick, (f c).nick = some nick → 0 ∉ nick) :
    Named key clients (modifyKey IrcClient.id c.id f live) := by
  obtain ⟨hmem, -⟩ := findKey_mem hc
  apply h.update hc hf h.keys
  · intro e he
    refine Or.inl ⟨he, fun hid => ?_⟩
    have htrue := (h.of_entry hmem he hid).1
    rw [hnot] at htrue
    exact Bool.false_ne_true htrue
  · intro htrue
    rw [hkeep, hnot] at htrue
    exact absurd htrue Bool.false_ne_true
  · exact htext

theorem entered (h : Named key clients live) {nick : List UInt8}
    (hc : findKey IrcClient.id c.id live = some c) (hf : ∀ a, (f a).id = a.id)
    (hothers : ∀ e ∈ clients', e ∈ clients ∧ e.2 ≠ c.id) (hkeys : Keyed Prod.fst clients')
    (hfree : findKey Prod.fst (key nick) clients' = none)
    (hkeep : (f c).nick = some nick ∧ (f c).flag.nick = true ∧ (f c).registered = true)
    (htext : 0 ∉ nick) :
    Named key (putKey (key nick) c.id clients') (modifyKey IrcClient.id c.id f live) := by
  obtain ⟨hnick, hflag, hregistered⟩ := hkeep
  have hput : putKey (key nick) c.id clients' = (key nick, c.id) :: clients' := by
    rw [putKey, removeKey_of_ne (findKey_none.mp hfree)]
  rw [hput]
  apply h.update hc hf (hkeys.cons hfree)
  · intro e he
    rcases List.mem_cons.mp he with rfl | he
    · refine Or.inr ⟨rfl, hregistered, ?_⟩
      rw [hnick, Option.map_some]
    · exact Or.inl (hothers e he)
  · exact fun _ => hflag
  · intro other hother
    rw [Option.some.inj (hnick.symm.trans hother)] at htext
    exact htext

theorem connect (h : Named key clients live) (hfresh : findKey IrcClient.id c.id live = none)
    (hregistered : c.registered = false) (hnick : c.nick = none) :
    Named key clients (c :: live) := by
  refine ⟨h.ids.cons hfresh, h.keys, fun e he => ?_, fun a ha => ?_, fun a ha nick hsome => ?_⟩
  · obtain ⟨a, ha, hown⟩ := h.entry e he
    exact ⟨a, List.mem_cons_of_mem _ ha, hown⟩
  · rcases List.mem_cons.mp ha with rfl | ha
    · intro htrue
      rw [hregistered] at htrue
      exact absurd htrue Bool.false_ne_true
    · exact h.flagged a ha
  · rcases List.mem_cons.mp ha with rfl | ha
    · rw [hnick] at hsome
      exact absurd hsome.symm (Option.some_ne_none nick)
    · exact h.text a ha nick hsome

/-- A client goes, and the entry under its nick, whoever it belongs to. -/
theorem deleted (h : Named key clients live) (hc : c ∈ live) :
    Named key
      (match c.nick with
        | some nick => removeKey Prod.fst (key nick) clients
        | none => clients)
      (removeKey IrcClient.id c.id live) := by
  have hsub : ∀ e, e ∈ (match c.nick with
      | some nick => removeKey Prod.fst (key nick) clients
      | none => clients) → e ∈ clients ∧ e.2 ≠ c.id := by
    intro e he
    cases hnick : c.nick with
    | none =>
      rw [hnick] at he
      refine ⟨he, fun hid => ?_⟩
      have hown := (h.of_entry hc he hid).2
      rw [hnick] at hown
      exact absurd hown.symm (Option.some_ne_none _)
    | some nick =>
      rw [hnick] at he
      obtain ⟨he, hne⟩ := mem_removeKey.mp he
      refine ⟨he, fun hid => hne ?_⟩
      have hown := (h.of_entry hc he hid).2
      rw [hnick] at hown
      exact (Option.some.inj hown).symm
  refine ⟨h.ids.removeKey c.id, ?_, fun e he => ?_, fun a ha => ?_, fun a ha => ?_⟩
  · split
    · exact h.keys.removeKey _
    · exact h.keys
  · obtain ⟨he, hne⟩ := hsub e he
    obtain ⟨a, ha, hid, hown⟩ := h.entry e he
    exact ⟨a, mem_removeKey.mpr ⟨ha, hid ▸ hne⟩, hid, hown⟩
  · exact h.flagged a (mem_removeKey.mp ha).1
  · exact h.text a (mem_removeKey.mp ha).1

end Named

/-! ## Steps -/

structure Entered (key : List UInt8 → κ) (s : IrcState κ) : Prop where
  rooms : Rooms key s.channels s.names
  named : Named key s.clients (s.live.map IrcClient.plain)

namespace Entered

theorem live (h : Entered key s) : Keyed IrcClient.id s.live := by
  have hplain := h.named.ids
  unfold Keyed at hplain
  rwa [List.map_map] at hplain

theorem rooms_keyed (h : Entered key s) : Keyed IrcChannel.id s.rooms := by
  have hnames := h.rooms.ids
  unfold Keyed IrcState.names at hnames
  rwa [List.map_map] at hnames

/-- A channel is found under the names that are the same as its own. -/
theorem findChannel_iff (h : Entered key s) {chan : List UInt8} {id : Nat} :
    ircFindChannel key s chan = some id ↔
      ∃ ch, s.channelAt id = some ch ∧ key ch.name = key chan := by
  constructor
  · intro hfind
    obtain ⟨e, he, rfl⟩ := Option.map_eq_some_iff.mp hfind
    obtain ⟨hmem, hkey⟩ := findKey_mem he
    obtain ⟨name, hname, hsame⟩ := h.rooms.entry e hmem
    obtain ⟨ch, hch, hpair⟩ := List.mem_map.mp hname
    obtain ⟨hid, rfl⟩ := Prod.mk.inj hpair
    exact ⟨ch, findKey_of_mem h.rooms_keyed hch hid, hsame.trans hkey⟩
  · rintro ⟨ch, hch, hkey⟩
    obtain ⟨hmem, rfl⟩ := channelAt_mem hch
    have hentry : (key ch.name, ch.id) ∈ s.channels :=
      h.rooms.entered (ch.id, ch.name) (List.mem_map_of_mem hmem)
    rw [ircFindChannel, findKey_of_mem h.rooms.keys hentry hkey]
    rfl

theorem of_within (h : Entered key s) (hwithin : Within key s s') : Entered key s' := by
  refine ⟨hwithin.rooms h.rooms, ?_⟩
  rw [hwithin.same.clients, hwithin.same.live]
  exact h.named

theorem change (h : Entered key s) {id : Nat} {f : IrcClient → IrcClient}
    (hlive : s'.live = modifyKey IrcClient.id id f s.live) (hplain : ∀ a, (f a).plain = f a.plain)
    (hchannels : s'.channels = s.channels) (hrooms : s'.rooms = s.rooms)
    (hnamed : Named key s'.clients (modifyKey IrcClient.id id f (s.live.map IrcClient.plain))) :
    Entered key s' := by
  refine ⟨?_, ?_⟩
  · unfold IrcState.names
    rw [hchannels, hrooms]
    exact h.rooms
  · rw [hlive, map_modifyKey_comm (g := IrcClient.plain) (fun _ => rfl) hplain]
    exact hnamed

theorem delete (h : Entered key s) {c : IrcClient} (hc : c ∈ s.live) :
    Entered key (ircDeleteClient key s c) := by
  refine ⟨h.rooms, ?_⟩
  show Named key _ ((removeKey IrcClient.id c.id s.live).map IrcClient.plain)
  rw [map_removeKey (g := IrcClient.plain) (fun _ => rfl)]
  exact h.named.deleted (c := c.plain) (List.mem_map_of_mem hc)

theorem leave (h : Entered key s) {c : IrcClient} (hleave : ircLeaveAllChannels key s c = some s') :
    Entered key s' := by
  obtain ⟨s₁, c₁, hwithin, hc₁, rfl⟩ := (within_composes 0).leaveAllChannels hleave
  have hdelete := (h.of_within hwithin).delete (clientAt_mem hc₁).1
  exact ⟨hdelete.rooms, hdelete.named⟩

end Entered

theorem ircGetNick_notMem (text : List UInt8) : 0 ∉ ircGetNick text := by
  unfold ircGetNick
  split
  · exact List.not_mem_nil
  · split
    · exact List.not_mem_nil
    · intro hmem
      exact absurd (List.all_eq_true.mp List.all_takeWhile 0 hmem) (by decide)

theorem ircNickCallback_entered (h : Entered key s) {c : IrcClient}
    (hc : s.clientAt c.id = some c) {nick : Option (List UInt8)}
    (hnick : ircNickCallback key s c nick = some s') : Entered key s' := by
  have hmem : c.plain ∈ s.live.map IrcClient.plain := List.mem_map_of_mem (clientAt_mem hc).1
  rcases ircNickCallback_cases hnick with rfl | ⟨text, clients, -, hunused, rfl,
    ⟨-, hregistered, old, hold, rfl⟩ | ⟨hchange, rfl⟩⟩
  · exact h
  · have hfree := findNick_none.mp hunused
    refine h.change rfl (fun _ => rfl) rfl rfl ?_
    apply h.named.entered (c := c.plain) (plain_clientAt hc)
    · exact fun _ => rfl
    · intro e he
      obtain ⟨he, hne⟩ := mem_removeKey.mp he
      refine ⟨he, fun hid => hne ?_⟩
      have hown := (h.named.of_entry hmem he hid).2
      rw [show c.plain.nick = some old from hold] at hown
      exact (Option.some.inj hown).symm
    · exact h.named.keys.removeKey (key old)
    · exact findKey_none.mpr (fun e he => findKey_none.mp hfree e (mem_removeKey.mp he).1)
    · exact ⟨rfl, rfl, hregistered⟩
    · exact ircGetNick_notMem text
  · have hnot : c.registered = false := Bool.eq_false_iff.mpr
      (fun htrue => hchange ⟨h.named.flagged c.plain hmem htrue, htrue⟩)
    refine h.change rfl (fun _ => rfl) rfl rfl ?_
    apply h.named.named (c := c.plain) (plain_clientAt hc)
    · exact fun _ => rfl
    · exact hnot
    · rfl
    · intro nick hsome
      exact Option.some.inj hsome ▸ ircGetNick_notMem text

theorem ircAddClient_entered (h : Entered key s) {c : IrcClient} {clients : List (κ × Nat)}
    (hc : s.clientAt c.id = some c) (hnot : c.registered = false) (hflag : c.flag.nick = true)
    (hadd : ircAddClient key s c = { s with clients := clients }) :
    Entered key ({ s with clients := clients }.setClient c.id
      (fun c => { c with registered := true })) := by
  have hmem : c.plain ∈ s.live.map IrcClient.plain := List.mem_map_of_mem (clientAt_mem hc).1
  have hothers : ∀ e ∈ s.clients, e ∈ s.clients ∧ e.2 ≠ c.id := by
    intro e he
    refine ⟨he, fun hid => ?_⟩
    have htrue : c.registered = true := (h.named.of_entry hmem he hid).1
    rw [hnot] at htrue
    exact Bool.false_ne_true htrue
  -- the client has no entry if its nick is taken
  have hkept (hsame : s = { s with clients := clients }) :
      Entered key ({ s with clients := clients }.setClient c.id
        (fun c => { c with registered := true })) := by
    rw [← hsame]
    refine h.change rfl (fun _ => rfl) rfl rfl ?_
    apply h.named.update (c := c.plain) (plain_clientAt hc)
    · exact fun _ => rfl
    · exact h.named.keys
    · exact fun e he => Or.inl (hothers e he)
    · exact fun _ => hflag
    · exact h.named.text c.plain hmem
  unfold ircAddClient at hadd
  cases hnick : c.nick with
  | none =>
    rw [hnick] at hadd
    exact hkept hadd
  | some nick =>
    rw [hnick] at hadd
    dsimp only at hadd
    split_ifs at hadd with hused
    · exact hkept hadd
    · obtain rfl : putKey (key nick) c.id s.clients = clients := congrArg IrcState.clients hadd
      refine h.change rfl (fun _ => rfl) rfl rfl ?_
      apply h.named.entered (c := c.plain) (plain_clientAt hc)
      · exact fun _ => rfl
      · exact hothers
      · exact h.named.keys
      · exact findNick_none.mp (Option.not_isSome_iff_eq_none.mp hused)
      · exact ⟨hnick, hflag, rfl⟩
      · exact h.named.text c.plain hmem nick hnick

theorem ircStep_entered {cfg : IrcConfig} {event : IrcEvent} (h : Entered key s)
    (hstep : ircStep cfg key s event = some s') : Entered key s' := by
  cases ircStep_effect hstep with
  | @comes sock addr hsock haddr =>
    refine ⟨h.rooms, h.named.connect (c := ⟨addr, sock, none, _, false, []⟩) ?_ rfl rfl⟩
    rw [findKey_map (g := IrcClient.plain) (fun _ => rfl)]
    exact congrArg (Option.map IrcClient.plain) haddr
  | @flags _ sock c f hc hf =>
    refine h.change rfl (fun _ => rfl) rfl rfl ?_
    apply h.named.flags (c := c.plain) (plain_clientAt (clientOf_mem hc).2.1)
    · exact fun _ => rfl
    · exact ⟨rfl, rfl, hf c.flag⟩
  | named hc hnick => exact ircNickCallback_entered h (clientOf_mem hc).2.1 hnick
  | enrolls hc hnot hflag hadd =>
    exact ircAddClient_entered h (clientOf_mem hc).2.1 hnot (UMode.nick_of_registered hflag) hadd
  | deleted hc hwrong => exact h.delete (clientOf_mem hc).1
  | joins hall => exact h.of_within (hall (within_composes _))
  | parts hall => exact h.of_within (hall (within_composes 0).toParting)
  | quits hc hleave => exact h.leave hleave
  | closed hdata => exact ⟨h.rooms, h.named⟩
  | disconnects hc hleave =>
    have hleft := h.leave hleave
    exact ⟨hleft.rooms, hleft.named⟩

theorem entered_start : Entered key (startIrc : IrcState κ) := by
  constructor
  · exact ⟨List.nodup_nil, List.nodup_nil, fun _ he => absurd he List.not_mem_nil,
      fun _ he => absurd he List.not_mem_nil⟩
  · exact ⟨List.nodup_nil, List.nodup_nil, fun _ he => absurd he List.not_mem_nil,
      fun _ he => absurd he List.not_mem_nil, fun _ he => absurd he List.not_mem_nil⟩

theorem ircRun_entered {cfg : IrcConfig} {events : List IrcEvent}
    (hrun : ircRun cfg key events = some s) : Entered key s :=
  reached_invariant (fun _ _ _ (h : Entered key _) hstep => ircStep_entered h hstep) entered_start
    hrun

end Serveez.Irc
