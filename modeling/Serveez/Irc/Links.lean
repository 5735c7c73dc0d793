import Serveez.Irc.Commands

/-!
# Links between clients and channels

`Linked` says that clients and channels point to each other, and to structures that have not been
freed; it also keeps the hash of channels and the connections. The changes of the state are
followed one by one:

* `Linked.relink`: a client and a channel are linked, or are not linked any more.
* `Linked.opened`, `Linked.drop`: a channel without clients comes and goes.
* `Linked.connect`, `Linked.delete`: a client without channels comes and goes.
-/

set_option linter.unusedSectionVars false

namespace Serveez.Irc

open Lib

variable {κ : Type} [DecidableEq κ] {key : List UInt8 → κ} {s s' : IrcState κ}

structure Linked (key : List UInt8 → κ) (s : IrcState κ) : Prop where
  live : Keyed IrcClient.id s.live
  rooms : Keyed IrcChannel.id s.rooms
  names : Keyed Prod.fst s.channels
  entry : ∀ ch ∈ s.rooms, (key ch.name, ch.id) ∈ s.channels
  room : ∀ e ∈ s.channels, ∃ ch ∈ s.rooms, e = (key ch.name, ch.id)
  both : ∀ c ∈ s.live, ∀ ch ∈ s.rooms, c.id ∈ ch.client ↔ ch.id ∈ c.channel
  clientNodup : ∀ ch ∈ s.rooms, ch.client.Nodup
  channelNodup : ∀ c ∈ s.live, c.channel.Nodup
  joined : ∀ c ∈ s.live, ∀ id ∈ c.channel, ∃ ch ∈ s.rooms, ch.id = id
  member : ∀ ch ∈ s.rooms, ∀ id ∈ ch.client, ∃ c ∈ s.live, c.id = id
  data : ∀ c ∈ s.live, s.data c.sock = some (some c.id)
  cflag : ∀ ch ∈ s.rooms, ch.cflag = ch.client.map (s.given ch.id)

/-- Every channel has a client. -/
def Occupied (s : IrcState κ) : Prop := ∀ ch ∈ s.rooms, ch.client ≠ []

variable {id : Nat} {c : IrcClient} {ch : IrcChannel}

theorem clientAt_mem (h : s.clientAt id = some c) :
    c ∈ s.live ∧ c.id = id := findKey_mem h

theorem channelAt_mem (h : s.channelAt id = some ch) :
    ch ∈ s.rooms ∧ ch.id = id := findKey_mem h

theorem clientOf_mem {sock : Nat} (h : s.clientOf sock = some c) :
    c ∈ s.live ∧ s.clientAt c.id = some c ∧ s.data sock = some (some c.id) := by
  unfold IrcState.clientOf at h
  split at h
  · next id hdata =>
    obtain ⟨hmem, rfl⟩ := clientAt_mem h
    exact ⟨hmem, h, hdata⟩
  · exact nomatch h

namespace Linked

theorem clientAt_iff (h : Linked key s) :
    s.clientAt id = some c ↔ c ∈ s.live ∧ c.id = id :=
  ⟨findKey_mem, fun hc => findKey_of_mem h.live hc.1 hc.2⟩

theorem channelAt_iff (h : Linked key s) :
    s.channelAt id = some ch ↔ ch ∈ s.rooms ∧ ch.id = id :=
  ⟨findKey_mem, fun hch => findKey_of_mem h.rooms hch.1 hch.2⟩

theorem of_live (h : Linked key s) {f : IrcClient → IrcClient}
    (hf : ∀ a, (f a).id = a.id ∧ (f a).sock = a.sock ∧ (f a).channel = a.channel)
    (hlive : s'.live = modifyKey IrcClient.id id f s.live) (hrooms : s'.rooms = s.rooms)
    (hchannels : s'.channels = s.channels) (hdata : s'.data = s.data)
    (hgiven : s'.given = s.given) : Linked key s' := by
  have hback : ∀ c ∈ s'.live, ∃ c₀ ∈ s.live, c.id = c₀.id ∧ c.sock = c₀.sock ∧
      c.channel = c₀.channel := by
    intro c hc
    rw [hlive] at hc
    obtain ⟨c₀, hc₀, rfl⟩ := List.mem_map.mp hc
    refine ⟨c₀, hc₀, ?_⟩
    split
    · exact hf c₀
    · exact ⟨rfl, rfl, rfl⟩
  constructor
  · rw [hlive]
    exact h.live.modifyKey id (fun a => (hf a).1)
  · rw [hrooms]
    exact h.rooms
  · rw [hchannels]
    exact h.names
  · rw [hrooms, hchannels]
    exact h.entry
  · rw [hrooms, hchannels]
    exact h.room
  · intro c hc ch hch
    obtain ⟨c₀, hc₀, hid, -, hchannel⟩ := hback c hc
    rw [hid, hchannel]
    exact h.both c₀ hc₀ ch (hrooms ▸ hch)
  · rw [hrooms]
    exact h.clientNodup
  · intro c hc
    obtain ⟨c₀, hc₀, -, -, hchannel⟩ := hback c hc
    rw [hchannel]
    exact h.channelNodup c₀ hc₀
  · intro c hc id hid
    obtain ⟨c₀, hc₀, -, -, hchannel⟩ := hback c hc
    rw [hrooms]
    exact h.joined c₀ hc₀ id (hchannel ▸ hid)
  · intro ch hch id hid
    obtain ⟨c₀, hc₀, rfl⟩ := h.member ch (hrooms ▸ hch) id hid
    rw [hlive]
    refine ⟨_, List.mem_map_of_mem hc₀, ?_⟩
    split
    · exact (hf c₀).1
    · rfl
  · intro c hc
    obtain ⟨c₀, hc₀, hid, hsock, -⟩ := hback c hc
    rw [hid, hsock, hdata]
    exact h.data c₀ hc₀
  · rw [hrooms, hgiven]
    exact h.cflag

/-- A client and a channel get new links between them; all other links stay. -/
theorem relink (h : Linked key s) {f : IrcClient → IrcClient} {g : IrcChannel → IrcChannel}
    (hc : s.clientAt c.id = some c) (hch : s.channelAt ch.id = some ch)
    (hlive : s'.live = modifyKey IrcClient.id c.id f s.live)
    (hrooms : s'.rooms = modifyKey IrcChannel.id ch.id g s.rooms)
    (hchannels : s'.channels = s.channels) (hdata : s'.data = s.data)
    (hgiven : ∀ id, id ≠ ch.id → s'.given id = s.given id)
    (hf : ∀ a, (f a).id = a.id ∧ (f a).sock = a.sock)
    (hg : ∀ a, (g a).id = a.id ∧ (g a).name = a.name)
    (hjoined : ∀ id, id ≠ ch.id → (id ∈ (f c).channel ↔ id ∈ c.channel))
    (hmember : ∀ id, id ≠ c.id → (id ∈ (g ch).client ↔ id ∈ ch.client))
    (hboth : c.id ∈ (g ch).client ↔ ch.id ∈ (f c).channel) (hchannel : (f c).channel.Nodup)
    (hclient : (g ch).client.Nodup) (hcflag : (g ch).cflag = (g ch).client.map (s'.given ch.id)) :
    Linked key s' := by
  obtain ⟨hcmem, -⟩ := clientAt_mem hc
  obtain ⟨hchmem, -⟩ := channelAt_mem hch
  have hmemc (a : IrcClient) : a ∈ s'.live ↔ a = f c ∨ a ∈ s.live ∧ a.id ≠ c.id := by
    rw [hlive]
    exact mem_modifyKey h.live hc
  have hmemch (a : IrcChannel) : a ∈ s'.rooms ↔ a = g ch ∨ a ∈ s.rooms ∧ a.id ≠ ch.id := by
    rw [hrooms]
    exact mem_modifyKey h.rooms hch
  have hroom {id : Nat} (hid : ∃ a ∈ s.rooms, a.id = id) : ∃ a ∈ s'.rooms, a.id = id := by
    obtain ⟨a, ha, rfl⟩ := hid
    by_cases hsame : a.id = ch.id
    · exact ⟨g ch, (hmemch _).mpr (Or.inl rfl), (hg ch).1.trans hsame.symm⟩
    · exact ⟨a, (hmemch a).mpr (Or.inr ⟨ha, hsame⟩), rfl⟩
  have hlives {id : Nat} (hid : ∃ a ∈ s.live, a.id = id) : ∃ a ∈ s'.live, a.id = id := by
    obtain ⟨a, ha, rfl⟩ := hid
    by_cases hsame : a.id = c.id
    · exact ⟨f c, (hmemc _).mpr (Or.inl rfl), (hf c).1.trans hsame.symm⟩
    · exact ⟨a, (hmemc a).mpr (Or.inr ⟨ha, hsame⟩), rfl⟩
  constructor
  · rw [hlive]
    exact h.live.modifyKey c.id (fun a => (hf a).1)
  · rw [hrooms]
    exact h.rooms.modifyKey ch.id (fun a => (hg a).1)
  · rw [hchannels]
    exact h.names
  · intro a ha
    rw [hchannels]
    rcases (hmemch a).mp ha with rfl | ⟨ha, -⟩
    · rw [(hg ch).1, (hg ch).2]
      exact h.entry ch hchmem
    · exact h.entry a ha
  · intro e he
    rw [hchannels] at he
    obtain ⟨a, ha, rfl⟩ := h.room e he
    by_cases hsame : a.id = ch.id
    · obtain rfl := h.rooms.eq_of_key ha hchmem hsame
      exact ⟨g a, (hmemch _).mpr (Or.inl rfl), by rw [(hg a).1, (hg a).2]⟩
    · exact ⟨a, (hmemch a).mpr (Or.inr ⟨ha, hsame⟩), rfl⟩
  · intro a ha b hb
    rcases (hmemc a).mp ha with rfl | ⟨ha, hane⟩ <;>
      rcases (hmemch b).mp hb with rfl | ⟨hb, hbne⟩
    · rw [(hf c).1, (hg ch).1]
      exact hboth
    · rw [(hf c).1, hjoined b.id hbne]
      exact h.both c hcmem b hb
    · rw [(hg ch).1, hmember a.id hane]
      exact h.both a ha ch hchmem
    · exact h.both a ha b hb
  · intro b hb
    rcases (hmemch b).mp hb with rfl | ⟨hb, -⟩
    · exact hclient
    · exact h.clientNodup b hb
  · intro a ha
    rcases (hmemc a).mp ha with rfl | ⟨ha, -⟩
    · exact hchannel
    · exact h.channelNodup a ha
  · intro a ha id hid
    apply hroom
    rcases (hmemc a).mp ha with rfl | ⟨ha, -⟩
    · by_cases hsame : id = ch.id
      · exact ⟨ch, hchmem, hsame.symm⟩
      · exact h.joined c hcmem id ((hjoined id hsame).mp hid)
    · exact h.joined a ha id hid
  · intro b hb id hid
    apply hlives
    rcases (hmemch b).mp hb with rfl | ⟨hb, -⟩
    · by_cases hsame : id = c.id
      · exact ⟨c, hcmem, hsame.symm⟩
      · exact h.member ch hchmem id ((hmember id hsame).mp hid)
    · exact h.member b hb id hid
  · intro a ha
    rw [hdata]
    rcases (hmemc a).mp ha with rfl | ⟨ha, -⟩
    · rw [(hf c).1, (hf c).2]
      exact h.data c hcmem
    · exact h.data a ha
  · intro b hb
    rcases (hmemch b).mp hb with rfl | ⟨hb, hbne⟩
    · rw [(hg ch).1]
      exact hcflag
    · rw [hgiven b.id hbne]
      exact h.cflag b hb

/-- A new channel, without clients. -/
theorem opened (h : Linked key s) {chan : List UInt8} {addr : Nat}
    (hname : ircFindChannel key s chan = none) (haddr : s.channelAt addr = none)
    (hlive : s'.live = s.live) (hrooms : s'.rooms = ⟨addr, chan, [], []⟩ :: s.rooms)
    (hchannels : s'.channels = putKey (key chan) addr s.channels) (hdata : s'.data = s.data)
    (hgiven : s'.given = s.given) : Linked key s' := by
  have hfree : ∀ e ∈ s.channels, e.1 ≠ key chan :=
    findKey_none.mp (Option.map_eq_none_iff.mp hname)
  have hnew : ∀ ch ∈ s.rooms, ch.id ≠ addr := findKey_none.mp haddr
  have hput : s'.channels = (key chan, addr) :: s.channels := by
    rw [hchannels, putKey, removeKey_of_ne hfree]
  constructor
  · rw [hlive]
    exact h.live
  · rw [hrooms]
    exact h.rooms.cons haddr
  · rw [hput]
    exact h.names.cons (findKey_none.mpr hfree)
  · intro ch hch
    rw [hrooms] at hch
    rw [hput]
    rcases List.mem_cons.mp hch with rfl | hch
    · exact List.mem_cons_self
    · exact List.mem_cons_of_mem _ (h.entry ch hch)
  · intro e he
    rw [hput] at he
    rw [hrooms]
    rcases List.mem_cons.mp he with rfl | he
    · exact ⟨_, List.mem_cons_self, rfl⟩
    · obtain ⟨ch, hch, rfl⟩ := h.room e he
      exact ⟨ch, List.mem_cons_of_mem _ hch, rfl⟩
  · intro c hc ch hch
    rw [hlive] at hc
    rw [hrooms] at hch
    rcases List.mem_cons.mp hch with rfl | hch
    · refine iff_of_false List.not_mem_nil (fun hid => ?_)
      obtain ⟨ch, hch, hsame⟩ := h.joined c hc _ hid
      exact hnew ch hch hsame
    · exact h.both c hc ch hch
  · intro ch hch
    rw [hrooms] at hch
    rcases List.mem_cons.mp hch with rfl | hch
    · exact List.nodup_nil
    · exact h.clientNodup ch hch
  · rw [hlive]
    exact h.channelNodup
  · intro c hc id hid
    obtain ⟨ch, hch, hsame⟩ := h.joined c (hlive ▸ hc) id hid
    rw [hrooms]
    exact ⟨ch, List.mem_cons_of_mem _ hch, hsame⟩
  · intro ch hch id hid
    rw [hlive]
    rw [hrooms] at hch
    rcases List.mem_cons.mp hch with rfl | hch
    · exact absurd hid List.not_mem_nil
    · exact h.member ch hch id hid
  · rw [hlive, hdata]
    exact h.data
  · intro ch hch
    rw [hgiven]
    rw [hrooms] at hch
    rcases List.mem_cons.mp hch with rfl | hch
    · rfl
    · exact h.cflag ch hch

theorem drop (h : Linked key s) (hch : s.channelAt ch.id = some ch) (hempty : ch.client = [])
    (hlive : s'.live = s.live) (hrooms : s'.rooms = removeKey IrcChannel.id ch.id s.rooms)
    (hchannels : s'.channels = removeKey Prod.fst (key ch.name) s.channels)
    (hdata : s'.data = s.data) (hgiven : s'.given = s.given) : Linked key s' := by
  obtain ⟨hchmem, -⟩ := channelAt_mem hch
  have hmem (a : IrcChannel) : a ∈ s'.rooms ↔ a ∈ s.rooms ∧ a.id ≠ ch.id := by
    rw [hrooms]
    exact mem_removeKey
  have hname (a : IrcChannel) (ha : a ∈ s.rooms) : key a.name = key ch.name ↔ a.id = ch.id := by
    constructor
    · intro hsame
      exact congrArg Prod.snd (h.names.eq_of_key (h.entry a ha) (h.entry ch hchmem) hsame)
    · intro hsame
      rw [h.rooms.eq_of_key ha hchmem hsame]
  constructor
  · rw [hlive]
    exact h.live
  · rw [hrooms]
    exact h.rooms.removeKey ch.id
  · rw [hchannels]
    exact h.names.removeKey (key ch.name)
  · intro a ha
    obtain ⟨ha, hne⟩ := (hmem a).mp ha
    rw [hchannels]
    exact mem_removeKey.mpr ⟨h.entry a ha, fun hsame => hne ((hname a ha).mp hsame)⟩
  · intro e he
    rw [hchannels] at he
    obtain ⟨he, hne⟩ := mem_removeKey.mp he
    obtain ⟨a, ha, rfl⟩ := h.room e he
    exact ⟨a, (hmem a).mpr ⟨ha, fun hsame => hne ((hname a ha).mpr hsame)⟩, rfl⟩
  · intro c hc a ha
    exact h.both c (hlive ▸ hc) a ((hmem a).mp ha).1
  · exact fun a ha => h.clientNodup a ((hmem a).mp ha).1
  · rw [hlive]
    exact h.channelNodup
  · intro c hc id hid
    rw [hlive] at hc
    obtain ⟨a, ha, rfl⟩ := h.joined c hc id hid
    refine ⟨a, (hmem a).mpr ⟨ha, fun hsame => ?_⟩, rfl⟩
    have hin := (h.both c hc a ha).mpr hid
    rw [h.rooms.eq_of_key ha hchmem hsame, hempty] at hin
    exact absurd hin List.not_mem_nil
  · intro a ha id hid
    rw [hlive]
    exact h.member a ((hmem a).mp ha).1 id hid
  · rw [hlive, hdata]
    exact h.data
  · intro a ha
    rw [hgiven]
    exact h.cflag a ((hmem a).mp ha).1

/-- A new client, without channels. -/
theorem connect (h : Linked key s) {sock addr : Nat} (hsock : s.data sock = none)
    (haddr : s.clientAt addr = none) (pass : Bool) :
    Linked key (ircStartAuth pass s sock addr) := by
  have hnew : ∀ c ∈ s.live, c.id ≠ addr := findKey_none.mp haddr
  constructor
  · exact h.live.cons haddr
  · exact h.rooms
  · exact h.names
  · exact h.entry
  · exact h.room
  · intro c hc ch hch
    rcases List.mem_cons.mp hc with rfl | hc
    · refine iff_of_false (fun hid => ?_) List.not_mem_nil
      obtain ⟨c, hc, hsame⟩ := h.member ch hch _ hid
      exact hnew c hc hsame
    · exact h.both c hc ch hch
  · exact h.clientNodup
  · intro c hc
    rcases List.mem_cons.mp hc with rfl | hc
    · exact List.nodup_nil
    · exact h.channelNodup c hc
  · intro c hc id hid
    rcases List.mem_cons.mp hc with rfl | hc
    · exact absurd hid List.not_mem_nil
    · exact h.joined c hc id hid
  · intro ch hch id hid
    obtain ⟨c, hc, hsame⟩ := h.member ch hch id hid
    exact ⟨c, List.mem_cons_of_mem _ hc, hsame⟩
  · intro c hc
    show Function.update s.data sock _ c.sock = _
    rcases List.mem_cons.mp hc with rfl | hc
    · exact Function.update_self _ _ _
    · have hdata := h.data c hc
      rw [Function.update_of_ne (fun hsame => by rw [hsame, hsock] at hdata; exact nomatch hdata)]
      exact hdata
  · exact h.cflag

/-- A client without channels goes. Of the connections only its own may change. -/
theorem delete (h : Linked key s) (hc : c ∈ s.live) (hempty : c.channel = [])
    (hlive : s'.live = removeKey IrcClient.id c.id s.live) (hrooms : s'.rooms = s.rooms)
    (hchannels : s'.channels = s.channels)
    (hdata : ∀ sock, s.data sock ≠ some (some c.id) → s'.data sock = s.data sock)
    (hgiven : s'.given = s.given) : Linked key s' := by
  have hmem (a : IrcClient) : a ∈ s'.live ↔ a ∈ s.live ∧ a.id ≠ c.id := by
    rw [hlive]
    exact mem_removeKey
  constructor
  · rw [hlive]
    exact h.live.removeKey c.id
  · rw [hrooms]
    exact h.rooms
  · rw [hchannels]
    exact h.names
  · rw [hrooms, hchannels]
    exact h.entry
  · rw [hrooms, hchannels]
    exact h.room
  · intro a ha ch hch
    exact h.both a ((hmem a).mp ha).1 ch (hrooms ▸ hch)
  · rw [hrooms]
    exact h.clientNodup
  · exact fun a ha => h.channelNodup a ((hmem a).mp ha).1
  · rw [hrooms]
    exact fun a ha => h.joined a ((hmem a).mp ha).1
  · intro ch hch id hid
    rw [hrooms] at hch
    obtain ⟨a, ha, rfl⟩ := h.member ch hch id hid
    refine ⟨a, (hmem a).mpr ⟨ha, fun hsame => ?_⟩, rfl⟩
    have hjoined := (h.both a ha ch hch).mp hid
    rw [h.live.eq_of_key ha hc hsame, hempty] at hjoined
    exact absurd hjoined List.not_mem_nil
  · intro a ha
    obtain ⟨ha, hne⟩ := (hmem a).mp ha
    rw [hdata a.sock (by rw [h.data a ha]; exact fun hsame => hne (by simpa using hsame))]
    exact h.data a ha
  · rw [hrooms, hgiven]
    exact h.cflag

end Linked

end Serveez.Irc
