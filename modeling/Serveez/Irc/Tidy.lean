import Serveez.Irc.Roll

/-!
# Channels that come and go

Whatever else goes wrong, a client is in the channels that it lists, and no channel is left empty
(`Tidy`). A wrong password may leave a channel with a client that does not exist any more, but not a
client with a channel that does not exist any more.

* `tidy_composes`, `ircStep_tidy`: all steps keep this.
* `ircStep_noNewRooms`: only JOIN makes channels.
* `leaveLoop_channelAt`: which channels are left when a client leaves.
-/

set_option linter.unusedSectionVars false

namespace Serveez.Irc

open Lib

variable {κ : Type} [DecidableEq κ] {key : List UInt8 → κ} {s s' s'' : IrcState κ} {limit : Int}
  {cfg : IrcConfig} {c : IrcClient} {ch : IrcChannel} {channel : Nat}

structure Tidy (s : IrcState κ) : Prop where
  occupied : Occupied s
  clientNodup : ∀ ch ∈ s.rooms, ch.client.Nodup
  channelNodup : ∀ c ∈ s.live, c.channel.Nodup
  member : ∀ c ∈ s.live, ∀ r ∈ c.channel, ∃ ch ∈ s.rooms, ch.id = r ∧ c.id ∈ ch.client

namespace Tidy

/-- A client and a channel change; the channel keeps its other clients. -/
theorem relink (h : Tidy s) (hentered : Entered key s) {f : IrcClient → IrcClient}
    {g : IrcChannel → IrcChannel} (hc : s.clientAt c.id = some c)
    (hch : s.channelAt ch.id = some ch) (hlive : s'.live = modifyKey IrcClient.id c.id f s.live)
    (hrooms : s'.rooms = modifyKey IrcChannel.id ch.id g s.rooms) (hf : ∀ a, (f a).id = a.id)
    (hg : ∀ a, (g a).id = a.id) (hchannel : (f c).channel.Nodup) (hclient : (g ch).client.Nodup)
    (hsome : (g ch).client ≠ [])
    (hjoined : ∀ r ∈ (f c).channel, r = ch.id ∧ c.id ∈ (g ch).client ∨ r ∈ c.channel ∧ r ≠ ch.id)
    (hothers : ∀ id, id ≠ c.id → id ∈ ch.client → id ∈ (g ch).client) : Tidy s' := by
  have hmemc (a : IrcClient) : a ∈ s'.live ↔ a = f c ∨ a ∈ s.live ∧ a.id ≠ c.id := by
    rw [hlive]
    exact mem_modifyKey hentered.live hc
  have hmemch (a : IrcChannel) : a ∈ s'.rooms ↔ a = g ch ∨ a ∈ s.rooms ∧ a.id ≠ ch.id := by
    rw [hrooms]
    exact mem_modifyKey hentered.rooms_keyed hch
  have hgch : g ch ∈ s'.rooms := (hmemch _).mpr (Or.inl rfl)
  refine ⟨fun a ha => ?_, fun a ha => ?_, fun a ha => ?_, fun a ha r hr => ?_⟩
  · rcases (hmemch a).mp ha with rfl | ⟨ha, -⟩
    · exact hsome
    · exact h.occupied a ha
  · rcases (hmemch a).mp ha with rfl | ⟨ha, -⟩
    · exact hclient
    · exact h.clientNodup a ha
  · rcases (hmemc a).mp ha with rfl | ⟨ha, -⟩
    · exact hchannel
    · exact h.channelNodup a ha
  · rcases (hmemc a).mp ha with rfl | ⟨ha, hne⟩
    · rw [hf]
      rcases hjoined r hr with ⟨rfl, hin⟩ | ⟨hr, hne⟩
      · exact ⟨g ch, hgch, hg ch, hin⟩
      · obtain ⟨b, hb, rfl, hin⟩ := h.member c (clientAt_mem hc).1 r hr
        exact ⟨b, (hmemch b).mpr (Or.inr ⟨hb, hne⟩), rfl, hin⟩
    · obtain ⟨b, hb, rfl, hin⟩ := h.member a ha r hr
      by_cases hsame : b.id = ch.id
      · obtain rfl := hentered.rooms_keyed.eq_of_key hb (channelAt_mem hch).1 hsame
        exact ⟨g b, hgch, hg b, hothers a.id hne hin⟩
      · exact ⟨b, (hmemch b).mpr (Or.inr ⟨hb, hsame⟩), rfl, hin⟩

theorem drop (h : Tidy s) (hentered : Entered key s) {f : IrcClient → IrcClient}
    (hc : s.clientAt c.id = some c) (hch : s.channelAt ch.id = some ch)
    (hclient : ch.client = [c.id]) (hlive : s'.live = modifyKey IrcClient.id c.id f s.live)
    (hrooms : s'.rooms = removeKey IrcChannel.id ch.id s.rooms) (hf : ∀ a, (f a).id = a.id)
    (hchannel : (f c).channel.Nodup) (hjoined : ∀ r ∈ (f c).channel, r ∈ c.channel ∧ r ≠ ch.id) :
    Tidy s' := by
  have hmemc (a : IrcClient) : a ∈ s'.live ↔ a = f c ∨ a ∈ s.live ∧ a.id ≠ c.id := by
    rw [hlive]
    exact mem_modifyKey hentered.live hc
  have hmemch (a : IrcChannel) : a ∈ s'.rooms ↔ a ∈ s.rooms ∧ a.id ≠ ch.id := by
    rw [hrooms]
    exact mem_removeKey
  refine ⟨fun a ha => h.occupied a ((hmemch a).mp ha).1,
    fun a ha => h.clientNodup a ((hmemch a).mp ha).1, fun a ha => ?_, fun a ha r hr => ?_⟩
  · rcases (hmemc a).mp ha with rfl | ⟨ha, -⟩
    · exact hchannel
    · exact h.channelNodup a ha
  · rcases (hmemc a).mp ha with rfl | ⟨ha, hne⟩
    · obtain ⟨hr, hne⟩ := hjoined r hr
      obtain ⟨b, hb, rfl, hin⟩ := h.member c (clientAt_mem hc).1 r hr
      rw [hf]
      exact ⟨b, (hmemch b).mpr ⟨hb, hne⟩, rfl, hin⟩
    · obtain ⟨b, hb, rfl, hin⟩ := h.member a ha r hr
      refine ⟨b, (hmemch b).mpr ⟨hb, fun hsame => hne ?_⟩, rfl, hin⟩
      obtain rfl := hentered.rooms_keyed.eq_of_key hb (channelAt_mem hch).1 hsame
      rw [hclient] at hin
      exact List.mem_singleton.mp hin

theorem of_live (h : Tidy s) {f : IrcClient → IrcClient} {id : Nat}
    (hf : ∀ a, (f a).id = a.id ∧ (f a).channel = a.channel)
    (hlive : s'.live = modifyKey IrcClient.id id f s.live) (hrooms : s'.rooms = s.rooms) :
    Tidy s' := by
  have hback : ∀ c ∈ s'.live, ∃ c₀ ∈ s.live, c.id = c₀.id ∧ c.channel = c₀.channel := by
    intro c hc
    rw [hlive] at hc
    obtain ⟨c₀, hc₀, rfl⟩ := List.mem_map.mp hc
    refine ⟨c₀, hc₀, ?_⟩
    split
    · exact hf c₀
    · exact ⟨rfl, rfl⟩
  refine ⟨?_, ?_, fun c hc => ?_, fun c hc r hr => ?_⟩
  · unfold Occupied
    rw [hrooms]
    exact h.occupied
  · rw [hrooms]
    exact h.clientNodup
  · obtain ⟨c₀, hc₀, -, hchannel⟩ := hback c hc
    rw [hchannel]
    exact h.channelNodup c₀ hc₀
  · obtain ⟨c₀, hc₀, hid, hchannel⟩ := hback c hc
    rw [hchannel] at hr
    rw [hid, hrooms]
    exact h.member c₀ hc₀ r hr

/-- A client that is in no channel comes, or clients go. -/
theorem of_sublist (h : Tidy s) (hrooms : s'.rooms = s.rooms)
    (hlive : ∀ c ∈ s'.live, c ∈ s.live ∨ c.channel = []) : Tidy s' := by
  refine ⟨?_, ?_, fun c hc => ?_, fun c hc r hr => ?_⟩
  · unfold Occupied
    rw [hrooms]
    exact h.occupied
  · rw [hrooms]
    exact h.clientNodup
  · rcases hlive c hc with hc | hempty
    · exact h.channelNodup c hc
    · rw [hempty]
      exact List.nodup_nil
  · rcases hlive c hc with hc | hempty
    · rw [hrooms]
      exact h.member c hc r hr
    · rw [hempty] at hr
      exact absurd hr List.not_mem_nil

end Tidy

/-! ## Leaving a channel -/

/-- The client `c` leaves the channel `ch`, and `f` takes the channel from it. -/
structure LeavesChannel (s s' : IrcState κ) (c : IrcClient) (ch : IrcChannel)
    (f : IrcClient → IrcClient) : Prop where
  client : s.clientAt c.id = some c
  channel : s.channelAt ch.id = some ch
  mem : c.id ∈ ch.client
  same : ∀ a, (f a).id = a.id
  nodup : (f c).channel.Nodup
  kept : ∀ r, r ∈ (f c).channel ↔ r ∈ c.channel ∧ r ≠ ch.id
  length : ch.id ∈ c.channel → (f c).channel.length + 1 = c.channel.length
  live : s'.live = modifyKey IrcClient.id c.id f s.live
  rooms : ch.client = [c.id] ∧ s'.rooms = removeKey IrcChannel.id ch.id s.rooms ∨
    ∃ g : IrcChannel → IrcChannel, s'.rooms = modifyKey IrcChannel.id ch.id g s.rooms ∧
      (∀ a, (g a).id = a.id) ∧ (g ch).client.Nodup ∧ (g ch).client ≠ [] ∧
      ch.client ≠ [c.id] ∧ ∀ id, id ≠ c.id → id ∈ ch.client → id ∈ (g ch).client

theorem LeavesChannel.tidy {f : IrcClient → IrcClient} (h : LeavesChannel s s' c ch f)
    (htidy : Tidy s) (hentered : Entered key s) : Tidy s' := by
  rcases h.rooms with ⟨hclient, hrooms⟩ | ⟨g, hrooms, hg, hnodup, hsome, -, hothers⟩
  · exact htidy.drop hentered h.client h.channel hclient h.live hrooms h.same h.nodup
      (fun r hr => (h.kept r).mp hr)
  · exact htidy.relink hentered h.client h.channel h.live hrooms h.same hg h.nodup hnodup hsome
      (fun r hr => Or.inr ((h.kept r).mp hr)) hothers

theorem ircDeleteChannel_rooms (hentered : Entered key s) (hch : s.channelAt ch.id = some ch)
    (hdelete : ircDeleteChannel key s ch.id = some s') :
    s'.rooms = removeKey IrcChannel.id ch.id s.rooms ∧ s'.live = s.live := by
  have hentry := hentered.rooms.entered (ch.id, ch.name) (List.mem_map_of_mem (channelAt_mem hch).1)
  have hlisted : s.channels.any (fun e => decide (e.2 = ch.id)) = true :=
    List.any_eq_true.mpr ⟨_, hentry, decide_eq_true rfl⟩
  unfold ircDeleteChannel at hdelete
  rw [hch, Option.bind_some, if_pos hlisted] at hdelete
  obtain rfl := Option.some.inj hdelete
  exact ⟨rfl, rfl⟩

/-- What `irc_leave_channel` does: nothing, or a client of the channel leaves it. -/
theorem ircLeaveChannel_cases (htidy : Tidy s) (hentered : Entered key s) {client channel : Nat}
    (hleave : ircLeaveChannel key s client channel = some s') :
    s' = s ∧ (∀ ch, s.channelAt channel = some ch → client ∉ ch.client) ∨
      ∃ c ch f, c.id = client ∧ ch.id = channel ∧ LeavesChannel s s' c ch f := by
  unfold ircLeaveChannel at hleave
  obtain ⟨ch, hch, hleave⟩ := Option.bind_eq_some_iff.mp hleave
  obtain ⟨hchmem, rfl⟩ := channelAt_mem hch
  cases hplace : ch.client.idxOf? client with
  | none =>
    rw [hplace] at hleave
    dsimp only at hleave
    rw [if_neg (htidy.occupied ch hchmem)] at hleave
    refine Or.inl ⟨(Option.some.inj hleave).symm, fun ch' hch' => ?_⟩
    obtain rfl := Option.some.inj (hch.symm.trans hch')
    exact List.idxOf?_eq_none_iff.mp hplace
  | some n =>
    rw [hplace] at hleave
    dsimp only at hleave
    obtain ⟨c, hc, hleave⟩ := Option.bind_eq_some_iff.mp hleave
    obtain ⟨hcmem, rfl⟩ := clientAt_mem hc
    obtain ⟨hn, hget, -⟩ := List.idxOf?_eq_some_iff.mp hplace
    have hin : c.id ∈ ch.client := hget ▸ List.getElem_mem hn
    have hnodup := htidy.clientNodup ch hchmem
    have hcnodup := htidy.channelNodup c hcmem
    let g : IrcChannel → IrcChannel := fun ch =>
      { ch with client := swapRemove ch.client n, cflag := swapRemove ch.cflag n }
    let f : IrcClient → IrcClient := fun a =>
      (c.channel.idxOf? ch.id).elim a fun i => { a with channel := swapRemove a.channel i }
    have hf (a : IrcClient) : (f a).id = a.id := by
      dsimp only [f]
      cases c.channel.idxOf? ch.id <;> rfl
    have hkept : (f c).channel.Nodup ∧ (∀ r, r ∈ (f c).channel ↔ r ∈ c.channel ∧ r ≠ ch.id) ∧
        (ch.id ∈ c.channel → (f c).channel.length + 1 = c.channel.length) := by
      dsimp only [f]
      cases hi : c.channel.idxOf? ch.id with
      | none =>
        have hnot := List.idxOf?_eq_none_iff.mp hi
        exact ⟨hcnodup, fun r => ⟨fun hr => ⟨hr, fun hsame => hnot (hsame ▸ hr)⟩, And.left⟩,
          fun hr => absurd hr hnot⟩
      | some i =>
        obtain ⟨hilt, higet, -⟩ := List.idxOf?_eq_some_iff.mp hi
        refine ⟨nodup_swapRemove hilt hcnodup, fun r => ?_, fun _ => ?_⟩
        · show r ∈ swapRemove c.channel i ↔ _
          rw [mem_swapRemove_iff hilt hcnodup, higet]
        · show (swapRemove c.channel i).length + 1 = _
          rw [length_swapRemove]
          omega
    have hmem (id : Nat) : id ∈ swapRemove ch.client n ↔ id ∈ ch.client ∧ id ≠ c.id := by
      rw [mem_swapRemove_iff hn hnodup, hget]
    -- the state before a channel without clients is deleted
    have hstate : unlistChannel (s.setChannel ch.id g) c c.id ch.id =
        (s.setChannel ch.id g).setClient c.id f := by
      dsimp only [unlistChannel, f]
      cases c.channel.idxOf? ch.id with
      | some i => rfl
      | none =>
        unfold IrcState.setClient modifyKey
        simp
    have hleft : (if swapRemove ch.client n = [] then
        ircDeleteChannel key ((s.setChannel ch.id g).setClient c.id f) ch.id
        else some ((s.setChannel ch.id g).setClient c.id f)) = some s' := by
      rw [← hstate]
      exact hleave
    refine Or.inr ⟨c, ch, f, rfl, rfl, ?_⟩
    split at hleft
    · next hempty =>
      have hchAt : ((s.setChannel ch.id g).setClient c.id f).channelAt (g ch).id = some (g ch) :=
        findKey_modifyKey (fun _ => rfl) hch
      have hlength := length_swapRemove ch.client n
      rw [hempty, List.length_nil] at hlength
      have hone : ch.client = [c.id] := by
        obtain ⟨a, ha⟩ := List.length_eq_one_iff.mp (by omega : ch.client.length = 1)
        rw [ha] at hin ⊢
        rw [List.mem_singleton.mp hin]
      have hwithin : Entered key ((s.setChannel ch.id g).setClient c.id f) := by
        have hnames := names_setChannel s ch.id (f := g) (fun _ => ⟨rfl, rfl⟩)
        refine hentered.of_within ⟨⟨plain_setClient (fun a => ?_), rfl, rfl, rfl⟩, fun hrooms => ?_⟩
        · dsimp only [f]
          cases c.channel.idxOf? ch.id <;> rfl
        · rw [← hnames] at hrooms
          exact hrooms
      obtain ⟨hrooms, hlive⟩ := ircDeleteChannel_rooms hwithin hchAt hleft
      refine ⟨hc, hch, hin, hf, hkept.1, hkept.2.1, hkept.2.2, hlive, Or.inl ⟨hone, ?_⟩⟩
      rw [hrooms]
      exact removeKey_modifyKey (fun _ => rfl)
    · next hmore =>
      obtain rfl := Option.some.inj hleft
      refine ⟨hc, hch, hin, hf, hkept.1, hkept.2.1, hkept.2.2, rfl, Or.inr ⟨g, rfl, fun _ => rfl,
        nodup_swapRemove hn hnodup, hmore, fun hone => hmore ?_, fun id hne hid => ?_⟩⟩
      · apply List.eq_nil_iff_forall_not_mem.mpr
        intro id hid
        obtain ⟨hid, hne⟩ := (hmem id).mp hid
        rw [hone] at hid
        exact hne (List.mem_singleton.mp hid)
      · exact (hmem id).mpr ⟨hid, hne⟩

/-! ## Joining a channel -/

/-- What `irc_join_channel` does: nothing, a client enters a channel, or it makes a new one. -/
theorem ircJoinChannel_cases {client addr : Nat} {chan : List UInt8}
    (hjoin : ircJoinChannel limit key s client chan addr = some s') :
    s' = s ∨
      (∃ c ch, c.id = client ∧ s.clientAt c.id = some c ∧ s.channelAt ch.id = some ch ∧
        ircFindChannel key s chan = some ch.id ∧ c.id ∉ ch.client ∧
        s'.live = modifyKey IrcClient.id c.id
          (fun c => { c with channel := c.channel ++ [ch.id] }) s.live ∧
        s'.rooms = modifyKey IrcChannel.id ch.id (fun ch =>
          { ch with client := ch.client ++ [c.id], cflag := ch.cflag ++ [0] }) s.rooms) ∨
      ∃ c, c.id = client ∧ s.clientAt c.id = some c ∧ ircFindChannel key s chan = none ∧
        s.channelAt addr = none ∧
        s'.live = modifyKey IrcClient.id c.id
          (fun c => { c with channel := c.channel ++ [addr] }) s.live ∧
        s'.rooms = ⟨addr, chan, [c.id], [modeOperator]⟩ :: s.rooms ∧
        s'.channels = putKey (key chan) addr s.channels := by
  unfold ircJoinChannel at hjoin
  obtain ⟨c, hc, hjoin⟩ := Option.bind_eq_some_iff.mp hjoin
  obtain ⟨-, rfl⟩ := clientAt_mem hc
  cases hfind : ircFindChannel key s chan with
  | some id =>
    rw [hfind] at hjoin
    dsimp only at hjoin
    obtain ⟨ch, hch, hjoin⟩ := Option.bind_eq_some_iff.mp hjoin
    obtain ⟨-, rfl⟩ := channelAt_mem hch
    split_ifs at hjoin with hin hlimit
    · exact Or.inl (Option.some.inj hjoin).symm
    · exact Or.inl (Option.some.inj hjoin).symm
    · obtain rfl := Option.some.inj hjoin
      exact Or.inr (Or.inl ⟨c, ch, rfl, hc, hch, rfl, hin, rfl, rfl⟩)
  | none =>
    rw [hfind] at hjoin
    dsimp only at hjoin
    split_ifs at hjoin with hlimit hused
    · exact Or.inl (Option.some.inj hjoin).symm
    · obtain rfl := Option.some.inj hjoin
      exact Or.inr (Or.inr ⟨c, rfl, hc, rfl, Option.not_isSome_iff_eq_none.mp hused, rfl, rfl,
        rfl⟩)

theorem ircJoinChannel_tidy (h : Tidy s) (hentered : Entered key s) {client addr : Nat}
    {chan : List UInt8} (hjoin : ircJoinChannel limit key s client chan addr = some s') :
    Tidy s' := by
  rcases ircJoinChannel_cases hjoin with rfl | ⟨c, ch, rfl, hc, hch, -, hnot, hlive, hrooms⟩ |
    ⟨c, rfl, hc, -, haddr, hlive, hrooms, -⟩
  · exact h
  · obtain ⟨hcmem, -⟩ := clientAt_mem hc
    obtain ⟨hchmem, -⟩ := channelAt_mem hch
    have hout : ch.id ∉ c.channel := by
      intro hlisted
      obtain ⟨b, hb, hsame, hin⟩ := h.member c hcmem ch.id hlisted
      obtain rfl := hentered.rooms_keyed.eq_of_key hb hchmem hsame
      exact hnot hin
    apply h.relink hentered hc hch hlive hrooms (fun _ => rfl) (fun _ => rfl)
    · exact List.nodup_append_comm.mp (List.nodup_cons.mpr ⟨hout, h.channelNodup c hcmem⟩)
    · exact List.nodup_append_comm.mp (List.nodup_cons.mpr ⟨hnot, h.clientNodup ch hchmem⟩)
    · exact List.append_ne_nil_of_right_ne_nil _ (List.cons_ne_nil _ _)
    · intro r hr
      rcases List.mem_append.mp hr with hr | hr
      · exact Or.inr ⟨hr, fun hsame => hout (hsame ▸ hr)⟩
      · exact Or.inl ⟨List.mem_singleton.mp hr, List.mem_append_right _ List.mem_cons_self⟩
    · exact fun id _ hid => List.mem_append_left _ hid
  · obtain ⟨hcmem, -⟩ := clientAt_mem hc
    have hfresh := findKey_none.mp haddr
    have hmemc (a : IrcClient) : a ∈ s'.live ↔
        a = { c with channel := c.channel ++ [addr] } ∨ a ∈ s.live ∧ a.id ≠ c.id := by
      rw [hlive]
      exact mem_modifyKey hentered.live hc
    have hbefore {a : IrcClient} (ha : a ∈ s.live) : ∀ r ∈ a.channel,
        ∃ ch ∈ s'.rooms, ch.id = r ∧ a.id ∈ ch.client := by
      intro r hr
      obtain ⟨b, hb, hown⟩ := h.member a ha r hr
      rw [hrooms]
      exact ⟨b, List.mem_cons_of_mem _ hb, hown⟩
    refine ⟨fun a ha => ?_, fun a ha => ?_, fun a ha => ?_, fun a ha r hr => ?_⟩
    · rw [hrooms] at ha
      rcases List.mem_cons.mp ha with rfl | ha
      · exact List.cons_ne_nil _ _
      · exact h.occupied a ha
    · rw [hrooms] at ha
      rcases List.mem_cons.mp ha with rfl | ha
      · exact List.nodup_singleton _
      · exact h.clientNodup a ha
    · rcases (hmemc a).mp ha with rfl | ⟨ha, -⟩
      · refine List.nodup_append_comm.mp
          (List.nodup_cons.mpr ⟨fun hin => ?_, h.channelNodup c hcmem⟩)
        obtain ⟨b, hb, hsame, -⟩ := h.member c hcmem addr hin
        exact hfresh b hb hsame
      · exact h.channelNodup a ha
    · rcases (hmemc a).mp ha with rfl | ⟨ha, -⟩
      · rcases List.mem_append.mp hr with hr | hr
        · exact hbefore hcmem r hr
        · rw [hrooms, List.mem_singleton.mp hr]
          exact ⟨_, List.mem_cons_self, rfl, List.mem_cons_self⟩
      · exact hbefore ha r hr

theorem ircClientFlag_cases {cflag : UInt32} {change : ModeChange}
    (hflag : ircClientFlag s channel cflag change = some s') :
    s'.live = s.live ∧ ∃ f : List UInt32 → List UInt32, s'.rooms =
      modifyKey IrcChannel.id channel (fun ch => { ch with cflag := f ch.cflag }) s.rooms := by
  have hid : s.rooms = modifyKey IrcChannel.id channel
      (fun ch => { ch with cflag := id ch.cflag }) s.rooms := by
    unfold modifyKey
    simp
  unfold ircClientFlag at hflag
  obtain ⟨ch, -, hflag⟩ := Option.bind_eq_some_iff.mp hflag
  split_ifs at hflag
  · obtain rfl := Option.some.inj hflag
    exact ⟨rfl, id, hid⟩
  · split at hflag
    · obtain rfl := Option.some.inj hflag
      exact ⟨rfl, id, hid⟩
    · next i _ =>
      obtain ⟨victim, -, rfl⟩ := Option.map_eq_some_iff.mp hflag
      exact ⟨rfl, fun cflag => cflag.modify i change.changed, rfl⟩

theorem ircClientFlag_tidy (h : Tidy s) {cflag : UInt32} {change : ModeChange}
    (hflag : ircClientFlag s channel cflag change = some s') : Tidy s' := by
  obtain ⟨hlive, f, hrooms⟩ := ircClientFlag_cases hflag
  have hback : ∀ ch ∈ s'.rooms, ∃ ch₀ ∈ s.rooms, ch.id = ch₀.id ∧ ch.client = ch₀.client := by
    intro ch hch
    rw [hrooms] at hch
    obtain ⟨ch₀, hch₀, rfl⟩ := List.mem_map.mp hch
    refine ⟨ch₀, hch₀, ?_⟩
    split <;> exact ⟨rfl, rfl⟩
  refine ⟨fun ch hch => ?_, fun ch hch => ?_, ?_, fun c hc r hr => ?_⟩
  · obtain ⟨ch₀, hch₀, -, hclient⟩ := hback ch hch
    rw [hclient]
    exact h.occupied ch₀ hch₀
  · obtain ⟨ch₀, hch₀, -, hclient⟩ := hback ch hch
    rw [hclient]
    exact h.clientNodup ch₀ hch₀
  · rw [hlive]
    exact h.channelNodup
  · rw [hlive] at hc
    obtain ⟨b, hb, rfl, hin⟩ := h.member c hc r hr
    rw [hrooms]
    refine ⟨_, List.mem_map_of_mem hb, ?_⟩
    split <;> exact ⟨rfl, hin⟩

/-! ## Steps -/

theorem tidy_composes (limit : Int) : Composes limit key
    (fun s s' => Entered key s → Tidy s → Entered key s' ∧ Tidy s') := by
  have hrules : Composes limit key (Within key) := within_composes limit
  refine { refl := fun _ hentered h => ⟨hentered, h⟩, trans := ?_, leave := ?_, flag := ?_,
           join := ?_ }
  · intro s s' s'' hfirst hsecond hentered h
    obtain ⟨hentered', h'⟩ := hfirst hentered h
    exact hsecond hentered' h'
  · intro s s' client channel hleave hentered h
    refine ⟨hentered.of_within (hrules.leave hleave), ?_⟩
    rcases ircLeaveChannel_cases h hentered hleave with ⟨rfl, -⟩ | ⟨c, ch, f, -, -, hleaves⟩
    · exact h
    · exact hleaves.tidy h hentered
  · exact fun hflag hentered h =>
      ⟨hentered.of_within (hrules.flag hflag), ircClientFlag_tidy h hflag⟩
  · exact fun hjoin hentered h =>
      ⟨hentered.of_within (hrules.join hjoin), ircJoinChannel_tidy h hentered hjoin⟩

theorem ircDeleteClient_tidy (h : Tidy s) (c : IrcClient) : Tidy (ircDeleteClient key s c) :=
  h.of_sublist rfl (fun _ ha => Or.inl (mem_removeKey.mp ha).1)

theorem ircLeaveAllChannels_tidy (h : Tidy s) (hentered : Entered key s)
    (hleave : ircLeaveAllChannels key s c = some s') : Tidy s' := by
  obtain ⟨s₁, c₁, htidy, -, rfl⟩ := (tidy_composes 0).leaveAllChannels hleave
  have hdelete : Tidy (ircDeleteClient key s₁ c₁) := ircDeleteClient_tidy (htidy hentered h).2 c₁
  exact hdelete.of_sublist rfl (fun _ ha => Or.inl ha)

theorem ircStep_tidy (h : Tidy s) (hentered : Entered key s) {event : IrcEvent}
    (hstep : ircStep cfg key s event = some s') : Tidy s' := by
  cases ircStep_effect hstep with
  | comes hsock haddr =>
    refine h.of_sublist rfl (fun a ha => ?_)
    rcases List.mem_cons.mp ha with rfl | ha
    · exact Or.inr rfl
    · exact Or.inl ha
  | flags hc hf =>
    refine h.of_live ?_ rfl rfl
    exact fun _ => ⟨rfl, rfl⟩
  | named hc hnick =>
    rcases ircNickCallback_cases hnick with rfl | ⟨text, clients, -, -, rfl, -⟩
    · exact h
    · refine h.of_live ?_ rfl rfl
      exact fun _ => ⟨rfl, rfl⟩
  | enrolls hc hnot hflag hadd =>
    refine h.of_live ?_ rfl rfl
    exact fun _ => ⟨rfl, rfl⟩
  | deleted hc hwrong => exact ircDeleteClient_tidy h _
  | joins hall => exact (hall (tidy_composes _) hentered h).2
  | parts hall => exact (hall (tidy_composes 0).toParting hentered h).2
  | quits hc hleave => exact ircLeaveAllChannels_tidy h hentered hleave
  | closed hdata => exact h.of_sublist rfl (fun _ ha => Or.inl ha)
  | disconnects hc hleave =>
    exact (ircLeaveAllChannels_tidy h hentered hleave).of_sublist rfl (fun _ ha => Or.inl ha)

theorem tidy_start : Tidy (startIrc : IrcState κ) :=
  ⟨fun _ hch => absurd hch List.not_mem_nil, fun _ hch => absurd hch List.not_mem_nil,
    fun _ hc => absurd hc List.not_mem_nil, fun _ hc => absurd hc List.not_mem_nil⟩

/-! ## Channels after a step -/

/-- The channels have been there before. -/
def NoNewRooms (s s' : IrcState κ) : Prop := ∀ ch ∈ s'.rooms, ∃ ch₀ ∈ s.rooms, ch₀.id = ch.id

theorem NoNewRooms.trans (h : NoNewRooms s s') (h' : NoNewRooms s' s'') : NoNewRooms s s'' := by
  intro ch hch
  obtain ⟨ch', hch', hid'⟩ := h' ch hch
  obtain ⟨ch₀, hch₀, hid⟩ := h ch' hch'
  exact ⟨ch₀, hch₀, hid.trans hid'⟩

theorem NoNewRooms.of_same (h : s'.rooms = s.rooms) : NoNewRooms s s' :=
  fun ch hch => ⟨ch, h ▸ hch, rfl⟩

theorem noNewRooms_setChannel (s : IrcState κ) (id : Nat) {f : IrcChannel → IrcChannel}
    (hf : ∀ ch, (f ch).id = ch.id) : NoNewRooms s (s.setChannel id f) := by
  intro ch hch
  obtain ⟨ch₀, hch₀, rfl⟩ := List.mem_map.mp hch
  refine ⟨ch₀, hch₀, ?_⟩
  split
  · exact (hf ch₀).symm
  · rfl

theorem ircDeleteChannel_noNewRooms (hdelete : ircDeleteChannel key s channel = some s') :
    NoNewRooms s s' := by
  unfold ircDeleteChannel at hdelete
  obtain ⟨ch, -, hdelete⟩ := Option.bind_eq_some_iff.mp hdelete
  split_ifs at hdelete <;> obtain rfl := Option.some.inj hdelete
  · exact fun ch hch => ⟨ch, (mem_removeKey.mp hch).1, rfl⟩
  · exact NoNewRooms.of_same rfl

theorem noNewRooms_leaving : Leaving key (NoNewRooms (κ := κ)) where
  refl _ := NoNewRooms.of_same rfl
  trans := NoNewRooms.trans
  channel s id _ := noNewRooms_setChannel s id (fun _ => rfl)
  client _ _ _ := NoNewRooms.of_same rfl
  delete := ircDeleteChannel_noNewRooms

theorem ircClientFlag_noNewRooms {cflag : UInt32} {change : ModeChange}
    (hflag : ircClientFlag s channel cflag change = some s') : NoNewRooms s s' := by
  obtain ⟨-, f, hrooms⟩ := ircClientFlag_cases hflag
  have hset := noNewRooms_setChannel s channel
    (f := fun ch => { ch with cflag := f ch.cflag }) (fun _ => rfl)
  exact hset.trans (NoNewRooms.of_same hrooms)

theorem noNewRooms_parting : Parting key (NoNewRooms (κ := κ)) :=
  { refl := fun _ => NoNewRooms.of_same rfl, trans := NoNewRooms.trans,
    leave := noNewRooms_leaving.leaveChannel, flag := ircClientFlag_noNewRooms }

theorem Parting.leaveAll {R : IrcState κ → IrcState κ → Prop} (h : Parting key R)
    (hsame : ∀ {s s' : IrcState κ}, s'.rooms = s.rooms → R s s')
    (hleave : ircLeaveAllChannels key s c = some s') : R s s' := by
  obtain ⟨s₁, c₁, hrooms, -, rfl⟩ := h.leaveAllChannels hleave
  exact h.trans hrooms (hsame rfl)

theorem Parting.step {R : IrcState κ → IrcState κ → Prop} (h : Parting key R)
    (hsame : ∀ {s s' : IrcState κ}, s'.rooms = s.rooms → R s s') {event : IrcEvent}
    (hstep : ircStep cfg key s event = some s')
    (hjoin : ∀ sock targets, event ≠ .request sock (.join targets)) : R s s' := by
  cases ircStep_effect hstep with
  | comes hsock haddr => exact hsame rfl
  | flags hc hf => exact hsame rfl
  | named hc hnick =>
    rcases ircNickCallback_cases hnick with rfl | ⟨text, clients, -, -, rfl, -⟩
    · exact hsame rfl
    · exact hsame rfl
  | enrolls hc hnot hflag hadd => exact hsame rfl
  | deleted hc hwrong => exact hsame rfl
  | joins hall => exact absurd rfl (hjoin _ _)
  | parts hall => exact hall h
  | quits hc hleave => exact h.leaveAll hsame hleave
  | closed hdata => exact hsame rfl
  | disconnects hc hleave => exact h.trans (h.leaveAll hsame hleave) (hsame rfl)

theorem ircStep_noNewRooms {event : IrcEvent} (hstep : ircStep cfg key s event = some s')
    (hjoin : ∀ sock targets, event ≠ .request sock (.join targets)) : NoNewRooms s s' :=
  noNewRooms_parting.step NoNewRooms.of_same hstep hjoin

/-- A channel is left after its clients have left all their channels, unless it had no other
client. -/
theorem leaveLoop_channelAt (h : Tidy s) (hentered : Entered key s) {client rounds : Nat}
    (hc : s.clientAt client = some c) (hrounds : c.channel.length ≤ rounds)
    (hleave : leaveLoop key client rounds s = some s') (hch : ch ∈ s.rooms) :
    (∃ ch' ∈ s'.rooms, ch'.id = ch.id) ↔ ¬ (ch.id ∈ c.channel ∧ ch.client = [client]) := by
  induction rounds generalizing s c ch with
  | zero =>
    obtain rfl := Option.some.inj hleave
    rw [List.eq_nil_of_length_eq_zero (Nat.le_zero.mp hrounds)]
    exact iff_of_true ⟨ch, hch, rfl⟩ (fun hboth => List.not_mem_nil hboth.1)
  | succ rounds ih =>
    rw [leaveLoop, hc, Option.bind_some] at hleave
    split at hleave
    · next hempty =>
      obtain rfl := Option.some.inj hleave
      rw [hempty]
      exact iff_of_true ⟨ch, hch, rfl⟩ (fun hboth => List.not_mem_nil hboth.1)
    next r rest hchannels =>
    obtain ⟨room, hroom, hleave⟩ := Option.bind_eq_some_iff.mp hleave
    split_ifs at hleave
    obtain ⟨s₁, hs₁, hrest⟩ := Option.bind_eq_some_iff.mp hleave
    obtain ⟨hroommem, rfl⟩ := channelAt_mem hroom
    obtain ⟨hcmem, rfl⟩ := clientAt_mem hc
    have hlisted : room.id ∈ c.channel := hchannels ▸ List.mem_cons_self
    have hin : c.id ∈ room.client := by
      obtain ⟨b, hb, hsame, hin⟩ := h.member c hcmem room.id hlisted
      obtain rfl := hentered.rooms_keyed.eq_of_key hb hroommem hsame
      exact hin
    rcases ircLeaveChannel_cases h hentered hs₁ with ⟨-, hnot⟩ | ⟨c₀, ch₀, f, hid, hid', hleaves⟩
    · exact absurd hin (hnot room hroom)
    obtain rfl : c₀ = c := by
      have hc₀ := hleaves.client
      rw [hid] at hc₀
      exact Option.some.inj (hc₀.symm.trans hc)
    obtain rfl : ch₀ = room := by
      have hch₀ := hleaves.channel
      rw [hid'] at hch₀
      exact Option.some.inj (hch₀.symm.trans hroom)
    have hc₁ : s₁.clientAt c₀.id = some (f c₀) := by
      unfold IrcState.clientAt
      rw [hleaves.live]
      exact findKey_modifyKey hleaves.same hc
    have htidy₁ := hleaves.tidy h hentered
    have hentered₁ : Entered key s₁ := hentered.of_within ((within_composes 0).leave hs₁)
    have hrounds₁ : (f c₀).channel.length ≤ rounds := by
      have hlength := hleaves.length hlisted
      omega
    by_cases hsame : ch.id = ch₀.id
    · obtain rfl := hentered.rooms_keyed.eq_of_key hch hroommem hsame
      rcases hleaves.rooms with ⟨hone, hrooms⟩ | ⟨g, hrooms, hg, -, -, hmore, -⟩
      · refine iff_of_false ?_ (fun hnot => hnot ⟨hlisted, hone⟩)
        rintro ⟨ch', hch', hid⟩
        obtain ⟨ch₁, hch₁, hid₁⟩ := noNewRooms_parting.leaveLoop hrest ch' hch'
        rw [hrooms] at hch₁
        exact (mem_removeKey.mp hch₁).2 (hid₁.trans hid)
      · have hg₁ : g ch ∈ s₁.rooms := by
          rw [hrooms]
          exact (mem_modifyKey hentered.rooms_keyed hroom).mpr (Or.inl rfl)
        have hleft := ih htidy₁ hentered₁ hc₁ hrounds₁ hrest hg₁
        rw [hg] at hleft
        exact iff_of_true (hleft.mpr (fun hboth => ((hleaves.kept ch.id).mp hboth.1).2 rfl))
          (fun hboth => hmore hboth.2)
    · have hch₁ : ch ∈ s₁.rooms := by
        rcases hleaves.rooms with ⟨-, hrooms⟩ | ⟨g, hrooms, -⟩
        · rw [hrooms]
          exact mem_removeKey.mpr ⟨hch, hsame⟩
        · rw [hrooms]
          exact (mem_modifyKey hentered.rooms_keyed hroom).mpr (Or.inr ⟨hch, hsame⟩)
      rw [ih htidy₁ hentered₁ hc₁ hrounds₁ hrest hch₁, hleaves.kept]
      simp only [hsame, not_false_eq_true, ne_eq, and_true]

end Serveez.Irc
