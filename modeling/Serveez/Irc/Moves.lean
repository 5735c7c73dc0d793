import Serveez.Irc.Links
import Serveez.Irc.Rules

/-!
# Joining and leaving

What the commands about channels keep. `Moves` holds between the states before and after them: the
links are right, no channel is left empty, the clients are the same but for their channels, and
nobody comes to have more than `limit` channels.

* `ircLeaveChannel_moves`, `ircJoinChannel_moves`, `ircClientFlag_moves`: single changes.
* `moves_composes`: the commands, by the rules.
* `ircLeaveAllChannels_spec`: a client leaves the server.
-/

set_option linter.unusedSectionVars false

namespace Serveez.Irc

open Lib

variable {κ : Type} [DecidableEq κ] {key : List UInt8 → κ} {s s' s'' : IrcState κ} {limit : Int}

/-- A client without its channels. -/
def IrcClient.plain (c : IrcClient) : IrcClient := { c with channel := [] }

/-- All but the channels of the clients is the same. -/
structure SameClients (s s' : IrcState κ) : Prop where
  live : s'.live.map IrcClient.plain = s.live.map IrcClient.plain
  users : s'.users = s.users
  clients : s'.clients = s.clients
  data : s'.data = s.data

theorem SameClients.trans (h : SameClients s s') (h' : SameClients s' s'') :
    SameClients s s'' :=
  ⟨h'.live.trans h.live, h'.users.trans h.users, h'.clients.trans h.clients, h'.data.trans h.data⟩

/-- Nobody has more than `limit` channels. -/
def Few (limit : Int) (s : IrcState κ) : Prop := ∀ c ∈ s.live, (c.channel.length : Int) ≤ limit

structure Moves (limit : Int) (key : List UInt8 → κ) (s s' : IrcState κ) : Prop where
  linked : Linked key s'
  occupied : Occupied s'
  same : SameClients s s'
  few : Few limit s → Few limit s'

theorem Moves.refl (h : Linked key s) (ho : Occupied s) : Moves limit key s s :=
  ⟨h, ho, ⟨rfl, rfl, rfl, rfl⟩, id⟩

theorem Moves.trans (h : Moves limit key s s') (h' : Moves limit key s' s'') :
    Moves limit key s s'' :=
  ⟨h'.linked, h'.occupied, h.same.trans h'.same, fun hfew => h'.few (h.few hfew)⟩

/-! ## Leaving a channel -/

theorem few_setClient {id : Nat} {f : IrcClient → IrcClient} {c : IrcClient} (hfew : Few limit s)
    (hkeyed : Keyed IrcClient.id s.live) (hc : s.clientAt id = some c)
    (hlive : s'.live = modifyKey IrcClient.id id f s.live)
    (hf : ((f c).channel.length : Int) ≤ limit) : Few limit s' := by
  intro a ha
  rw [hlive] at ha
  rcases (mem_modifyKey hkeyed hc).mp ha with rfl | ⟨ha, -⟩
  · exact hf
  · exact hfew a ha

variable (limit) in
theorem ircDeleteChannel_moves (h : Linked key s) {ch : IrcChannel}
    (hch : s.channelAt ch.id = some ch) (hempty : ch.client = [])
    (ho : ∀ a ∈ s.rooms, a.id ≠ ch.id → a.client ≠ [])
    (hdelete : ircDeleteChannel key s ch.id = some s') : Moves limit key s s' := by
  unfold ircDeleteChannel at hdelete
  have hlisted : s.channels.any (fun e => decide (e.2 = ch.id)) = true :=
    List.any_eq_true.mpr ⟨_, h.entry ch (channelAt_mem hch).1, decide_eq_true rfl⟩
  rw [hch, Option.bind_some, if_pos hlisted] at hdelete
  obtain rfl := Option.some.inj hdelete
  refine ⟨h.drop hch hempty rfl rfl rfl rfl rfl, ?_, ⟨rfl, rfl, rfl, rfl⟩, fun hfew => hfew⟩
  intro a ha
  obtain ⟨ha, hne⟩ := mem_removeKey.mp ha
  exact ho a ha hne

variable (limit) in
theorem ircLeaveChannel_moves (h : Linked key s) (ho : Occupied s) {client channel : Nat}
    (hleave : ircLeaveChannel key s client channel = some s') : Moves limit key s s' := by
  unfold ircLeaveChannel at hleave
  obtain ⟨ch, hch, hleave⟩ := Option.bind_eq_some_iff.mp hleave
  obtain ⟨hchmem, rfl⟩ := channelAt_mem hch
  cases hplace : ch.client.idxOf? client with
  | none =>
    rw [hplace] at hleave
    dsimp only at hleave
    rw [if_neg (ho ch hchmem)] at hleave
    obtain rfl := Option.some.inj hleave
    exact Moves.refl h ho
  | some n =>
    rw [hplace] at hleave
    dsimp only at hleave
    obtain ⟨c, hc, hleave⟩ := Option.bind_eq_some_iff.mp hleave
    obtain ⟨hcmem, rfl⟩ := clientAt_mem hc
    obtain ⟨hn, hget, -⟩ := List.idxOf?_eq_some_iff.mp hplace
    have hin : c.id ∈ ch.client := hget ▸ List.getElem_mem hn
    -- the channel is among those of the client
    obtain ⟨i, hi⟩ := Option.isSome_iff_exists.mp
      (List.isSome_idxOf?.mpr ((h.both c hcmem ch hchmem).mp hin))
    obtain ⟨hilt, higet, -⟩ := List.idxOf?_eq_some_iff.mp hi
    rw [hi] at hleave
    dsimp only at hleave
    let g : IrcChannel → IrcChannel := fun ch =>
      { ch with client := swapRemove ch.client n, cflag := swapRemove ch.cflag n }
    let f : IrcClient → IrcClient := fun c => { c with channel := swapRemove c.channel i }
    have hnodup := h.clientNodup ch hchmem
    have hcnodup := h.channelNodup c hcmem
    have hg (a : IrcChannel) : (g a).id = a.id ∧ (g a).name = a.name := ⟨rfl, rfl⟩
    have hlinked : Linked key ((s.setChannel ch.id g).setClient c.id f) := by
      apply h.relink (f := f) (g := g) hc hch
      · rfl
      · rfl
      · rfl
      · rfl
      · exact fun _ _ => rfl
      · exact fun _ => ⟨rfl, rfl⟩
      · exact hg
      · intro id hne
        rw [mem_swapRemove_iff hilt hcnodup, higet]
        exact and_iff_left hne
      · intro id hne
        rw [mem_swapRemove_iff hn hnodup, hget]
        exact and_iff_left hne
      · rw [mem_swapRemove_iff hn hnodup, mem_swapRemove_iff hilt hcnodup, hget, higet]
        exact iff_of_false (fun hand => hand.2 rfl) (fun hand => hand.2 rfl)
      · exact nodup_swapRemove hilt hcnodup
      · exact nodup_swapRemove hn hnodup
      · show swapRemove ch.cflag n = (swapRemove ch.client n).map (s.given ch.id)
        rw [h.cflag ch hchmem, swapRemove_map]
    have hothers : ∀ a ∈ ((s.setChannel ch.id g).setClient c.id f).rooms, a.id ≠ ch.id →
        a.client ≠ [] := by
      intro a ha hne
      rcases (mem_modifyKey h.rooms hch).mp ha with rfl | ⟨ha, -⟩
      · exact absurd rfl hne
      · exact ho a ha
    have hsame : SameClients s ((s.setChannel ch.id g).setClient c.id f) :=
      ⟨map_modifyKey (fun _ => rfl), rfl, rfl, rfl⟩
    have hfew (hfew : Few limit s) : Few limit ((s.setChannel ch.id g).setClient c.id f) := by
      refine few_setClient hfew h.live hc rfl ?_
      have hbefore := hfew c hcmem
      show ((swapRemove c.channel i).length : Int) ≤ limit
      rw [length_swapRemove]
      omega
    split at hleave
    · next hempty =>
      have hchAt : ((s.setChannel ch.id g).setClient c.id f).channelAt (g ch).id = some (g ch) :=
        findKey_modifyKey (fun a => (hg a).1) hch
      have hmoves := ircDeleteChannel_moves limit hlinked hchAt hempty hothers hleave
      exact ⟨hmoves.linked, hmoves.occupied, hsame.trans hmoves.same,
        fun hall => hmoves.few (hfew hall)⟩
    · next hmore =>
      obtain rfl := Option.some.inj hleave
      refine ⟨hlinked, fun a ha => ?_, hsame, hfew⟩
      rcases (mem_modifyKey h.rooms hch).mp ha with rfl | ⟨ha, -⟩
      · exact hmore
      · exact ho a ha

/-! ## Joining a channel -/

theorem enter_moves (h : Linked key s) {c : IrcClient} {ch : IrcChannel}
    (hc : s.clientAt c.id = some c) (hch : s.channelAt ch.id = some ch) (hnot : c.id ∉ ch.client)
    (flag : UInt32) (hroom : (c.channel.length : Int) < limit)
    (ho : ∀ a ∈ s.rooms, a.id ≠ ch.id → a.client ≠ []) :
    Moves limit key s (((s.setChannel ch.id (fun ch =>
      { ch with client := ch.client ++ [c.id], cflag := ch.cflag ++ [flag] })).setClient c.id
        (fun c => { c with channel := c.channel ++ [ch.id] })).give ch.id c.id flag) := by
  obtain ⟨hcmem, -⟩ := clientAt_mem hc
  obtain ⟨hchmem, -⟩ := channelAt_mem hch
  have hout : ch.id ∉ c.channel := fun hin => hnot ((h.both c hcmem ch hchmem).mpr hin)
  refine ⟨?_, fun a ha => ?_, ⟨map_modifyKey (fun _ => rfl), rfl, rfl, rfl⟩, fun hfew => ?_⟩
  · apply h.relink hc hch
    · rfl
    · rfl
    · rfl
    · rfl
    · exact fun id hne => Function.update_of_ne hne _ _
    · exact fun _ => ⟨rfl, rfl⟩
    · exact fun _ => ⟨rfl, rfl⟩
    · intro id hne
      rw [List.mem_append, List.mem_singleton]
      exact or_iff_left hne
    · intro id hne
      rw [List.mem_append, List.mem_singleton]
      exact or_iff_left hne
    · exact iff_of_true (List.mem_append_right _ List.mem_cons_self)
        (List.mem_append_right _ List.mem_cons_self)
    · exact List.nodup_append_comm.mp (List.nodup_cons.mpr ⟨hout, h.channelNodup c hcmem⟩)
    · exact List.nodup_append_comm.mp (List.nodup_cons.mpr ⟨hnot, h.clientNodup ch hchmem⟩)
    · show ch.cflag ++ [flag] = (ch.client ++ [c.id]).map
        (Function.update s.given ch.id (Function.update (s.given ch.id) c.id flag) ch.id)
      rw [Function.update_self, List.map_append, List.map_singleton, Function.update_self,
        h.cflag ch hchmem]
      congr 1
      refine List.map_congr_left (fun id hid => ?_)
      exact (Function.update_of_ne (fun hsame : id = c.id => hnot (hsame ▸ hid)) _ _).symm
  · rcases (mem_modifyKey h.rooms hch).mp ha with rfl | ⟨ha, hne⟩
    · exact List.append_ne_nil_of_right_ne_nil _ (List.cons_ne_nil _ _)
    · exact ho a ha hne
  · refine few_setClient hfew h.live hc rfl ?_
    show ((c.channel ++ [ch.id]).length : Int) ≤ limit
    rw [List.length_append, List.length_singleton]
    push_cast
    omega

theorem ircJoinChannel_moves (h : Linked key s) (ho : Occupied s) {perUser : Int}
    (hle : perUser ≤ limit) {client addr : Nat} {chan : List UInt8}
    (hjoin : ircJoinChannel perUser key s client chan addr = some s') :
    Moves limit key s s' := by
  unfold ircJoinChannel at hjoin
  obtain ⟨c, hc, hjoin⟩ := Option.bind_eq_some_iff.mp hjoin
  obtain ⟨hcmem, rfl⟩ := clientAt_mem hc
  cases hfind : ircFindChannel key s chan with
  | some id =>
    rw [hfind] at hjoin
    dsimp only at hjoin
    obtain ⟨ch, hch, hjoin⟩ := Option.bind_eq_some_iff.mp hjoin
    obtain ⟨-, rfl⟩ := channelAt_mem hch
    split_ifs at hjoin with hin hlimit
    · obtain rfl := Option.some.inj hjoin
      exact Moves.refl h ho
    · obtain rfl := Option.some.inj hjoin
      exact Moves.refl h ho
    · obtain rfl := Option.some.inj hjoin
      have hroom : (c.channel.length : Int) < limit := by omega
      exact enter_moves h hc hch hin 0 hroom (fun a ha _ => ho a ha)
  | none =>
    rw [hfind] at hjoin
    dsimp only at hjoin
    split_ifs at hjoin with hlimit hused
    · obtain rfl := Option.some.inj hjoin
      exact Moves.refl h ho
    · obtain rfl := Option.some.inj hjoin
      have haddr : s.channelAt addr = none := Option.not_isSome_iff_eq_none.mp hused
      have hfresh := findKey_none.mp haddr
      -- the channel is there before it has its first client
      let opened : IrcState κ := { s with
        channels := putKey (key chan) addr s.channels
        rooms := ⟨addr, chan, [], []⟩ :: s.rooms }
      have hopened : Linked key opened := h.opened hfind haddr rfl rfl rfl rfl rfl
      have hch : opened.channelAt addr = some ⟨addr, chan, [], []⟩ :=
        hopened.channelAt_iff.mpr ⟨List.mem_cons_self, rfl⟩
      have hroom : (c.channel.length : Int) < limit := by omega
      have hmoves := enter_moves hopened hc hch List.not_mem_nil modeOperator hroom
        (fun a ha hne => by
          rcases List.mem_cons.mp ha with rfl | ha
          · exact absurd rfl hne
          · exact ho a ha)
      have hrooms : modifyKey IrcChannel.id addr (fun ch =>
          { ch with client := ch.client ++ [c.id], cflag := ch.cflag ++ [modeOperator] })
          (⟨addr, chan, [], []⟩ :: s.rooms) = ⟨addr, chan, [c.id], [modeOperator]⟩ :: s.rooms := by
        rw [modifyKey, List.map_cons, if_pos rfl]
        exact congrArg _ (modifyKey_of_ne hfresh)
      have hstate : ((opened.setChannel addr (fun ch =>
          { ch with client := ch.client ++ [c.id], cflag := ch.cflag ++ [modeOperator] })).setClient
          c.id (fun c => { c with channel := c.channel ++ [addr] })).give addr c.id modeOperator =
          (({ s with
            channels := putKey (key chan) addr s.channels
            rooms := ⟨addr, chan, [c.id], [modeOperator]⟩ :: s.rooms } : IrcState κ).setClient c.id
            (fun c => { c with channel := c.channel ++ [addr] })).give addr c.id modeOperator := by
        unfold IrcState.setChannel
        rw [hrooms]
      rw [← hstate]
      obtain ⟨hlinked, hoccupied, hsame, hfew⟩ := hmoves
      exact ⟨hlinked, hoccupied, ⟨hsame.live, hsame.users, hsame.clients, hsame.data⟩, hfew⟩

/-! ## MODE -/

/-- Without duplicates, the place of an entry is the entry. -/
theorem modify_map {α β : Type} [DecidableEq α] {l : List α} (hnodup : l.Nodup) {i : Nat} {a : α}
    (ha : l[i]? = some a) (g : α → β) (f : β → β) :
    (l.map g).modify i f = l.map (Function.update g a (f (g a))) := by
  apply List.ext_getElem?
  intro j
  rw [List.getElem?_modify, List.getElem?_map, List.getElem?_map]
  obtain ⟨hi, rfl⟩ := List.getElem?_eq_some_iff.mp ha
  by_cases hj : j < l.length
  · rw [List.getElem?_eq_getElem hj]
    by_cases hsame : i = j
    · subst hsame
      simp
    · have hne : l[j] ≠ l[i] := fun heq => hsame ((hnodup.getElem_inj_iff.mp heq).symm)
      simp [hsame, hne]
  · rw [List.getElem?_eq_none (Nat.le_of_not_lt hj)]
    rfl

variable (limit) in
theorem ircClientFlag_moves (h : Linked key s) (ho : Occupied s) {channel : Nat} {cflag : UInt32}
    {change : ModeChange} (hflag : ircClientFlag s channel cflag change = some s') :
    Moves limit key s s' := by
  unfold ircClientFlag at hflag
  obtain ⟨ch, hch, hflag⟩ := Option.bind_eq_some_iff.mp hflag
  obtain ⟨hchmem, rfl⟩ := channelAt_mem hch
  split at hflag
  · obtain rfl := Option.some.inj hflag
    exact Moves.refl h ho
  · split at hflag
    · exact nomatch hflag
    split at hflag
    · obtain rfl := Option.some.inj hflag
      exact Moves.refl h ho
    · next i _ =>
      obtain ⟨victim, hvictim, rfl⟩ := Option.map_eq_some_iff.mp hflag
      obtain ⟨c, hc, rfl⟩ := h.member ch hchmem victim (List.mem_of_getElem? hvictim)
      have hlive : s.live = modifyKey IrcClient.id c.id id s.live := by
        unfold modifyKey
        simp
      refine ⟨?_, fun a ha => ?_, ⟨rfl, rfl, rfl, rfl⟩, fun hfew => hfew⟩
      · apply h.relink (f := id) (h.clientAt_iff.mpr ⟨hc, rfl⟩) hch
        · exact hlive
        · rfl
        · rfl
        · rfl
        · exact fun id hne => Function.update_of_ne hne _ _
        · exact fun _ => ⟨rfl, rfl⟩
        · exact fun _ => ⟨rfl, rfl⟩
        · exact fun _ _ => Iff.rfl
        · exact fun _ _ => Iff.rfl
        · exact h.both c hc ch hchmem
        · exact h.channelNodup c hc
        · exact h.clientNodup ch hchmem
        · dsimp only [IrcState.give]
          rw [Function.update_self, h.cflag ch hchmem]
          exact modify_map (h.clientNodup ch hchmem) hvictim _ _
      · rcases (mem_modifyKey h.rooms hch).mp ha with rfl | ⟨ha, -⟩
        · exact ho ch hchmem
        · exact ho a ha

theorem moves_composes {perUser : Int} (hle : perUser ≤ limit) :
    Composes perUser key (fun s s' => Linked key s → Occupied s → Moves limit key s s') := by
  refine { refl := fun _ => Moves.refl, trans := ?_, leave := ?_, flag := ?_, join := ?_ }
  · intro s s' s'' hmoves hmoves' h ho
    have hfirst := hmoves h ho
    exact hfirst.trans (hmoves' hfirst.linked hfirst.occupied)
  · exact fun hleave h ho => ircLeaveChannel_moves limit h ho hleave
  · exact fun hflag h ho => ircClientFlag_moves limit h ho hflag
  · exact fun hjoin h ho => ircJoinChannel_moves h ho hle hjoin

/-! ## Leaving the server -/

theorem SameClients.back (h : SameClients s s') {c : IrcClient} (hc : c ∈ s'.live) :
    ∃ c₀ ∈ s.live, c₀.plain = c.plain := by
  have hmem : c.plain ∈ s.live.map IrcClient.plain := h.live ▸ List.mem_map_of_mem hc
  exact List.mem_map.mp hmem

theorem ircDeleteChannel_live {channel : Nat}
    (hdelete : ircDeleteChannel key s channel = some s') : s'.live = s.live := by
  unfold ircDeleteChannel at hdelete
  obtain ⟨ch, -, hdelete⟩ := Option.bind_eq_some_iff.mp hdelete
  split_ifs at hdelete <;> obtain rfl := Option.some.inj hdelete <;> rfl

theorem ircLeaveChannel_clientAt (h : Linked key s) {client channel : Nat} {c : IrcClient}
    (hc : s.clientAt client = some c) (hin : channel ∈ c.channel)
    (hleave : ircLeaveChannel key s client channel = some s') :
    ∃ c', s'.clientAt client = some c' ∧ c'.channel.length + 1 = c.channel.length := by
  obtain ⟨hcmem, rfl⟩ := clientAt_mem hc
  unfold ircLeaveChannel at hleave
  obtain ⟨ch, hch, hleave⟩ := Option.bind_eq_some_iff.mp hleave
  obtain ⟨hchmem, rfl⟩ := channelAt_mem hch
  obtain ⟨n, hn⟩ := Option.isSome_iff_exists.mp
    (List.isSome_idxOf?.mpr ((h.both c hcmem ch hchmem).mpr hin))
  obtain ⟨i, hi⟩ := Option.isSome_iff_exists.mp (List.isSome_idxOf?.mpr hin)
  rw [hn] at hleave
  dsimp only at hleave
  rw [hc, Option.bind_some, hi] at hleave
  dsimp only at hleave
  have hlive : s'.live = modifyKey IrcClient.id c.id
      (fun c => { c with channel := swapRemove c.channel i }) s.live := by
    split at hleave
    · exact ircDeleteChannel_live hleave
    · obtain rfl := Option.some.inj hleave
      rfl
  refine ⟨{ c with channel := swapRemove c.channel i }, ?_, ?_⟩
  · unfold IrcState.clientAt
    rw [hlive]
    exact findKey_modifyKey (fun _ => rfl) hc
  · have hpos := List.length_pos_of_mem hin
    show (swapRemove c.channel i).length + 1 = c.channel.length
    rw [length_swapRemove]
    omega

variable (limit) in
theorem leaveLoop_spec {client rounds : Nat} {c : IrcClient} (h : Linked key s) (ho : Occupied s)
    (hc : s.clientAt client = some c) (hrounds : c.channel.length ≤ rounds)
    (hleave : leaveLoop key client rounds s = some s') :
    Moves limit key s s' ∧ ∃ c', s'.clientAt client = some c' ∧ c'.channel = [] := by
  induction rounds generalizing s c with
  | zero =>
    obtain rfl := Option.some.inj hleave
    exact ⟨Moves.refl h ho, c, hc, List.eq_nil_of_length_eq_zero (Nat.le_zero.mp hrounds)⟩
  | succ rounds ih =>
    rw [leaveLoop, hc, Option.bind_some] at hleave
    split at hleave
    · next hempty =>
      obtain rfl := Option.some.inj hleave
      exact ⟨Moves.refl h ho, c, hc, hempty⟩
    · next channel rest hchannels =>
      obtain ⟨ch, -, hleave⟩ := Option.bind_eq_some_iff.mp hleave
      split_ifs at hleave
      obtain ⟨s₁, hs₁, hleave⟩ := Option.bind_eq_some_iff.mp hleave
      have hmoves := ircLeaveChannel_moves limit h ho hs₁
      obtain ⟨c₁, hc₁, hless⟩ :=
        ircLeaveChannel_clientAt h hc (hchannels ▸ List.mem_cons_self) hs₁
      obtain ⟨hrest, hend⟩ := ih hmoves.linked hmoves.occupied hc₁ (by omega) hleave
      exact ⟨hmoves.trans hrest, hend⟩

/-- The client `c` has left the server. -/
structure Leaves (limit : Int) (key : List UInt8 → κ) (s s' : IrcState κ) (c : IrcClient) :
    Prop where
  linked : Linked key s'
  occupied : Occupied s'
  few : Few limit s → Few limit s'
  live : s'.live.map IrcClient.plain =
    removeKey IrcClient.id c.id (s.live.map IrcClient.plain)
  users : s'.users = s.users - 1
  clients : s'.clients =
    match c.nick with
    | some nick => removeKey Prod.fst (key nick) s.clients
    | none => s.clients
  data : s'.data = Function.update s.data c.sock (some none)

variable (limit) in
theorem ircLeaveAllChannels_spec (h : Linked key s) (ho : Occupied s) {c : IrcClient}
    (hc : s.clientAt c.id = some c) (hleave : ircLeaveAllChannels key s c = some s') :
    Leaves limit key s s' c := by
  unfold ircLeaveAllChannels at hleave
  obtain ⟨s₁, hs₁, hleave⟩ := Option.bind_eq_some_iff.mp hleave
  obtain ⟨c₁, hc₁, rfl⟩ := Option.map_eq_some_iff.mp hleave
  obtain ⟨hmoves, c₂, hc₂, hempty⟩ := leaveLoop_spec limit h ho hc (Nat.le_refl _) hs₁
  obtain rfl := Option.some.inj (hc₁.symm.trans hc₂)
  obtain ⟨hmem, hid⟩ := clientAt_mem hc₁
  obtain ⟨c₀, hc₀, hplain⟩ := hmoves.same.back hmem
  have hid₀ : c₀.id = c.id := (congrArg IrcClient.id hplain).trans hid
  obtain rfl := h.live.eq_of_key hc₀ (clientAt_mem hc).1 hid₀
  have hnick : c₁.nick = c₀.nick := (congrArg IrcClient.nick hplain).symm
  have hsock : c₁.sock = c₀.sock := (congrArg IrcClient.sock hplain).symm
  refine ⟨?_, hmoves.occupied, fun hfew a ha => ?_, ?_, ?_, ?_, ?_⟩
  · refine hmoves.linked.delete hmem hempty rfl rfl rfl (fun sock hother => ?_) rfl
    refine Function.update_of_ne (fun hsame => hother ?_) _ _
    rw [hsame, ← hsock]
    exact hmoves.linked.data c₁ hmem
  · exact hmoves.few hfew a (mem_removeKey.mp ha).1
  · show (removeKey IrcClient.id c₁.id s₁.live).map IrcClient.plain = _
    rw [map_removeKey (g := IrcClient.plain) (fun _ => rfl), hmoves.same.live, hid]
  · show s₁.users - 1 = s.users - 1
    rw [hmoves.same.users]
  · rw [← hnick, ← hmoves.same.clients]
    rfl
  · show Function.update s₁.data c₀.sock _ = _
    rw [hmoves.same.data]

end Serveez.Irc
