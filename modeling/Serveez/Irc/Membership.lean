import Serveez.Irc.Moves
import Serveez.Lib.Runs

/-!
# Membership in channels

Whether the channels and their clients agree in all states of a run. A wrong password deletes the
client without taking it out of its channels, as only `irc_leave_all_channels` does.

* `ircStep_joined`: the other steps keep `Joined`, from which `Coherent` follows.
* `membership_iff`: all states are coherent exactly if no client that is in a channel sends a wrong
  password, and clients may be in no channel at all.
-/

set_option linter.unusedSectionVars false

namespace Serveez.Irc

open Lib

variable {κ : Type} [DecidableEq κ] {key : List UInt8 → κ} {s s' : IrcState κ} {limit : Int}

/-- Clients and channels agree. A client that a channel lists is connected, and its entry in
`cflag` is the flag it has been given. -/
structure Coherent (limit : Int) (s : IrcState κ) : Prop where
  both : ∀ c ∈ s.live, ∀ ch ∈ s.rooms, c.id ∈ ch.client ↔ ch.id ∈ c.channel
  joined : ∀ c ∈ s.live, ∀ id ∈ c.channel, (s.channelAt id).isSome
  clientNodup : ∀ ch ∈ s.rooms, ch.client.Nodup
  channelNodup : ∀ c ∈ s.live, c.channel.Nodup
  few : ∀ c ∈ s.live, (c.channel.length : Int) ≤ limit
  occupied : ∀ e ∈ s.channels, ∃ ch, s.channelAt e.2 = some ch ∧ ch.client ≠ []
  connected : ∀ ch ∈ s.rooms, ∀ id ∈ ch.client,
    ∃ c, s.clientAt id = some c ∧ s.data c.sock = some (some id)
  cflag : ∀ ch ∈ s.rooms, ch.cflag = ch.client.map (s.given ch.id)

/-- A client that is in a channel does not send a wrong password. -/
def KeepsMembers (cfg : IrcConfig) (s : IrcState κ) : IrcEvent → Prop
  | .connect _ _ => 0 ≤ cfg.channelsPerUser
  | .request sock (.pass (some password)) =>
    cfg.pass.all (· password) = true ∨ ∀ c, s.clientOf sock = some c → c.channel = []
  | _ => True

structure Joined (limit : Int) (key : List UInt8 → κ) (s : IrcState κ) : Prop where
  linked : Linked key s
  occupied : Occupied s
  few : Few limit s

namespace Joined

theorem coherent (h : Joined limit key s) : Coherent limit s := by
  have hl := h.linked
  refine ⟨hl.both, ?_, hl.clientNodup, hl.channelNodup, h.few, ?_, ?_, hl.cflag⟩
  · intro c hc id hid
    obtain ⟨ch, hch, rfl⟩ := hl.joined c hc id hid
    rw [hl.channelAt_iff.mpr ⟨hch, rfl⟩]
    rfl
  · intro e he
    obtain ⟨ch, hch, rfl⟩ := hl.room e he
    exact ⟨ch, hl.channelAt_iff.mpr ⟨hch, rfl⟩, h.occupied ch hch⟩
  · intro ch hch id hid
    obtain ⟨c, hc, rfl⟩ := hl.member ch hch id hid
    exact ⟨c, hl.clientAt_iff.mpr ⟨hc, rfl⟩, hl.data c hc⟩

theorem of_moves (h : Joined limit key s) (hmoves : Moves limit key s s') : Joined limit key s' :=
  ⟨hmoves.linked, hmoves.occupied, hmoves.few h.few⟩

theorem of_leaves {c : IrcClient} (h : Joined limit key s) (hleaves : Leaves limit key s s' c) :
    Joined limit key s' := ⟨hleaves.linked, hleaves.occupied, hleaves.few h.few⟩

theorem of_live (h : Joined limit key s) {f : IrcClient → IrcClient} {id : Nat}
    (hf : ∀ a, (f a).id = a.id ∧ (f a).sock = a.sock ∧ (f a).channel = a.channel)
    (hlive : s'.live = modifyKey IrcClient.id id f s.live) (hrooms : s'.rooms = s.rooms)
    (hchannels : s'.channels = s.channels) (hdata : s'.data = s.data)
    (hgiven : s'.given = s.given) : Joined limit key s' := by
  refine ⟨h.linked.of_live hf hlive hrooms hchannels hdata hgiven, ?_, fun c hc => ?_⟩
  · unfold Occupied
    rw [hrooms]
    exact h.occupied
  · rw [hlive] at hc
    obtain ⟨c₀, hc₀, rfl⟩ := List.mem_map.mp hc
    split
    · rw [(hf c₀).2.2]
      exact h.few c₀ hc₀
    · exact h.few c₀ hc₀

theorem setClient (h : Joined limit key s) {f : IrcClient → IrcClient} (id : Nat)
    (hf : ∀ a, (f a).id = a.id ∧ (f a).sock = a.sock ∧ (f a).channel = a.channel) :
    Joined limit key (s.setClient id f) := h.of_live hf rfl rfl rfl rfl rfl

end Joined

/-! ## Events -/

/-- No client that is left has the connection. -/
theorem Joined.disconnect (h : Joined limit key s) {sock : Nat}
    (hsock : ∀ c ∈ s.live, c.sock ≠ sock) : Joined limit key (s.setData sock none) := by
  have hl := h.linked
  refine ⟨⟨hl.live, hl.rooms, hl.names, hl.entry, hl.room, hl.both, hl.clientNodup,
    hl.channelNodup, hl.joined, hl.member, fun c hc => ?_, hl.cflag⟩, h.occupied, h.few⟩
  exact (Function.update_of_ne (hsock c hc) _ _).trans (hl.data c hc)

theorem ircStep_joined {cfg : IrcConfig} {event : IrcEvent} (h : Joined limit key s)
    (hle : cfg.channelsPerUser ≤ limit)
    (hconnect : ∀ sock addr, event = .connect sock addr → 0 ≤ limit)
    (hpass : ∀ sock text, event = .request sock (.pass (some text)) →
      cfg.pass.all (· text) = true ∨ ∀ c, s.clientOf sock = some c → c.channel = [])
    (hstep : ircStep cfg key s event = some s') : Joined limit key s' := by
  cases ircStep_effect hstep with
  | @comes sock addr hsock haddr =>
    refine ⟨h.linked.connect hsock haddr _, h.occupied, fun c hc => ?_⟩
    rcases List.mem_cons.mp hc with rfl | hc
    · exact hconnect sock addr rfl
    · exact h.few c hc
  | flags hc hf => exact h.setClient _ (fun _ => ⟨rfl, rfl, rfl⟩)
  | named hc hnick =>
    rcases ircNickCallback_cases hnick with rfl | ⟨text, clients, -, -, rfl, -⟩
    · exact h
    · refine h.of_live ?_ rfl rfl rfl rfl rfl
      exact fun _ => ⟨rfl, rfl, rfl⟩
  | enrolls hc hnot hflag hadd =>
    refine h.of_live ?_ rfl rfl rfl rfl rfl
    exact fun _ => ⟨rfl, rfl, rfl⟩
  | @deleted sock c password hc hwrong =>
    have hempty := (hpass sock password rfl).resolve_left hwrong c hc
    refine ⟨h.linked.delete (clientOf_mem hc).1 hempty rfl rfl rfl (fun _ _ => rfl) rfl,
      h.occupied, ?_⟩
    exact fun a ha => h.few a (mem_removeKey.mp ha).1
  | joins hall => exact h.of_moves (hall (moves_composes hle) h.linked h.occupied)
  | parts hall => exact h.of_moves (hall (moves_composes hle).toParting h.linked h.occupied)
  | quits hc hleave =>
    exact h.of_leaves (ircLeaveAllChannels_spec limit h.linked h.occupied (clientOf_mem hc).2.1
      hleave)
  | closed hdata =>
    refine h.disconnect (fun c hc hsame => ?_)
    have hown := h.linked.data c hc
    rw [hsame, hdata] at hown
    exact nomatch hown
  | @disconnects sock c s₁ hc hleave =>
    obtain ⟨-, hat, hdata⟩ := clientOf_mem hc
    have hleaves := ircLeaveAllChannels_spec limit h.linked h.occupied hat hleave
    refine (h.of_leaves hleaves).disconnect (fun a ha hsame => ?_)
    -- the client of the connection is the one that has left
    have hown := hleaves.linked.data a ha
    rw [hleaves.data, hsame] at hown
    by_cases hsock : sock = c.sock
    · rw [hsock, Function.update_self] at hown
      exact nomatch hown
    · rw [Function.update_of_ne hsock, hdata] at hown
      have hplain : a.plain ∈ removeKey IrcClient.id c.id (s.live.map IrcClient.plain) :=
        hleaves.live ▸ List.mem_map_of_mem ha
      refine (mem_removeKey.mp hplain).2 ?_
      exact (Option.some.inj (Option.some.inj hown)).symm

/-- A client that is deleted is still listed by its channels. -/
theorem keepsMembers_of_coherent {cfg : IrcConfig} {event : IrcEvent}
    (h : Joined cfg.channelsPerUser key s) (hstep : ircStep cfg key s event = some s')
    (hcoherent : Coherent cfg.channelsPerUser s') : KeepsMembers cfg s event := by
  cases event with
  | connect sock addr =>
    unfold ircStep at hstep
    dsimp only at hstep
    split_ifs at hstep
    obtain rfl := Option.some.inj hstep
    exact hcoherent.few _ List.mem_cons_self
  | request sock request =>
    cases request with
    | pass password =>
      cases password with
      | none => trivial
      | some text =>
        obtain ⟨c, hc, hhandle⟩ := Option.bind_eq_some_iff.mp hstep
        obtain rfl := Option.some.inj hhandle
        by_cases hright : cfg.pass.all (· text) = true
        · exact Or.inl hright
        refine Or.inr (fun c' hc' => ?_)
        obtain rfl := Option.some.inj (hc.symm.trans hc')
        obtain ⟨hmem, -, -⟩ := clientOf_mem hc
        unfold ircPassCallback at hcoherent
        dsimp only at hcoherent
        rw [if_neg hright] at hcoherent
        refine List.eq_nil_iff_forall_not_mem.mpr (fun id hid => ?_)
        obtain ⟨ch, hch, rfl⟩ := h.linked.joined c hmem id hid
        obtain ⟨a, ha, -⟩ :=
          hcoherent.connected ch hch c.id ((h.linked.both c hmem ch hch).mpr hid)
        obtain ⟨ha, hsame⟩ := clientAt_mem ha
        exact (mem_removeKey.mp ha).2 hsame
    | _ => trivial
  | _ => trivial

/-! ## Runs -/

variable (key limit) in
theorem joined_start : Joined limit key (startIrc : IrcState κ) :=
  ⟨⟨List.nodup_nil, List.nodup_nil, List.nodup_nil, List.forall_mem_nil _, List.forall_mem_nil _,
    List.forall_mem_nil _, List.forall_mem_nil _, List.forall_mem_nil _, List.forall_mem_nil _,
    List.forall_mem_nil _, List.forall_mem_nil _, List.forall_mem_nil _⟩, List.forall_mem_nil _,
    List.forall_mem_nil _⟩

theorem membership_iff (cfg : IrcConfig) (key : List UInt8 → κ) (events : List IrcEvent) :
    (∀ pre, pre <+: events → ∀ s, ircRun cfg key pre = some s →
        Coherent cfg.channelsPerUser s) ↔
      ∀ pre event, pre ++ [event] <+: events → ∀ s s', ircRun cfg key pre = some s →
        ircStep cfg key s event = some s' → KeepsMembers cfg s event := by
  apply forall_reached_iff (ircStep cfg key) (Joined cfg.channelsPerUser key)
  · exact joined_start key _
  · exact (joined_start key _).coherent
  · exact fun s event s' hjoined _ hstep hnext => keepsMembers_of_coherent hjoined hstep hnext
  · intro s event s' hjoined _ hstep hkeeps
    have hnext := ircStep_joined hjoined (Int.le_refl _) (by rintro sock addr rfl; exact hkeeps)
      (by rintro sock text rfl; exact hkeeps) hstep
    exact ⟨hnext, hnext.coherent⟩

/-- A client joins a channel, and then sends a wrong password. -/
theorem wrongPassword_not_coherent :
    ¬ ∀ (cfg : IrcConfig) (events : List IrcEvent), ∀ pre, pre <+: events →
      ∀ s, ircRun cfg ircKey pre = some s → Coherent cfg.channelsPerUser s := by
  intro hall
  let cfg : IrcConfig := ⟨10, some (fun password => decide (password = [112]))⟩
  let events : List IrcEvent := [.connect 1 1, .request 1 (.nick (some [97])),
    .request 1 (.join [⟨[35], true, 2⟩]), .request 1 (.pass (some [120]))]
  have hrun : (ircRun cfg ircKey events).map (fun s => (s.live, s.rooms)) =
      some ([], [⟨2, [35], [1], [modeOperator]⟩]) := by decide +kernel
  obtain ⟨s, hs, hends⟩ := Option.map_eq_some_iff.mp hrun
  obtain ⟨hlive, hrooms⟩ := Prod.mk.inj hends
  have hcoherent := hall cfg events events (List.prefix_refl _) s hs
  obtain ⟨c, hc, -⟩ := hcoherent.connected ⟨2, [35], [1], [modeOperator]⟩
    (hrooms ▸ List.mem_cons_self) 1 List.mem_cons_self
  have hmem := (clientAt_mem hc).1
  rw [hlive] at hmem
  exact absurd hmem List.not_mem_nil

end Serveez.Irc
