import Serveez.Irc.Membership
import Serveez.Irc.Nicks

/-!
# The registry of nicks

Whether the hash of clients and the clients agree in all states of a run. A nick is looked up when
it is chosen and not again when the client is registered, and a client that has only chosen its
nick takes the entry of the nick with it.

* `ircStep_recorded`: the other steps keep `Recorded`, from which `Registry` follows.
* `registry_iff`: all states have a right registry exactly if no client is registered, or goes
  without being registered, under a nick of somebody else, and none sends a wrong password.
-/

set_option linter.unusedSectionVars false

namespace Serveez.Irc

open Lib

variable {κ : Type} [DecidableEq κ] {key : List UInt8 → κ} {s s' : IrcState κ} {limit : Int}

/-- The registered clients have different nicks, by which they are found. The hash and the
connections have no client that has been freed, and `users` counts the clients. -/
structure Registry (key : List UInt8 → κ) (s : IrcState κ) : Prop where
  different : ((s.live.filter (·.registered)).map IrcClient.nick).Nodup
  found : ∀ c ∈ s.live, c.registered = true →
    ∃ nick, c.nick = some nick ∧ ircFindNick key s nick = some c.id
  clients : ∀ e ∈ s.clients, (s.clientAt e.2).isSome
  users : s.users = s.live.length
  data : ∀ sock id, s.data sock = some (some id) → (s.clientAt id).isSome

/-- The nick of a client that is not registered is free. -/
def FreeNick (key : List UInt8 → κ) (s : IrcState κ) (c : IrcClient) : Prop :=
  c.registered = false → ∀ nick, c.nick = some nick → ircFindNick key s nick = none

/-- A client is registered, or goes without being registered, with a nick that is free, and sends
no wrong password. -/
def KeepsRegistry (cfg : IrcConfig) (key : List UInt8 → κ) (s : IrcState κ) : IrcEvent → Prop
  | .idle sock valid =>
    ∀ c, s.clientOf sock = some c → c.flag.registered = true → valid = true → FreeNick key s c
  | .request _ (.pass (some password)) => cfg.pass.all (· password) = true
  | .request sock .quit => ∀ c, s.clientOf sock = some c → FreeNick key s c
  | .disconnect sock => ∀ c, s.clientOf sock = some c → FreeNick key s c
  | _ => True

/-- The hash of nicks, for the clients without their channels. -/
def IrcState.Listed (key : List UInt8 → κ) (s : IrcState κ) : Prop :=
  Irc.Listed key s.users s.clients (s.live.map IrcClient.plain) s.data

structure Recorded (limit : Int) (key : List UInt8 → κ) (s : IrcState κ) : Prop where
  joined : Joined limit key s
  listed : s.Listed key

/-! ## What is recorded -/

theorem plain_clientAt {id : Nat} {c : IrcClient} (hc : s.clientAt id = some c) :
    findKey IrcClient.id id (s.live.map IrcClient.plain) = some c.plain := by
  rw [findKey_map (g := IrcClient.plain) (fun _ => rfl)]
  exact congrArg (Option.map IrcClient.plain) hc

theorem findNick_none {nick : List UInt8} :
    ircFindNick key s nick = none ↔ findKey Prod.fst (key nick) s.clients = none :=
  Option.map_eq_none_iff

namespace Recorded

theorem clientAt (h : Recorded limit key s) {id : Nat}
    (hplain : ∃ c ∈ s.live.map IrcClient.plain, c.id = id) : (s.clientAt id).isSome := by
  obtain ⟨_, hmem, rfl⟩ := hplain
  obtain ⟨c, hc, rfl⟩ := List.mem_map.mp hmem
  exact Option.isSome_of_mem (h.joined.linked.clientAt_iff.mpr ⟨hc, rfl⟩)

theorem found (h : Recorded limit key s) {c : IrcClient} (hc : c ∈ s.live)
    (hregistered : c.registered = true) :
    ∃ nick, c.nick = some nick ∧ ircFindNick key s nick = some c.id := by
  obtain ⟨nick, hnick, he⟩ := h.listed.found c.plain (List.mem_map_of_mem hc) hregistered
  exact ⟨nick, hnick, congrArg (Option.map Prod.snd) (findKey_of_mem h.listed.names he rfl)⟩

theorem of_found (h : Recorded limit key s) {nick : List UInt8} {id : Nat}
    (hfind : ircFindNick key s nick = some id) :
    ∃ c ∈ s.live, c.id = id ∧ c.registered = true ∧ c.nick.map key = some (key nick) := by
  obtain ⟨e, he, rfl⟩ := Option.map_eq_some_iff.mp hfind
  obtain ⟨hmem, hkey⟩ := findKey_mem he
  obtain ⟨a, ha, hid, hregistered, hnick⟩ := h.listed.entry e hmem
  obtain ⟨c, hc, rfl⟩ := List.mem_map.mp ha
  exact ⟨c, hc, hid, hregistered, hkey ▸ hnick⟩

theorem registry (h : Recorded limit key s) : Registry key s := by
  refine ⟨?_, fun c hc => h.found hc, fun e he => ?_, ?_, fun sock id hdata => ?_⟩
  · refine List.Nodup.map_on ?_ (List.Nodup.of_map _ h.joined.linked.live |>.filter _)
    intro c hc d hd hsame
    obtain ⟨hc, hcr⟩ := List.mem_filter.mp hc
    obtain ⟨hd, hdr⟩ := List.mem_filter.mp hd
    obtain ⟨nick, hnick, hfind⟩ := h.found hc hcr
    obtain ⟨nick', hnick', hfind'⟩ := h.found hd hdr
    obtain rfl := Option.some.inj (hnick.symm.trans (hsame.trans hnick'))
    exact h.joined.linked.live.eq_of_key hc hd (Option.some.inj (hfind.symm.trans hfind'))
  · obtain ⟨a, ha, hid, -⟩ := h.listed.entry e he
    exact h.clientAt ⟨a, ha, hid⟩
  · rw [h.listed.count, List.length_map]
  · obtain ⟨a, ha, hid, -⟩ := h.listed.own sock id hdata
    exact h.clientAt ⟨a, ha, hid⟩

end Recorded

/-! ## Commands -/

theorem listed_change {id : Nat} {f : IrcClient → IrcClient}
    (hlive : s'.live = modifyKey IrcClient.id id f s.live) (hf : ∀ a, (f a).plain = f a.plain)
    (hlisted : Listed key s'.users s'.clients
      (modifyKey IrcClient.id id f (s.live.map IrcClient.plain)) s'.data) : s'.Listed key := by
  unfold IrcState.Listed
  rw [hlive, map_modifyKey_comm (g := IrcClient.plain) (fun _ => rfl) hf]
  exact hlisted

theorem IrcState.Listed.of_same (h : s.Listed key) (hsame : SameClients s s') : s'.Listed key := by
  unfold IrcState.Listed
  rw [hsame.users, hsame.clients, hsame.live, hsame.data]
  exact h

theorem Recorded.leave (h : Recorded limit key s) {c : IrcClient} (hc : s.clientAt c.id = some c)
    (hfree : FreeNick key s c) {bound : Int} (hleaves : Leaves bound key s s' c) :
    s'.Listed key := by
  unfold IrcState.Listed
  rw [hleaves.users, hleaves.clients, hleaves.live, hleaves.data]
  exact h.listed.removed (c := c.plain) (plain_clientAt hc)
    (fun hnot nick hnick => findNick_none.mp (hfree hnot nick hnick))

theorem ircNickCallback_listed (h : Recorded limit key s) {c : IrcClient}
    (hc : s.clientAt c.id = some c) {nick : Option (List UInt8)}
    (hnick : ircNickCallback key s c nick = some s') : s'.Listed key := by
  rcases ircNickCallback_cases hnick with rfl | ⟨text, clients, -, hunused, rfl,
    ⟨-, hregistered, old, hold, rfl⟩ | ⟨hchange, rfl⟩⟩
  · exact h.listed
  · refine listed_change rfl (fun _ => rfl) ?_
    apply h.listed.renamed (c := c.plain) (plain_clientAt hc)
    · exact fun _ => ⟨rfl, rfl⟩
    · exact hregistered
    · exact hold
    · exact findNick_none.mp hunused
    · exact ⟨rfl, rfl, hregistered⟩
  · have hmem : c.plain ∈ s.live.map IrcClient.plain :=
      List.mem_map_of_mem (clientAt_mem hc).1
    have hnot : c.registered = false := Bool.eq_false_iff.mpr
      (fun htrue => hchange ⟨h.listed.flagged c.plain hmem htrue, htrue⟩)
    refine listed_change rfl (fun _ => rfl) ?_
    apply h.listed.named (c := c.plain) (plain_clientAt hc)
    · exact fun _ => ⟨rfl, rfl⟩
    · exact hnot
    · rfl
    · rfl

theorem UMode.nick_of_registered {flag : UMode} (h : flag.registered = true) :
    flag.nick = true := by
  unfold UMode.registered at h
  simp only [Bool.and_eq_true] at h
  exact h.1.1.1.1

/-! ## Events -/

theorem ircStep_recorded {cfg : IrcConfig} {event : IrcEvent}
    (h : Recorded (max 0 cfg.channelsPerUser) key s) (hkeeps : KeepsRegistry cfg key s event)
    (hstep : ircStep cfg key s event = some s') :
    Recorded (max 0 cfg.channelsPerUser) key s' := by
  have hle : cfg.channelsPerUser ≤ max 0 cfg.channelsPerUser := Int.le_max_right _ _
  constructor
  · refine ircStep_joined h.joined hle (fun _ _ _ => Int.le_max_left _ _) ?_ hstep
    rintro sock text rfl
    exact Or.inl hkeeps
  have hlinked := h.joined.linked
  have hoccupied := h.joined.occupied
  have hmem {sock : Nat} {c : IrcClient} (hc : s.clientOf sock = some c) :
      c.plain ∈ s.live.map IrcClient.plain := List.mem_map_of_mem (clientOf_mem hc).1
  cases ircStep_effect hstep with
  | @comes sock addr hsock haddr =>
    refine h.listed.connect (c := ⟨addr, sock, none, _, false, []⟩) ?_ rfl rfl
    rw [findKey_map (g := IrcClient.plain) (fun _ => rfl)]
    exact congrArg (Option.map IrcClient.plain) haddr
  | @flags _ sock c f hc hf =>
    refine listed_change rfl (fun _ => rfl) ?_
    apply h.listed.flags (c := c.plain) (plain_clientAt (clientOf_mem hc).2.1)
    · exact fun _ => ⟨rfl, rfl⟩
    · exact ⟨rfl, rfl, hf c.flag⟩
  | named hc hnick => exact ircNickCallback_listed h (clientOf_mem hc).2.1 hnick
  | @enrolls sock c clients hc hnot hflag hadd =>
    have hnick : c.flag.nick = true := UMode.nick_of_registered hflag
    obtain ⟨nick, hsome⟩ := Option.isSome_iff_exists.mp (h.listed.nicked c.plain (hmem hc) hnick)
    have hnone := hkeeps c hc hflag rfl hnot nick hsome
    have hclients : putKey (key nick) c.id s.clients = clients := by
      unfold ircAddClient at hadd
      rw [show c.nick = some nick from hsome] at hadd
      dsimp only at hadd
      rw [hnone] at hadd
      exact congrArg IrcState.clients hadd
    rw [← hclients]
    refine listed_change (s := s) rfl (fun _ => rfl) ?_
    apply h.listed.added (c := c.plain) (plain_clientAt (clientOf_mem hc).2.1)
    · exact fun _ => ⟨rfl, rfl⟩
    · exact hnot
    · exact findNick_none.mp hnone
    · exact ⟨hsome, hnick, rfl⟩
  | deleted hc hwrong => exact absurd hkeeps hwrong
  | joins hall => exact h.listed.of_same (hall (moves_composes hle) hlinked hoccupied).same
  | parts hall =>
    exact h.listed.of_same (hall (moves_composes hle).toParting hlinked hoccupied).same
  | quits hc hleave =>
    have hat := (clientOf_mem hc).2.1
    exact h.leave hat (hkeeps _ hc) (ircLeaveAllChannels_spec 0 hlinked hoccupied hat hleave)
  | closed hdata => exact h.listed.disconnect _
  | disconnects hc hleave =>
    have hat := (clientOf_mem hc).2.1
    have hleaves := ircLeaveAllChannels_spec 0 hlinked hoccupied hat hleave
    exact (h.leave hat (hkeeps _ hc) hleaves).disconnect _

/-! ## What goes wrong otherwise -/

theorem freeNick_of_found (h : Recorded limit key s) {c : IrcClient}
    (hc : s.clientAt c.id = some c) (hleaves : Leaves limit key s s' c)
    (hfound : ∀ d ∈ s'.live, d.registered = true →
      ∃ nick, d.nick = some nick ∧ ircFindNick key s' nick = some d.id) : FreeNick key s c := by
  intro hnot nick hnick
  by_contra hused
  obtain ⟨id, hid⟩ := Option.ne_none_iff_exists'.mp hused
  obtain ⟨d, hd, -, hdr, hdnick⟩ := h.of_found hid
  have hne : d.id ≠ c.id := by
    intro hsame
    rw [h.joined.linked.live.eq_of_key hd (clientAt_mem hc).1 hsame, hnot] at hdr
    exact nomatch hdr
  have hstays : d.plain ∈ s'.live.map IrcClient.plain := by
    rw [hleaves.live]
    exact mem_removeKey.mpr ⟨List.mem_map_of_mem hd, hne⟩
  obtain ⟨d', hd', hplain⟩ := List.mem_map.mp hstays
  have hregistered : d'.registered = true := (congrArg IrcClient.registered hplain).trans hdr
  obtain ⟨nick', hnick', hfind⟩ := hfound d' hd' hregistered
  have hsame : d.nick = some nick' := (congrArg IrcClient.nick hplain).symm.trans hnick'
  rw [hsame] at hdnick
  obtain ⟨e, he, -⟩ := Option.map_eq_some_iff.mp hfind
  obtain ⟨hmem, hkey⟩ := findKey_mem he
  rw [hleaves.clients, hnick] at hmem
  exact (mem_removeKey.mp hmem).2 (hkey.trans (Option.some.inj hdnick))

theorem freeNick_of_register (h : Recorded limit key s) {c : IrcClient}
    (hc : s.clientAt c.id = some c) {valid : Bool} (hflag : c.flag.registered = true)
    (hvalid : valid = true) (hregistry : Registry key (ircRegisterClient key s c valid)) :
    FreeNick key s c := by
  intro hnot nick hnick
  by_contra hused
  have hadd : ircAddClient key s c = s := by
    unfold ircAddClient
    rw [hnick]
    dsimp only
    rw [if_pos (Option.isSome_iff_ne_none.mpr hused)]
  unfold ircRegisterClient at hregistry
  rw [if_pos ⟨hflag, hvalid⟩, hadd] at hregistry
  have hmem : { c with registered := true } ∈
      (s.setClient c.id (fun c => { c with registered := true })).live :=
    (mem_modifyKey h.joined.linked.live hc).mpr (Or.inl rfl)
  obtain ⟨nick', hnick', hfind⟩ := hregistry.found _ hmem rfl
  obtain ⟨d, hd, hid, hdr, -⟩ := h.of_found hfind
  obtain rfl := h.joined.linked.live.eq_of_key hd (clientAt_mem hc).1 hid
  rw [hnot] at hdr
  exact nomatch hdr

theorem keepsRegistry_of_registry {cfg : IrcConfig} {event : IrcEvent}
    (h : Recorded limit key s) (hstep : ircStep cfg key s event = some s')
    (hregistry : Registry key s') : KeepsRegistry cfg key s event := by
  have hlinked := h.joined.linked
  have hoccupied := h.joined.occupied
  cases event with
  | idle sock valid =>
    intro c hc hflag hvalid hnot
    obtain ⟨c', hc', hs'⟩ := Option.map_eq_some_iff.mp hstep
    obtain rfl := Option.some.inj (hc.symm.trans hc')
    rw [if_neg (Bool.eq_false_iff.mp hnot)] at hs'
    exact freeNick_of_register h (clientOf_mem hc).2.1 hflag hvalid (hs' ▸ hregistry) hnot
  | request sock request =>
    cases request with
    | quit =>
      intro c hc
      obtain ⟨c', hc', hhandle⟩ := Option.bind_eq_some_iff.mp hstep
      obtain rfl := Option.some.inj (hc.symm.trans hc')
      have hat := (clientOf_mem hc).2.1
      exact freeNick_of_found h hat
        (ircLeaveAllChannels_spec limit hlinked hoccupied hat hhandle) hregistry.found
    | pass password =>
      cases password with
      | none => trivial
      | some text =>
        show cfg.pass.all (· text) = true
        obtain ⟨c, hc, hhandle⟩ := Option.bind_eq_some_iff.mp hstep
        obtain rfl := Option.some.inj hhandle
        by_contra hwrong
        unfold ircPassCallback at hregistry
        dsimp only at hregistry
        rw [if_neg hwrong] at hregistry
        obtain ⟨a, ha⟩ := Option.isSome_iff_exists.mp
          (hregistry.data sock c.id (clientOf_mem hc).2.2)
        obtain ⟨hmem, hsame⟩ := clientAt_mem ha
        exact (mem_removeKey.mp hmem).2 hsame
    | _ => trivial
  | disconnect sock =>
    intro c hc
    obtain ⟨-, hat, hdata⟩ := clientOf_mem hc
    unfold ircStep ircDisconnect at hstep
    dsimp only at hstep
    rw [hdata] at hstep
    dsimp only at hstep
    rw [hat, Option.bind_some] at hstep
    obtain ⟨s₁, hs₁, rfl⟩ := Option.map_eq_some_iff.mp hstep
    exact freeNick_of_found h hat
      (ircLeaveAllChannels_spec limit hlinked hoccupied hat hs₁) hregistry.found
  | _ => trivial

/-! ## Runs -/

variable (limit) in
theorem recorded_start : Recorded limit key (startIrc : IrcState κ) :=
  ⟨joined_start _ _, List.nodup_nil, List.nodup_nil, List.forall_mem_nil _,
    List.forall_mem_nil _, List.forall_mem_nil _, List.forall_mem_nil _, rfl,
    fun _ _ hdata => by cases hdata⟩

theorem registry_iff (cfg : IrcConfig) (key : List UInt8 → κ) (events : List IrcEvent) :
    (∀ pre, pre <+: events → ∀ s, ircRun cfg key pre = some s → Registry key s) ↔
      ∀ pre event, pre ++ [event] <+: events → ∀ s s', ircRun cfg key pre = some s →
        ircStep cfg key s event = some s' → KeepsRegistry cfg key s event := by
  apply forall_reached_iff (ircStep cfg key) (Recorded (max 0 cfg.channelsPerUser) key)
  · exact recorded_start _
  · exact (recorded_start 0).registry
  · exact fun s event s' hrecorded _ hstep hnext =>
      keepsRegistry_of_registry hrecorded hstep hnext
  · intro s event s' hrecorded _ hstep hkeeps
    have hnext := ircStep_recorded hrecorded hkeeps hstep
    exact ⟨hnext, hnext.registry⟩

/-- Two clients choose the same nick before one of them is registered. -/
theorem sameNick_not_registry :
    ¬ ∀ (cfg : IrcConfig) (events : List IrcEvent), ∀ pre, pre <+: events →
      ∀ s, ircRun cfg ircKey pre = some s → Registry ircKey s := by
  intro hall
  let cfg : IrcConfig := ⟨10, none⟩
  let enter (sock : Nat) : List IrcEvent :=
    [.connect sock sock, .request sock (.nick (some [97])), .request sock (.user true),
      .identDone sock, .rdnsDone sock]
  let events : List IrcEvent := enter 1 ++ enter 2 ++ [.idle 1 true, .idle 2 true]
  have hrun : (ircRun cfg ircKey events).map
      (fun s => (s.live.filter (·.registered)).map IrcClient.nick) =
        some [some [97], some [97]] := by decide +kernel
  obtain ⟨s, hs, hnicks⟩ := Option.map_eq_some_iff.mp hrun
  have hregistry := hall cfg events events (List.prefix_refl _) s hs
  have hdifferent := hregistry.different
  rw [hnicks] at hdifferent
  revert hdifferent
  decide

end Serveez.Irc
