import Serveez.Irc.Commands

/-!
# Rules for commands and events

The commands about channels are made of three changes: a client joins a channel, a client leaves
one, and a client gets another flag in one. A relation between the states before and after each of
them that can be composed (`Composes`) holds between the states before and after a command. For the
commands in which nobody joins the last two are enough (`Parting`).

* `Composes.joinCallback`, `Parting.partCallback`, `Parting.kickCallback`,
  `Parting.modeCallback`: the commands.
* `Leaving.leaveChannel`: a client leaves one channel.
* `ircNickCallback_cases`: a client gets a nick.
* `Parting.leaveLoop`, `Parting.leaveAllChannels`: a client leaves all its channels, and the
  server.
* `ircStep_effect`: what an event can do (`Effect`).
-/

namespace Serveez.Irc

open Lib

variable {κ : Type} [DecidableEq κ] {limit : Int} {key : List UInt8 → κ} {s s' : IrcState κ}
  {R : IrcState κ → IrcState κ → Prop} {cfg : IrcConfig}

structure Parting (key : List UInt8 → κ) (R : IrcState κ → IrcState κ → Prop) : Prop where
  refl : ∀ s, R s s
  trans : ∀ {s s' s''}, R s s' → R s' s'' → R s s''
  leave : ∀ {s s' client channel}, ircLeaveChannel key s client channel = some s' → R s s'
  flag : ∀ {s s' channel cflag change}, ircClientFlag s channel cflag change = some s' → R s s'

structure Composes (limit : Int) (key : List UInt8 → κ) (R : IrcState κ → IrcState κ → Prop) :
    Prop extends Parting key R where
  join : ∀ {s s' client chan addr}, ircJoinChannel limit key s client chan addr = some s' → R s s'

/-- The changes that leaving a channel is made of: a client goes from the channel, the channel goes
from the client, and a channel without clients is deleted. -/
structure Leaving (key : List UInt8 → κ) (R : IrcState κ → IrcState κ → Prop) : Prop where
  refl : ∀ s, R s s
  trans : ∀ {s s' s''}, R s s' → R s' s'' → R s s''
  channel : ∀ s id n, R s (s.setChannel id fun ch =>
    { ch with client := swapRemove ch.client n, cflag := swapRemove ch.cflag n })
  client : ∀ s id i, R s (s.setClient id fun c => { c with channel := swapRemove c.channel i })
  delete : ∀ {s s' channel}, ircDeleteChannel key s channel = some s' → R s s'

theorem Leaving.leaveChannel (h : Leaving key R) {client channel : Nat}
    (hleave : ircLeaveChannel key s client channel = some s') : R s s' := by
  unfold ircLeaveChannel at hleave
  obtain ⟨ch, -, hleave⟩ := Option.bind_eq_some_iff.mp hleave
  split at hleave
  · next n hn =>
    obtain ⟨c, -, hleave⟩ := Option.bind_eq_some_iff.mp hleave
    have hshort := h.channel s channel n
    have hunlisted : R s (unlistChannel (s.setChannel channel fun ch =>
        { ch with client := swapRemove ch.client n, cflag := swapRemove ch.cflag n })
        c client channel) := by
      unfold unlistChannel
      split
      · exact h.trans hshort (h.client _ _ _)
      · exact hshort
    dsimp only at hleave
    split_ifs at hleave
    · exact h.trans hunlisted (h.delete hleave)
    · obtain rfl := Option.some.inj hleave
      exact hunlisted
  · split_ifs at hleave
    · exact h.delete hleave
    · obtain rfl := Option.some.inj hleave
      exact h.refl s

/-- What NICK does: nothing, or a client gets a nick that nobody has. Its entry among the nicks is
replaced when it is registered, and it has none before. -/
theorem ircNickCallback_cases {c : IrcClient} {nick : Option (List UInt8)}
    (hnick : ircNickCallback key s c nick = some s') :
    s' = s ∨ ∃ text clients, nick = some text ∧ ircFindNick key s (ircGetNick text) = none ∧
      s' = { s with clients := clients }.setClient c.id (fun a =>
        { a with nick := some (ircGetNick text), flag := { a.flag with nick := true } }) ∧
      ((c.flag.nick = true ∧ c.registered = true ∧ ∃ old, c.nick = some old ∧
          clients = putKey (key (ircGetNick text)) c.id (removeKey Prod.fst (key old) s.clients)) ∨
        (¬ (c.flag.nick = true ∧ c.registered = true) ∧ clients = s.clients)) := by
  cases nick with
  | none => exact Or.inl (Option.some.inj hnick).symm
  | some text =>
    unfold ircNickCallback at hnick
    dsimp only at hnick
    split_ifs at hnick with hempty hused hchange
    · exact Or.inl (Option.some.inj hnick).symm
    · exact Or.inl (Option.some.inj hnick).symm
    · obtain ⟨old, hold, rfl⟩ := Option.map_eq_some_iff.mp hnick
      exact Or.inr ⟨text, _, rfl, Option.not_isSome_iff_eq_none.mp hused, rfl,
        Or.inl ⟨hchange.1, hchange.2, old, hold, rfl⟩⟩
    · obtain rfl := Option.some.inj hnick
      exact Or.inr ⟨text, s.clients, rfl, Option.not_isSome_iff_eq_none.mp hused, rfl,
        Or.inr ⟨hchange, rfl⟩⟩

theorem Composes.joinCallback (h : Composes limit key R) {client : Nat} {targets : List JoinTarget}
    (hjoin : ircJoinCallback limit key client targets s = some s') : R s s' := by
  induction targets generalizing s with
  | nil =>
    obtain rfl := Option.some.inj hjoin
    exact h.refl s
  | cons target targets ih =>
    rw [ircJoinCallback] at hjoin
    split_ifs at hjoin with hname hdenied
    · obtain rfl := Option.some.inj hjoin
      exact h.refl s
    · obtain rfl := Option.some.inj hjoin
      exact h.refl s
    · obtain ⟨s₁, hs₁, hjoin⟩ := Option.bind_eq_some_iff.mp hjoin
      apply h.trans (h.join hs₁)
      apply ih
      split at hjoin
      · exact hjoin
      · obtain ⟨ch, -, hjoin⟩ := Option.bind_eq_some_iff.mp hjoin
        split_ifs at hjoin
        exact hjoin

namespace Parting

theorem partLoop (h : Parting key R) {client : Nat} {targets : List (List UInt8)}
    {rounds n : Nat} (hpart : Irc.partLoop key client targets rounds n s = some s') :
    R s s' := by
  induction rounds generalizing s n with
  | zero =>
    obtain rfl := Option.some.inj hpart
    exact h.refl s
  | succ rounds ih =>
    rw [Irc.partLoop] at hpart
    split at hpart
    · obtain rfl := Option.some.inj hpart
      exact h.refl s
    split at hpart
    · obtain rfl := Option.some.inj hpart
      exact h.refl s
    obtain ⟨ch, -, hpart⟩ := Option.bind_eq_some_iff.mp hpart
    split_ifs at hpart
    · obtain ⟨s₁, hs₁, hpart⟩ := Option.bind_eq_some_iff.mp hpart
      exact h.trans (h.leave hs₁) (ih hpart)
    · obtain rfl := Option.some.inj hpart
      exact h.refl s

theorem partCallback (h : Parting key R) {c : IrcClient} {targets : List (List UInt8)}
    (hpart : ircPartCallback key s c targets = some s') : R s s' := h.partLoop hpart

theorem kickCallback (h : Parting key R) {client : Nat}
    {targets : List (List UInt8 × List UInt8)}
    (hkick : ircKickCallback key client targets s = some s') : R s s' := by
  induction targets generalizing s with
  | nil =>
    obtain rfl := Option.some.inj hkick
    exact h.refl s
  | cons target targets ih =>
    rw [ircKickCallback] at hkick
    obtain ⟨kicks, -, hkick⟩ := Option.bind_eq_some_iff.mp hkick
    split at hkick
    · exact ih hkick
    · split_ifs at hkick
      obtain ⟨s₁, hs₁, hkick⟩ := Option.bind_eq_some_iff.mp hkick
      exact h.trans (h.leave hs₁) (ih hkick)

theorem clientFlags (h : Parting key R) {channel : Nat} {cflag : UInt32}
    {changes : List ModeChange}
    (hflags : changes.foldlM (fun s change => ircClientFlag s channel cflag change) s = some s') :
    R s s' := by
  induction changes generalizing s with
  | nil =>
    obtain rfl := Option.some.inj hflags
    exact h.refl s
  | cons change changes ih =>
    rw [List.foldlM_cons] at hflags
    obtain ⟨s₁, hs₁, hflags⟩ := Option.bind_eq_some_iff.mp hflags
    exact h.trans (h.flag hs₁) (ih hflags)

theorem modeCallback (h : Parting key R) {client : Nat} {chan : List UInt8}
    {changes : List ModeChange} (hmode : ircModeCallback key s client chan changes = some s') :
    R s s' := by
  unfold ircModeCallback at hmode
  split at hmode
  · obtain rfl := Option.some.inj hmode
    exact h.refl s
  obtain ⟨ch, -, hmode⟩ := Option.bind_eq_some_iff.mp hmode
  split at hmode
  · obtain rfl := Option.some.inj hmode
    exact h.refl s
  obtain ⟨cflag, -, hmode⟩ := Option.bind_eq_some_iff.mp hmode
  exact h.clientFlags hmode

theorem leaveLoop (h : Parting key R) {client rounds : Nat}
    (hleave : Irc.leaveLoop key client rounds s = some s') : R s s' := by
  induction rounds generalizing s with
  | zero =>
    obtain rfl := Option.some.inj hleave
    exact h.refl s
  | succ rounds ih =>
    rw [Irc.leaveLoop] at hleave
    obtain ⟨c, -, hleave⟩ := Option.bind_eq_some_iff.mp hleave
    split at hleave
    · obtain rfl := Option.some.inj hleave
      exact h.refl s
    obtain ⟨ch, -, hleave⟩ := Option.bind_eq_some_iff.mp hleave
    split_ifs at hleave
    obtain ⟨s₁, hs₁, hleave⟩ := Option.bind_eq_some_iff.mp hleave
    exact h.trans (h.leave hs₁) (ih hleave)

theorem leaveAllChannels (h : Parting key R) {c : IrcClient}
    (hleave : ircLeaveAllChannels key s c = some s') :
    ∃ s₁ c₁, R s s₁ ∧ s₁.clientAt c.id = some c₁ ∧
      s' = (ircDeleteClient key s₁ c₁).setData c.sock (some none) := by
  obtain ⟨s₁, hs₁, hleave⟩ := Option.bind_eq_some_iff.mp hleave
  obtain ⟨c₁, hc₁, hleave⟩ := Option.map_eq_some_iff.mp hleave
  exact ⟨s₁, c₁, h.leaveLoop hs₁, hc₁, hleave.symm⟩

end Parting

/-! ## Events -/

/-- What an event can do to the clients. The commands about channels are known by what their rules
say of them, and so is an event that changes nothing. -/
inductive Effect (cfg : IrcConfig) (key : List UInt8 → κ) (s : IrcState κ) :
    IrcEvent → IrcState κ → Prop
  | comes {sock addr : Nat} (hsock : s.data sock = none) (haddr : s.clientAt addr = none) :
      Effect cfg key s (.connect sock addr) (ircStartAuth cfg.pass.isSome s sock addr)
  | flags {event : IrcEvent} {sock : Nat} {c : IrcClient} {f : UMode → UMode}
      (hc : s.clientOf sock = some c) (hf : ∀ flag, (f flag).nick = flag.nick) :
      Effect cfg key s event (s.setClient c.id fun c => { c with flag := f c.flag })
  | named {event : IrcEvent} {sock : Nat} {c : IrcClient} {nick : Option (List UInt8)}
      {s' : IrcState κ} (hc : s.clientOf sock = some c)
      (hnick : ircNickCallback key s c nick = some s') : Effect cfg key s event s'
  | enrolls {sock : Nat} {c : IrcClient} {clients : List (κ × Nat)}
      (hc : s.clientOf sock = some c) (hnot : c.registered = false)
      (hflag : c.flag.registered = true)
      (hadd : ircAddClient key s c = { s with clients := clients }) :
      Effect cfg key s (.idle sock true)
        ({ s with clients := clients }.setClient c.id fun c => { c with registered := true })
  | deleted {sock : Nat} {c : IrcClient} {password : List UInt8}
      (hc : s.clientOf sock = some c) (hwrong : ¬ cfg.pass.all (· password) = true) :
      Effect cfg key s (.request sock (.pass (some password))) (ircDeleteClient key s c)
  | joins {sock : Nat} {targets : List JoinTarget} {s' : IrcState κ}
      (hall : ∀ {R : IrcState κ → IrcState κ → Prop}, Composes cfg.channelsPerUser key R → R s s') :
      Effect cfg key s (.request sock (.join targets)) s'
  | parts {event : IrcEvent} {s' : IrcState κ}
      (hall : ∀ {R : IrcState κ → IrcState κ → Prop}, Parting key R → R s s') :
      Effect cfg key s event s'
  | quits {sock : Nat} {c : IrcClient} {s' : IrcState κ} (hc : s.clientOf sock = some c)
      (hleave : ircLeaveAllChannels key s c = some s') :
      Effect cfg key s (.request sock .quit) s'
  | closed {sock : Nat} (hdata : s.data sock = some none) :
      Effect cfg key s (.disconnect sock) (s.setData sock none)
  | disconnects {sock : Nat} {c : IrcClient} {s' : IrcState κ} (hc : s.clientOf sock = some c)
      (hleave : ircLeaveAllChannels key s c = some s') :
      Effect cfg key s (.disconnect sock) (s'.setData sock none)

theorem Effect.same (event : IrcEvent) : Effect cfg key s event s := .parts (fun h => h.refl s)

theorem ircAddClient_clients (key : List UInt8 → κ) (s : IrcState κ) (c : IrcClient) :
    ∃ clients, ircAddClient key s c = { s with clients := clients } := by
  unfold ircAddClient
  split
  · exact ⟨s.clients, rfl⟩
  split
  · exact ⟨s.clients, rfl⟩
  · exact ⟨_, rfl⟩

theorem ircHandleRequest_effect {sock : Nat} {c : IrcClient} {request : IrcRequest}
    (hc : s.clientOf sock = some c) (hhandle : ircHandleRequest cfg key s c request = some s') :
    Effect cfg key s (.request sock request) s' := by
  cases request with
  | quit => exact .quits hc hhandle
  | pass password =>
    obtain rfl := Option.some.inj hhandle
    cases password with
    | none => exact .same _
    | some password =>
      unfold ircPassCallback
      dsimp only
      split
      · exact .flags (f := fun flag => { flag with pass := true }) hc (fun _ => rfl)
      · next hwrong => exact .deleted hc hwrong
  | nick nick => exact .named hc hhandle
  | user enough =>
    obtain rfl := Option.some.inj hhandle
    unfold ircUserCallback
    split
    · exact .same _
    · exact .flags (f := fun flag => { flag with user := true }) hc (fun _ => rfl)
  | join targets => exact .joins (fun h => h.joinCallback hhandle)
  | part targets => exact .parts (fun h => h.partCallback hhandle)
  | kick targets => exact .parts (fun h => h.kickCallback hhandle)
  | mode channel changes => exact .parts (fun h => h.modeCallback hhandle)
  | other =>
    obtain rfl := Option.some.inj hhandle
    exact .same _

theorem authDone_effect {event : IrcEvent} {sock : Nat} {f : UMode → UMode}
    (hf : ∀ flag, (f flag).nick = flag.nick) (hdone : authDone s sock f = some s') :
    Effect cfg key s event s' := by
  unfold authDone at hdone
  split at hdone
  · obtain rfl := Option.some.inj hdone
    exact .same event
  · obtain ⟨c, hc, rfl⟩ := Option.map_eq_some_iff.mp hdone
    exact .flags hc hf

theorem ircStep_effect {event : IrcEvent} (hstep : ircStep cfg key s event = some s') :
    Effect cfg key s event s' := by
  cases event with
  | connect sock addr =>
    unfold ircStep at hstep
    dsimp only at hstep
    split_ifs at hstep with hused
    obtain rfl := Option.some.inj hstep
    obtain ⟨hsock, haddr⟩ := not_or.mp hused
    exact .comes (Option.not_isSome_iff_eq_none.mp hsock) (Option.not_isSome_iff_eq_none.mp haddr)
  | identDone sock =>
    unfold ircStep at hstep
    refine authDone_effect ?_ hstep
    exact fun _ => rfl
  | rdnsDone sock =>
    unfold ircStep at hstep
    refine authDone_effect ?_ hstep
    exact fun _ => rfl
  | idle sock valid =>
    obtain ⟨c, hc, rfl⟩ := Option.map_eq_some_iff.mp hstep
    unfold ircRegisterClient
    split_ifs with hregistered hvalid
    · exact .same _
    · obtain ⟨hflag, rfl⟩ := hvalid
      obtain ⟨clients, hadd⟩ := ircAddClient_clients key s c
      rw [hadd]
      exact .enrolls hc (Bool.eq_false_iff.mpr hregistered) hflag hadd
    · exact .same _
  | request sock request =>
    obtain ⟨c, hc, hhandle⟩ := Option.bind_eq_some_iff.mp hstep
    exact ircHandleRequest_effect hc hhandle
  | disconnect sock =>
    unfold ircStep ircDisconnect at hstep
    dsimp only at hstep
    split at hstep
    · exact nomatch hstep
    · next hdata =>
      obtain rfl := Option.some.inj hstep
      exact .closed hdata
    · next id hdata =>
      obtain ⟨c, hc, hstep⟩ := Option.bind_eq_some_iff.mp hstep
      obtain ⟨s₁, hleave, rfl⟩ := Option.map_eq_some_iff.mp hstep
      refine .disconnects ?_ hleave
      unfold IrcState.clientOf
      rw [hdata]
      exact hc

end Serveez.Irc
