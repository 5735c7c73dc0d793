import Serveez.Binding.Shared

/-!
# Well formed listeners in all runs

What `WellFormed` says of the listeners stays true, unless `svz_server_bind` adds a binding to a
listener it has just made that has it already, or `server_unbind` frees the port configuration
that a listener shares with the binding it was made for.

* `zonkServer_wellFormed`: a server is unbound from one listener.
* `run_wellFormed`: the listeners are well formed all through a run.
-/

namespace Serveez.Binding

/-- The condition on a step. -/
def Orderly : Except Fault State → Op → Prop
  | .ok s, .bind _ server port outcomes =>
    (outcomes 0).isSome = true → ¬ Breaks s server port (outcomes 0)
  | .ok s, .unbind server => ∀ x ∈ listeners s, ∀ own, x.port = some own →
    ∀ b ∈ bindingsOf s x, b.server = server → b.port.addr ≠ own.addr
  | _, _ => True

variable {s s' : State} {sock : Sock} {server : Nat}

theorem svzServerBind_wellFormed (h : WellFormed s) (interfaces : List UInt32) (server : Nat)
    (port : PortCfg) (outcomes : Nat → Option UInt16)
    (hnew : (outcomes 0).isSome = true → ¬ Breaks s server port (outcomes 0)) :
    ∃ s', svzServerBind s interfaces server port outcomes = .ok s' ∧ WellFormed s' := by
  rcases svzServerBind_cases h interfaces server port outcomes with hnil | ⟨hgone, heq⟩
  · obtain ⟨s', hok, hwf, -⟩ := svzServerBind_grows h interfaces server outcomes hnil
    exact ⟨s', hok, hwf⟩
  · have hm := mergeLoop_state (takeBlock s) [] (s.socks.filter (isMatch port))
    have hj := mergeLoop_bindings (takeBlock s) [] (s.socks.filter (isMatch port))
    refine ⟨_, heq, ?_⟩
    cases hout : outcomes 0 with
    | none => exact replace_none_wellFormed h hm hj
    | some chosen =>
      rw [hout] at hnew
      refine (replace_some_grows h hm hj rfl fun hfound => hnew rfl ?_).1
      rw [Breaks, hgone]
      exact (findBinding_joined_iff hj _).mp hfound

/-! ## Frames -/

theorem WellFormed.frame (h : WellFormed s) (hs' : Sound s')
    (hlisteners : ∀ x ∈ s'.socks, x.listening = true → x ∈ s.socks)
    (hears : ∀ x ∈ listeners s', s'.allEars x.id = s.allEars x.id)
    (harrays : s'.arrays = s.arrays) (hfreed : s'.freed = s.freed) (hnext : s.next ≤ s'.next) :
    WellFormed s' := by
  have hl : ∀ x ∈ listeners s', x ∈ listeners s := by
    intro x hx
    obtain ⟨hx, hlistening, hport⟩ := mem_listeners.mp hx
    exact mem_listeners.mpr ⟨hlisteners x hx hlistening, hlistening, hport⟩
  have hb : ∀ x ∈ listeners s', bindingsOf s' x = bindingsOf s x := by
    intro x hx
    rw [bindingsOf, bindingsOf, hears x hx, harrays]
  obtain ⟨hlive, hapart⟩ := h.held_of_subset s' hnext
    (fun x hx => ⟨hl x hx, fun p hp => owned_eq_of_bindingsOf (hb x hx) ▸ hp⟩)
    fun p hp => Or.inl (hfreed ▸ hp)
  refine ⟨hs'.ids, hs'.idLt, hs'.earsLt, hs'.freedLt, fun x hx hlistening =>
    h.ports x (hlisteners x hx hlistening) hlistening, ?_, ?_, hlive, hapart⟩
  · intro x hx y hy a hxa hya
    rw [hears x hx] at hxa
    rw [hears y hy] at hya
    exact h.own x (hl x hx) y (hl y hy) a hxa hya
  · intro x hx
    rw [hb x hx]
    exact h.unique x (hl x hx)

theorem accept_wellFormed (hs : Sound s) (h : WellFormed s) (sock : Sock) :
    WellFormed (accept s sock) := by
  have hold : ∀ x ∈ (accept s sock).socks, x.listening = true → x ∈ s.socks := by
    intro x hx hlistening
    rcases List.mem_append.mp hx with hx | hx
    · exact hx
    · rw [List.mem_singleton.mp hx] at hlistening
      cases hlistening
  refine h.frame (accept_sound hs sock) hold (fun x hx => ?_) rfl rfl (Nat.le_succ _)
  obtain ⟨hx, hlistening, -⟩ := mem_listeners.mp hx
  exact Function.update_of_ne (Nat.ne_of_lt (h.idLt x (hold x hx hlistening))) _ _

theorem unshare_wellFormed (hs : Sound s) (h : WellFormed s) (hsock : sock ∈ s.socks)
    (hconn : sock.listening = false) (own : PortRef) :
    WellFormed { s with
      allEars := Function.update s.allEars sock.id none
      socks := s.socks.map fun other =>
        if other.id = sock.id then { other with port := some own } else other } := by
  -- the connection is not a listener, so the others are as they were
  have hold : ∀ y ∈ s.socks.map (fun other =>
      if other.id = sock.id then { other with port := some own } else other),
      y.listening = true → y ∈ s.socks ∧ y.id ≠ sock.id := by
    intro y hy hlistening
    obtain ⟨x, hx, rfl⟩ := List.mem_map.mp hy
    by_cases hid : x.id = sock.id
    · rw [if_pos hid, h.eq_of_id hx hsock hid, hconn] at hlistening
      cases hlistening
    · rw [if_neg hid]
      exact ⟨hx, hid⟩
  refine h.frame (unshare_sound hs sock.id own) (fun y hy hlistening => (hold y hy hlistening).1)
    (fun y hy => ?_) rfl rfl (Nat.le_refl _)
  obtain ⟨hy, hlistening, -⟩ := mem_listeners.mp hy
  exact Function.update_of_ne (hold y hy hlistening).2 _ _

theorem svzSockShutdown_wellFormed (hs : Sound s) (h : WellFormed s) (hsock : sock ∈ s.socks) :
    WellFormed (svzSockShutdown s sock) := by
  cases hlistening : sock.listening with
  | true =>
    refine mergeLoop_wellFormed h (fun y hy => ?_) (svzSockShutdown_merged hlistening)
    rw [List.mem_singleton.mp hy]
    exact mem_listeners.mpr ⟨hsock, hlistening, h.ports sock hsock hlistening⟩
  | false =>
    have hsound := svzSockShutdown_sound hs sock
    rw [svzSockShutdown_connection hlistening] at hsound ⊢
    exact h.frame hsound (fun x hx _ => List.mem_of_mem_filter hx) (fun _ _ => rfl) rfl rfl
      (Nat.le_refl _)

/-! ## Unbinding a server -/

theorem bindingsOf_zonkServer_self (server : Nat) (s : State) (sock : Sock) :
    bindingsOf (zonkServer server s sock) sock =
      (bindingsOf s sock).filter (·.server ≠ server) := by
  unfold zonkServer
  cases hears : s.allEars sock.id with
  | none => simp [bindingsOf, hears]
  | some a => simp [bindingsOf, freePorts, hears]

theorem bindingsOf_zonkServer_of_ne (h : WellFormed s) (hsock : sock ∈ listeners s) {x : Sock}
    (hx : x ∈ listeners s) (hne : x ≠ sock) (server : Nat) :
    bindingsOf (zonkServer server s sock) x = bindingsOf s x := by
  unfold zonkServer
  cases hears : s.allEars sock.id with
  | none => rfl
  | some a =>
    simp only [bindingsOf, freePorts]
    cases hxa : s.allEars x.id with
    | none => rfl
    | some b =>
      have hab : b ≠ a := fun he => hne (h.own x hx sock hsock b hxa (he ▸ hears))
      rw [Option.bind_some, Option.bind_some, Function.update_of_ne hab]

@[simp] theorem zonkServer_socks (server : Nat) (s : State) (sock : Sock) :
    (zonkServer server s sock).socks = s.socks := by
  unfold zonkServer
  split <;> rfl

theorem mem_freed_zonkServer {p : Nat} (hp : p ∈ (zonkServer server s sock).freed) :
    p ∈ s.freed ∨ ∃ b ∈ bindingsOf s sock, b.server = server ∧ b.port.addr = p := by
  unfold zonkServer at hp
  cases hears : s.allEars sock.id with
  | none =>
    rw [hears] at hp
    exact Or.inl hp
  | some a =>
    rw [hears] at hp
    rcases List.mem_append.mp hp with hnew | hold
    · obtain ⟨b, hb, rfl⟩ := List.mem_map.mp hnew
      obtain ⟨hb, hserver⟩ := List.mem_filter.mp hb
      exact Or.inr ⟨b, hb, by simpa using hserver, rfl⟩
    · exact Or.inl hold

theorem bindingsOf_zonkServer_subset (h : WellFormed s) (hsock : sock ∈ listeners s) {x : Sock}
    (hx : x ∈ listeners s) (server : Nat) :
    (bindingsOf (zonkServer server s sock) x).Sublist (bindingsOf s x) := by
  by_cases hne : x = sock
  · rw [hne, bindingsOf_zonkServer_self]
    exact List.filter_sublist
  · rw [bindingsOf_zonkServer_of_ne h hsock hx hne]

theorem zonkServer_wellFormed (hs : Sound s) (h : WellFormed s) (hsock : sock ∈ listeners s)
    (hown : ∀ own, sock.port = some own → ∀ b ∈ bindingsOf s sock, b.server = server →
      b.port.addr ≠ own.addr) : WellFormed (zonkServer server s sock) := by
  have hs' := zonkServer_sound hs server sock
  have hl : listeners (zonkServer server s sock) = listeners s := by
    rw [listeners, listeners, zonkServer_socks]
  have howned : ∀ x ∈ listeners s, ∀ p ∈ owned (zonkServer server s sock) x, p ∈ owned s x := by
    intro x hx p hp
    rcases List.mem_append.mp hp with hp | hp
    · exact List.mem_append_left _ hp
    · exact List.mem_append_right _
        (((bindingsOf_zonkServer_subset h hsock hx server).map _).subset hp)
  have hears : (zonkServer server s sock).allEars = s.allEars := by
    unfold zonkServer
    split <;> rfl
  have hnext : (zonkServer server s sock).next = s.next := by
    unfold zonkServer
    split <;> rfl
  -- what is freed is neither the configuration of a listener nor that of a binding that stays
  have hgone : ∀ c ∈ bindingsOf s sock, c.server = server → ∀ x ∈ listeners s,
      c.port.addr ∉ owned (zonkServer server s sock) x := by
    intro c hc hserver x hx hp
    by_cases hne : x = sock
    · subst hne
      rcases List.mem_append.mp hp with hport | hstays
      · obtain ⟨own, hport, he⟩ : ∃ own, x.port = some own ∧ own.addr = c.port.addr := by
          simpa using hport
        exact hown own hport c hc hserver he.symm
      · obtain ⟨b, hb, he⟩ := List.mem_map.mp hstays
        rw [bindingsOf_zonkServer_self, List.mem_filter] at hb
        cases harray : s.allEars x.id with
        | none => simp [bindingsOf, harray] at hc
        | some a =>
          obtain ⟨-, rfl⟩ := hs.once a a b c ((holds_of_mem_bindingsOf harray).mp hb.1)
            ((holds_of_mem_bindingsOf harray).mp hc) he
          exact absurd hserver (by simpa using hb.2)
    · exact h.apart sock hsock x hx (Ne.symm hne) _
        (List.mem_append_right _ (List.mem_map_of_mem hc)) (howned x hx _ hp)
  obtain ⟨hlive, hapart⟩ := h.held_of_subset (zonkServer server s sock) (Nat.le_of_eq hnext.symm)
    (fun x hx => ⟨hl ▸ hx, howned x (hl ▸ hx)⟩)
    (fun p hp => by
      rw [hl]
      rcases mem_freed_zonkServer hp with hold | ⟨c, hc, hserver, rfl⟩
      · exact Or.inl hold
      · exact Or.inr (hgone c hc hserver))
  refine ⟨hs'.ids, hs'.idLt, hs'.earsLt, hs'.freedLt, ?_, ?_, ?_, hlive, hapart⟩
  · rw [zonkServer_socks]
    exact h.ports
  · rw [hl, hears]
    exact h.own
  · rw [hl]
    exact fun x hx => (h.unique x hx).sublist (bindingsOf_zonkServer_subset h hsock hx server)

theorem serverUnbind_wellFormed (hs : Sound s) (h : WellFormed s)
    (hown : ∀ x ∈ listeners s, ∀ own, x.port = some own → ∀ b ∈ bindingsOf s x,
      b.server = server → b.port.addr ≠ own.addr) : WellFormed (serverUnbind s server) := by
  suffices ∀ (socks : List Sock) (s' : State), (∀ x ∈ socks, x ∈ listeners s) → Sound s' →
      WellFormed s' → listeners s' = listeners s →
      (∀ x ∈ listeners s, (bindingsOf s' x).Sublist (bindingsOf s x)) →
      WellFormed (socks.foldl (zonkServer server) s') from
    this (listeners s) s (fun x hx => hx) hs h rfl fun x _ => List.Sublist.refl _
  intro socks
  induction socks with
  | nil => exact fun s' _ _ hwf _ _ => hwf
  | cons sock socks ih =>
    intro s' hsocks hs' hwf hl hsub
    have hsock := hsocks sock List.mem_cons_self
    have hsock' : sock ∈ listeners s' := hl ▸ hsock
    refine ih _ (fun x hx => hsocks x (List.mem_cons_of_mem _ hx))
      (zonkServer_sound hs' server sock)
      (zonkServer_wellFormed hs' hwf hsock' fun own hport b hb =>
        hown sock hsock own hport b ((hsub sock hsock).subset hb)) ?_ fun x hx => ?_
    · rw [← hl, listeners, listeners, zonkServer_socks]
    · exact (bindingsOf_zonkServer_subset hwf hsock' (hl ▸ hx) server).trans (hsub x hx)

/-! ## Runs -/

theorem step_wellFormed (hs : Sound s) (h : WellFormed s) {op : Op} (hop : Orderly (.ok s) op) :
    ∀ s', stepState s op = .ok s' → WellFormed s' := by
  intro s' hok
  cases op with
  | bind interfaces server port outcomes =>
    obtain ⟨s₁, heq, hwf⟩ := svzServerBind_wellFormed h interfaces server port outcomes hop
    exact Except.ok.inj (heq.symm.trans hok) ▸ hwf
  | unbind server => exact Except.ok.inj hok ▸ serverUnbind_wellFormed hs h hop
  | accept sock =>
    rw [← Except.ok.inj hok]
    split
    · exact accept_wellFormed hs h sock
    · exact h
  | detect sock localInfo found =>
    rw [stepState] at hok
    split at hok
    · rename_i hsock
      rcases detectProto_cases s sock localInfo found with ⟨fault, -, heq⟩ | heq | ⟨own, heq⟩
      · cases heq.symm.trans hok
      · exact Except.ok.inj (heq.symm.trans hok) ▸ h
      · exact Except.ok.inj (heq.symm.trans hok) ▸ unshare_wellFormed hs h hsock.1 hsock.2 own
    · exact Except.ok.inj hok ▸ h
  | shutdown sock =>
    rw [← Except.ok.inj hok]
    split
    · rename_i hsock
      exact svzSockShutdown_wellFormed hs h hsock
    · exact h

/-- The listeners are well formed in every state of a run whose steps are orderly. -/
theorem run_wellFormed {ops : List Op}
    (hops : ∀ pre op, pre ++ [op] <+: ops → Orderly (run pre) op) :
    ∀ pre, pre <+: ops → ∀ s, run pre = .ok s → WellFormed s := by
  have hinv := Lib.forall_prefix_of_step step (fun r => ∀ s, r = .ok s → Sound s ∧ WellFormed s)
    Orderly (fun s he => Except.ok.inj he ▸ ⟨initial_sound, initial_wellFormed⟩) ?_ hops
  · exact fun pre hpre s hs => (hinv pre hpre s hs).2
  · intro pre op _ hwf hop
    cases hrun : pre.foldl step (.ok initial) with
    | error fault => exact fun s he => (nomatch he)
    | ok s =>
      rw [hrun] at hwf hop
      obtain ⟨hs, h⟩ := hwf s rfl
      exact fun s' hok => ⟨step_sound hs op s' hok, step_wellFormed hs h hop s' hok⟩

/-- A client connects to a new listener. -/
theorem run_wellFormed_accept :
    let ops : List Op := [.bind [] 1 oneAddress (fun _ => some 80),
      .accept ⟨1, true, some ⟨0, oneAddress⟩, .tcp⟩]
    ∀ pre, pre <+: ops → ∀ s, run pre = .ok s → WellFormed s := by
  intro ops
  apply run_wellFormed
  rintro pre op ⟨rest, hops⟩
  cases pre with
  | nil =>
    obtain rfl := (List.cons.inj hops).1
    rintro - ⟨x, hx, -⟩
    exact absurd hx List.not_mem_nil
  | cons first pre =>
    have htail := (List.cons.inj hops).2
    cases pre with
    | nil =>
      obtain rfl := (List.cons.inj htail).1
      cases run [first] <;> trivial
    | cons second pre =>
      have hnil := (List.cons.inj htail).2
      simp at hnil

end Serveez.Binding
