import Serveez.Http.CacheRequests
import Serveez.Lib.Runs

/-!
# The steps of the server on its cache

A step of the server is a sequence of effects of one connection, or a connection comes or goes.
`Careful` is what the server does not check: a file is not sent to a connection that is still
sending one from the cache, and an entry is not refreshed while a connection sends it. As long
as this is so no step uses memory it should not, and the owners of the cache stay as they are.
-/

namespace Serveez.Transfer

open Cache Lib World

variable {cfg : HttpConfig} {w w' : World} {c : Nat} {g g' : Cache} {s s' : HttpSock}
  {K : Kind → Prop} {event : Event}

/-- The connection and the request of an event after which a file is sent. -/
def World.transfer (cfg : HttpConfig) (w : World) : Event → Option (Nat × GetRequest)
  | .receive c bytes (.get req) _ =>
    if w.active c ∧ (w.sock c).readSocket = .svzTcpReadSocket ∧
        (w.sock c).completes cfg bytes ∧ req.transfers then some (c, req)
    else none
  | _ => none

/-- The connection that reads a file into the cache, and what `read` does. -/
def World.cacheRead (cfg : HttpConfig) (w : World) : Event → Option (HttpSock × ReadResult)
  | .readFile c r =>
    if w.active c ∧ (w.sock c).reading ∧ (w.sock c).sendBuffer.length < cfg.sendBufferSize then
      some (w.sock c, r)
    else none
  | _ => none

/-- A file is sent only when no other is being sent from the cache. -/
def World.Separate (cfg : HttpConfig) (w : World) (event : Event) : Prop :=
  ∀ p ∈ w.transfer cfg event, (w.sock p.1).flagCache = false

/-- No connection sends an entry that is refreshed. -/
def World.Unshared (cfg : HttpConfig) (w : World) (event : Event) : Prop :=
  ∀ p ∈ w.transfer cfg event, ∀ a ∈ w.cache.changed p.2, ∀ d ∈ w.socks,
    (w.sock d).sends a = false

structure World.Careful (cfg : HttpConfig) (w : World) (event : Event) : Prop where
  separate : w.Separate cfg event
  unshared : w.Unshared cfg event

instance (cfg : HttpConfig) (w : World) (event : Event) : Decidable (w.Separate cfg event) :=
  inferInstanceAs (Decidable (∀ p ∈ w.transfer cfg event, (w.sock p.1).flagCache = false))

instance (cfg : HttpConfig) (w : World) (event : Event) : Decidable (w.Unshared cfg event) :=
  inferInstanceAs (Decidable (∀ p ∈ w.transfer cfg event, ∀ a ∈ w.cache.changed p.2,
    ∀ d ∈ w.socks, (w.sock d).sends a = false))

instance (cfg : HttpConfig) (w : World) (event : Event) : Decidable (w.Careful cfg event) :=
  decidable_of_iff (w.Separate cfg event ∧ w.Unshared cfg event)
    ⟨fun h => ⟨h.1, h.2⟩, fun h => ⟨h.separate, h.unshared⟩⟩

/-- The kinds of effects an event can have. -/
def World.kinds (cfg : HttpConfig) (w : World) (event : Event) : Kind → Prop
  | .plain => True
  | .load v done => ∃ c req, w.transfer cfg event = some (c, req) ∧ v = req.version ∧
      req.delivery = .whole ∧ (done = true → (w.sock c).flagDone = true)
  | .refresh a v done => ∃ c req, w.transfer cfg event = some (c, req) ∧
      w.cache.changed req = some a ∧ v = req.version ∧ (done = true → (w.sock c).flagDone = true)
  | .empty => ∃ p ∈ w.cacheRead cfg event, p.1.endsEmpty p.2 = true
  | .abandon => ∃ p ∈ w.cacheRead cfg event, p.1.breaksOff p.2 = true
  | .cutOff => ∃ c ∈ w.socks, (∃ r, event = .write c r) ∧ (w.sock c).reading = true ∧
      (w.sock c).flagDone = true
  | .change => ∃ c content, event = .change c content

/-- What a step of the connection `c` can do. -/
inductive Stepped (cfg : HttpConfig) (K : Kind → Prop) (c : Nat) (w : World) : World → Prop
  | effects {g' : Cache} {s' : HttpSock} (hc : c ∈ w.socks)
      (heffects : Effects K w.cache (w.sock c) g' s') : Stepped cfg K c w (w.set c g' s')
  | connect (hc : c ∉ w.socks) : Stepped cfg K c w { w with
      socks := c :: w.socks, sock := Function.update w.sock c (httpConnectSocket cfg) }
  | disconnect {g' : Cache} {s' : HttpSock} (hc : c ∈ w.socks)
      (heffects : Effects K w.cache (w.sock c) g' s') (hflag : s'.flagCache = false)
      (hreading : s'.reading = false) :
      Stepped cfg K c w { w with cache := g', socks := w.socks.erase c }
  | none : Stepped cfg K c w w

/-! ## Disconnecting -/

theorem httpDisconnect_effects (hK : K .plain) (h : Owned (w.set c g s)) (hc : c ∈ w.socks)
    (hcut : s.reading = true → s.entry.isSome = true → K .cutOff) :
    ∃ g' s', httpDisconnect g s = some g' ∧ Effects K g s g' s' ∧ s'.flagCache = false ∧
      s'.reading = false := by
  obtain ⟨g', hfree, heffects⟩ := httpFreeSocket_effects hK h hc hcut
  let s' : HttpSock := { s with
    cache := none, flagCache := false, flagSendfile := false
    readSocket := .svzTcpReadSocket, writeSocket := .httpDefaultWrite }
  refine ⟨g', s', ?_, heffects s' ⟨nofun, nofun⟩ rfl nofun, rfl, rfl⟩
  rw [httpDisconnect, hfree]
  rfl

theorem destroy_effects (hK : K .plain) (h : Owned (w.set c g s)) (hc : c ∈ w.socks)
    {k : HttpCache} {a : Addr} {e : CacheEntry} (hk : s.cache = some k) (hentry : k.entry = some a)
    (he : g.entry a = some e) (hready : e.ready = false) :
    ∃ g₁ g' s', g.httpCacheDestroyEntry a = some g₁ ∧ g₁.freeBlock k.buffer = some g' ∧
      httpDisconnect g' { s with cache := some httpCacheReset } = some g' ∧
      Effects K g s g' s' ∧ s'.flagCache = false ∧ s'.reading = false ∧ g'.entry a = none := by
  obtain ⟨l, hl⟩ : ∃ l, Listed g l := h.listed
  have hlive := dataOf_eq_some he
  have hok := h.sockOk hc
  have hpoints : s.entry = some a := (entry_eq_of_cache hk).trans hentry
  have hreading : s.reading = true := by
    obtain ⟨e', he', ⟨hready', -⟩ | ⟨-, hreading⟩⟩ := hok.entry_cases hpoints
    · rw [hlive, Option.some_inj] at he'
      rw [← he'] at hready'
      exact absurd (hready.symm.trans hready') nofun
    · exact hreading
  have hflag := hok.flagCache_eq_false hreading
  obtain ⟨-, k', hk', hbuffer, -⟩ := hok.filling hreading
  obtain rfl : k = k' := Option.some_inj.mp (hk.symm.trans hk')
  have hreleased : CacheEntry.released e = none := if_neg (by rw [hready]; exact Bool.noConfusion)
  obtain ⟨g₁, hdestroy, hl₁, hdata, hblock, hnext, -, hentries⟩ :=
    hl.httpCacheDestroyEntry_spec he (by rw [hreleased]; nofun)
  rw [hreleased] at hblock
  have hfreeable : g₁.Freeable k.buffer := by
    intro q hq
    obtain ⟨hoff, x, hx⟩ := hbuffer.freeable q hq
    exact ⟨hoff, x, (congrFun hblock q.block).trans hx⟩
  let g' : Cache := { g₁ with block := without g₁.block k.buffer }
  let s' : HttpSock := { s with
    cache := some httpCacheReset, flagCache := false, flagSendfile := false
    readSocket := .svzTcpReadSocket, writeSocket := .httpDefaultWrite }
  have hblock' : g'.block = without g.block k.buffer := by
    change without g₁.block k.buffer = _
    rw [hblock]
    rfl
  refine ⟨g₁, g', s', hdestroy, freeBlock_spec g₁ k.buffer hfreeable, ?_, ?_, rfl, rfl, ?_⟩
  · unfold httpDisconnect httpFreeSocket
    rw [hflag]
    rfl
  · exact (Effects.refl g s).tail hK (.drop hreading hk hentry hlive hready hdata hblock' hnext rfl
      nofun) ⟨_, hl₁.congr (fun _ => rfl) rfl⟩ ⟨nofun, nofun⟩ hentries
  · have hgone : dataOf g₁.entry a = none := by rw [hdata, Function.update_self]
    exact Option.map_eq_none_iff.mp hgone

theorem httpCacheDisconnect_effects (hK : K .plain) (h : Owned (w.set c g s)) (hc : c ∈ w.socks) :
    ∃ g' s', httpCacheDisconnect g s = some g' ∧ Effects K g s g' s' ∧ s'.flagCache = false ∧
      s'.reading = false ∧
      (s.reading = true → ∀ a, s.entry = some a → g'.entry a = none) := by
  have hok := h.sockOk hc
  -- unless the connection fills an entry the two callbacks do the same
  have hplain : (s.reading = true → s.entry = none) → ∃ g' s', httpDisconnect g s = some g' ∧
      Effects K g s g' s' ∧ s'.flagCache = false ∧ s'.reading = false ∧
      (s.reading = true → ∀ a, s.entry = some a → g'.entry a = none) := by
    intro hnone
    obtain ⟨g', s', hfree, heffects, hflag, hreading⟩ := httpDisconnect_effects hK h hc (by
      intro hread hentry
      rw [hnone hread] at hentry
      cases hentry)
    refine ⟨g', s', hfree, heffects, hflag, hreading, ?_⟩
    intro hread a ha
    exact absurd ((hnone hread).symm.trans ha) (Option.some_ne_none _).symm
  unfold httpCacheDisconnect
  cases hk : s.cache with
  | none =>
    apply hplain
    intro _
    rw [HttpSock.entry, hk]
    rfl
  | some k =>
    simp only
    cases ha : k.entry with
    | none => exact hplain (fun _ => (entry_eq_of_cache hk).trans ha)
    | some a =>
      have hpoints : s.entry = some a := (entry_eq_of_cache hk).trans ha
      obtain ⟨e', he', hcase⟩ := hok.entry_cases hpoints
      obtain ⟨e, he, rfl⟩ := Option.map_eq_some_iff.mp he'
      simp only [he, Option.bind_eq_bind, Option.bind_some]
      cases hready : e.ready with
      | true =>
        rw [if_pos rfl]
        apply hplain
        intro hread
        rcases hcase with ⟨-, hsends⟩ | ⟨hready', -⟩
        · have hflag := (sends_eq_true_iff.mp hsends).1
          exact absurd ((hok.sending hflag).1.symm.trans hread) (by decide)
        · exact absurd (hready'.symm.trans hready) Bool.false_ne_true
      | false =>
        obtain ⟨g₁, g', s', hdestroy, hfree, hdisc, heffects, hflag, hreading, hgone⟩ :=
          destroy_effects hK h hc hk ha he hready
        refine ⟨g', s', ?_, heffects, hflag, hreading, ?_⟩
        · simp only [Bool.false_eq_true, if_false, hdestroy, hfree, Option.bind_some, hdisc]
        · intro _ b hb
          obtain rfl : a = b := Option.some_inj.mp (hpoints.symm.trans hb)
          exact hgone

/-! ## Steps -/

structure World.Good (w : World) : Prop where
  owned : Owned w
  mode : ∀ c ∈ w.socks, (w.sock c).Mode

theorem Ends.stepped {r : Result} (h : Ends K w.cache (w.sock c) r) (hc : c ∈ w.socks) :
    ∃ w', w.after c r = some w' ∧ Stepped cfg K c w w' := by
  obtain ⟨g', s', died, rfl, heffects⟩ := h
  exact ⟨_, rfl, .effects hc heffects⟩

theorem active_iff : w.active c = true ↔ c ∈ w.socks ∧ (w.sock c).killed = false := by
  rw [World.active, Bool.and_eq_true, decide_eq_true_iff, Bool.not_eq_true']

theorem step_receive (h : Good w) (bytes : List UInt8) (answer : Answer) (flush : Flush)
    (hcareful : w.Careful cfg (.receive c bytes answer flush)) :
    ∃ w', w.step cfg (.receive c bytes answer flush) = some w' ∧
      Stepped cfg (w.kinds cfg (.receive c bytes answer flush)) c w w' := by
  unfold World.step
  simp only
  split
  · next hactive =>
    obtain ⟨hc, hkilled⟩ := active_iff.mp hactive.1
    have howned : Owned (w.set c w.cache (w.sock c)) := (set_self w c).symm ▸ h.owned
    have htransfer : ∀ req, answer = .get req → (w.sock c).completes cfg bytes = true →
        req.transfers = true →
        w.transfer cfg (.receive c bytes answer flush) = some (c, req) := by
      rintro req rfl hcompletes htransfers
      exact if_pos ⟨hactive.1, hactive.2, hcompletes, htransfers⟩
    refine Ends.stepped (svzTcpReadSocket_ends trivial howned hc (h.mode c hc) hactive.2 hkilled ?_
      cfg bytes answer flush ?_) hc
    · rintro a v done ⟨c', req, hreq, hchanged, -⟩ d hd -
      exact hcareful.unshared (c', req) hreq a hchanged d hd
    · intro req hanswer hcompletes htransfers
      have hreq := htransfer req hanswer hcompletes htransfers
      exact ⟨hcareful.separate (c, req) hreq,
        fun done hwhole hdone => ⟨c, req, hreq, rfl, hwhole, hdone⟩,
        fun a done ha hdone => ⟨c, req, hreq, ha, rfl, hdone⟩⟩
  · exact ⟨w, rfl, .none⟩

theorem step_readFile (h : Good w) (r : ReadResult) :
    ∃ w', w.step cfg (.readFile c r) = some w' ∧
      Stepped cfg (w.kinds cfg (.readFile c r)) c w w' := by
  unfold World.step
  simp only
  split
  · next hactive =>
    obtain ⟨hc, hkilled⟩ := active_iff.mp hactive
    have howned : Owned (w.set c w.cache (w.sock c)) := (set_self w c).symm ▸ h.owned
    split
    · next hread =>
      have hreading : (w.sock c).reading = true := by
        rw [HttpSock.reading, hread]
        rfl
      refine Ends.stepped (httpCacheRead_ends trivial howned hc (h.mode c hc) hreading hkilled cfg r
        ?_ ?_) hc
      · intro hspace hempty
        exact ⟨(w.sock c, r), if_pos ⟨hactive, hreading, hspace⟩, hempty⟩
      · intro hspace hbreaks
        exact ⟨(w.sock c, r), if_pos ⟨hactive, hreading, hspace⟩, hbreaks⟩
    · next hread =>
      exact Ends.stepped (httpFileRead_ends cfg trivial howned hc (h.mode c hc) hread hkilled r) hc
    · exact ⟨w, rfl, .none⟩
  · exact ⟨w, rfl, .none⟩

theorem step_write (h : Good w) (r : SendResult) :
    ∃ w', w.step cfg (.write c r) = some w' ∧ Stepped cfg (w.kinds cfg (.write c r)) c w w' := by
  unfold World.step
  simp only
  split
  · next hactive =>
    obtain ⟨hc, hkilled⟩ := active_iff.mp hactive.1
    have howned : Owned (w.set c w.cache (w.sock c)) := (set_self w c).symm ▸ h.owned
    have hno : NoRefresh (w.kinds cfg (.write c r)) := by
      rintro a v done ⟨c', req, hreq, -⟩
      cases hreq
    refine Ends.stepped (Leads.ends trivial hno howned hc (h.mode c hc) hkilled
      (writeSocket_leads cfg trivial hno howned hc (h.mode c hc) ?_ r)) hc
    intro hreading hdone
    exact ⟨c, hc, ⟨r, rfl⟩, hreading, hdone⟩
  · exact ⟨w, rfl, .none⟩

theorem step_disconnect (h : Good w) :
    ∃ w', w.step cfg (.disconnect c) = some w' ∧
      Stepped cfg (w.kinds cfg (.disconnect c)) c w w' := by
  unfold World.step
  simp only
  split
  · next hc =>
    have howned : Owned (w.set c w.cache (w.sock c)) := (set_self w c).symm ▸ h.owned
    cases hdisc : (w.sock c).disconnectedSocket with
    | httpDisconnect =>
      obtain ⟨g', s', hfree, heffects, hflag, hreading⟩ := httpDisconnect_effects
        (K := w.kinds cfg (.disconnect c)) trivial howned hc (by
          intro hread
          have hcache := ((howned.sockOk hc).filling hread).1
          exact absurd (hdisc.symm.trans hcache) nofun)
      refine ⟨_, ?_, .disconnect hc heffects hflag hreading⟩
      simp only [hfree, Option.map_some]
    | httpCacheDisconnect =>
      obtain ⟨g', s', hfree, heffects, hflag, hreading, -⟩ :=
        httpCacheDisconnect_effects (K := w.kinds cfg (.disconnect c)) trivial howned hc
      refine ⟨_, ?_, .disconnect hc heffects hflag hreading⟩
      simp only [hfree, Option.map_some]
  · exact ⟨w, rfl, .none⟩

/-- **A careful step** uses no memory that it should not. -/
theorem step_stepped (h : Good w) (hcareful : w.Careful cfg event) :
    ∃ w', w.step cfg event = some w' ∧ Stepped cfg (w.kinds cfg event) event.conn w w' := by
  cases event with
  | connect c =>
    unfold World.step
    simp only
    split
    · exact ⟨w, rfl, .none⟩
    · next hc => exact ⟨_, rfl, .connect hc⟩
  | receive c bytes answer flush => exact step_receive h bytes answer flush hcareful
  | readFile c r => exact step_readFile h r
  | write c r => exact step_write h r
  | disconnect c => exact step_disconnect h
  | change c content =>
    unfold World.step
    simp only
    split
    · next hc =>
      refine ⟨_, rfl, .effects hc ((Effects.refl w.cache (w.sock c)).tail (k := .change)
        ⟨c, content, rfl⟩ (.change rfl rfl rfl rfl) h.owned.listed ?_ rfl)⟩
      exact ⟨(h.mode c hc).null, (h.mode c hc).sendFile⟩
    · exact ⟨w, rfl, .none⟩

/-- The rule for a step: what every effect, a new connection and the end of one keep. -/
theorem Stepped.keep {I : World → Prop} (h : Good w) (hI : I w)
    (hrefresh : ∀ a v done, K (.refresh a v done) → ∀ d ∈ w.socks, (w.sock d).sends a = false)
    (hkeep : c ∈ w.socks → ∀ k g₁ s₁ g₂ s₂, K k → Owned (w.set c g₁ s₁) → I (w.set c g₁ s₁) →
      Effect k g₁ s₁ g₂ s₂ → Owned (w.set c g₂ s₂) → I (w.set c g₂ s₂))
    (hconnect : c ∉ w.socks → I { w with
      socks := c :: w.socks, sock := Function.update w.sock c (httpConnectSocket cfg) })
    (hremove : c ∈ w.socks → ∀ g' s', I (w.set c g' s') → s'.flagCache = false →
      s'.reading = false → I { w with cache := g', socks := w.socks.erase c })
    (hstep : Stepped cfg K c w w') : Good w' ∧ I w' := by
  have hothers : ∀ a v done, K (.refresh a v done) → ∀ d ∈ w.socks, d ≠ c →
      (w.sock d).sends a = false := fun a v done ha d hd _ => hrefresh a v done ha d hd
  cases hstep with
  | @effects g' s' hc heffects =>
    obtain ⟨howned, hinv⟩ := h.owned.effects_invariant hI hc hothers (hkeep hc) heffects
    refine ⟨⟨howned, ?_⟩, hinv⟩
    intro d hd
    by_cases hdc : d = c
    · subst hdc
      rw [set_sock_self]
      exact heffects.mode (h.mode d hd)
    · rw [set_sock_of_ne w g' s' hdc]
      exact h.mode d hd
  | connect hc =>
    refine ⟨⟨h.owned.connect hc rfl rfl rfl nofun, ?_⟩, hconnect hc⟩
    intro d hd
    change (Function.update w.sock c (httpConnectSocket cfg) d).Mode
    by_cases hdc : d = c
    · rw [hdc, Function.update_self]
      exact ⟨nofun, nofun⟩
    · rw [Function.update_of_ne hdc]
      exact h.mode d ((List.mem_cons.mp hd).resolve_left hdc)
  | @disconnect g' s' hc heffects hflag hreading =>
    obtain ⟨howned, hinv⟩ := h.owned.effects_invariant hI hc hothers (hkeep hc) heffects
    refine ⟨⟨howned.remove hc hflag, ?_⟩, hremove hc g' s' hinv hflag hreading⟩
    intro d hd
    exact h.mode d (List.mem_of_mem_erase hd)
  | none => exact ⟨h, hI⟩

theorem Stepped.httpCacheEntries (hstep : Stepped cfg K c w w') :
    w'.cache.httpCacheEntries = w.cache.httpCacheEntries := by
  cases hstep with
  | effects hc heffects => exact heffects.httpCacheEntries
  | connect hc => rfl
  | disconnect hc heffects => exact heffects.httpCacheEntries
  | none => rfl

theorem refresh_unshared (hcareful : w.Careful cfg event) : ∀ a v done,
    w.kinds cfg event (.refresh a v done) → ∀ d ∈ w.socks, (w.sock d).sends a = false := by
  rintro a v done ⟨c, req, hreq, hchanged, -⟩ d hd
  exact hcareful.unshared (c, req) hreq a hchanged d hd

/-! ## Runs -/

/-- Every step of a run meets a condition on the state before it. -/
def World.Meets (cfg : HttpConfig) (entries : Nat) (C : World → Event → Prop)
    (events : List Event) : Prop :=
  ∀ pre event, pre ++ [event] <+: events → ∀ w ∈ World.run cfg entries pre, C w event

/-- A run reaches only states with a property, and uses no memory that it should not. -/
def World.Always (cfg : HttpConfig) (entries : Nat) (P : World → Prop) (events : List Event) :
    Prop :=
  ∀ pre, pre <+: events → ∃ w, World.run cfg entries pre = some w ∧ P w

theorem meets_of_forall {entries : Nat} {C : World → Event → Prop} {events : List Event}
    (h : ∀ n < events.length, ∀ event ∈ events[n]?, ∀ w ∈ World.run cfg entries (events.take n),
      C w event) : Meets cfg entries C events := by
  refine forall_steps (Q := fun pre event => ∀ w ∈ World.run cfg entries pre, C w event) ?_
  intro n event hget
  obtain ⟨hn, -⟩ := List.getElem?_eq_some_iff.mp hget
  exact h n hn event hget

theorem run_concat {entries : Nat} {pre : List Event} (event : Event)
    (hw : World.run cfg entries pre = some w) :
    World.run cfg entries (pre ++ [event]) = w.step cfg event := by
  rw [World.run, foldl_concat]
  change (World.run cfg entries pre).bind _ = _
  rw [hw, Option.bind_some]

/-- The rule for runs, where the invariant may look back on the events. -/
theorem always_of_history {entries : Nat} {I : List Event → World → Prop}
    {C : World → Event → Prop} (hstart : I [] (World.start cfg entries))
    (hstep : ∀ pre w event, World.run cfg entries pre = some w → I pre w → C w event →
      ∃ w', w.step cfg event = some w' ∧ I (pre ++ [event]) w')
    {events : List Event} (hmeets : Meets cfg entries C events) :
    ∀ pre, pre <+: events → ∃ w, World.run cfg entries pre = some w ∧ I pre w := by
  intro pre
  -- the induction takes steps off the end of the prefix
  induction pre using List.reverseRecOn with
  | nil => exact fun _ => ⟨_, rfl, hstart⟩
  | append_singleton pre event ih =>
    intro hpre
    obtain ⟨w, hw, hI⟩ := ih (prefix_of_concat hpre)
    obtain ⟨w', hw', hI'⟩ := hstep pre w event hw hI (hmeets pre event hpre w hw)
    exact ⟨w', (run_concat event hw).trans hw', hI'⟩

theorem always_of_step {entries : Nat} {I : World → Prop} {C : World → Event → Prop}
    (hstart : I (World.start cfg entries))
    (hstep : ∀ w event, I w → C w event → ∃ w', w.step cfg event = some w' ∧ I w')
    {events : List Event} (hmeets : Meets cfg entries C events) :
    Always cfg entries I events :=
  always_of_history (I := fun _ => I) hstart (fun _ w event _ hI hC => hstep w event hI hC) hmeets

theorem listed_httpAllocCache (entries : Nat) : Listed (httpAllocCache entries) [] where
  chain := ⟨trivial, List.nodup_nil, List.forall_mem_nil _, rfl, rfl⟩
  mem_of_live _ _ hlive := by cases hlive
  keys := List.nodup_nil
  table _ _ := by
    constructor
    · exact fun hmem => absurd hmem List.not_mem_nil
    · rintro ⟨e, he, -⟩
      cases he
  length := rfl
  room := Nat.zero_le _
  recent := .nil
  clock_le _ := Nat.le_refl _
  fresh _ _ hlive := by cases hlive

theorem good_start (cfg : HttpConfig) (entries : Nat) : Good (World.start cfg entries) where
  owned := {
    listed := ⟨[], listed_httpAllocCache entries⟩
    nodup := List.nodup_nil
    entries _ _ hlive := by cases hlive
    socks := List.forall_mem_nil _
    usage _ _ hlive := by cases hlive
    reader := ⟨fun _ => 0, List.forall_mem_nil _⟩
    owner := ⟨fun _ => .reader 0, fun o b ho => by
      cases o with
      | entry a =>
        obtain ⟨e, p, he, -⟩ := ho
        cases he
      | reader c => cases ho.1⟩
    fresh _ _ hblock := by cases hblock }
  mode := List.forall_mem_nil _

end Serveez.Transfer
