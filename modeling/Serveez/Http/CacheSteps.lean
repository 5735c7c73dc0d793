import Serveez.Http.CacheFilling

/-!
# The effects of the callbacks

In an owned world no callback of a connection uses memory that it should not, and what it does
is a sequence of effects. Which kinds of effects there can be besides plain ones is a matter of
the socket and the request: `K` stands for those that are allowed.
-/

namespace Serveez.Transfer

open Cache Lib World

variable {w : World} {c : Nat} {g g' : Cache} {s s' : HttpSock} {K : Kind → Prop}

variable {k : HttpCache} {e : CacheEntry} {a : Addr}

theorem Cache.Listed.modify_spec {l : List Addr} (h : Listed g l) (he : dataOf g.entry a = some e)
    (f : CacheEntry → CacheEntry)
    (hlinks : ∀ x, (f x).next = x.next ∧ (f x).prev = x.prev ∧ (f x).file = x.file)
    (hdata : ∀ x, (f x).unlinked = f x.unlinked) :
    ∃ g', g.modify a f = some g' ∧ Listed g' l ∧
      dataOf g'.entry = Function.update (dataOf g.entry) a (some (f e)) ∧ SameBlocks g g' ∧
      g'.httpCacheEntries = g.httpCacheEntries ∧ g'.nextEntry = g.nextEntry := by
  obtain ⟨x, hx, rfl⟩ := Option.map_eq_some_iff.mp he
  refine ⟨_, modify_eq hx f, ?_, ?_, ⟨rfl, rfl⟩, rfl, rfl⟩
  · refine h.congr ?_ rfl
    intro b
    by_cases hb : b = a
    · subst hb
      change (Function.update g.entry b (some (f x)) b).map _ = _
      rw [Function.update_self, hx, Option.map_some, Option.map_some]
      obtain ⟨hnext, hprev, hfile⟩ := hlinks x
      rw [hnext, hprev, hfile]
    · change (Function.update g.entry a (some (f x)) b).map _ = _
      rw [Function.update_of_ne hb]
  · rw [dataOf_put, Option.map_some, hdata]

/-! ## Quiet steps -/

theorem World.Owned.sockOk (h : Owned (w.set c g s)) (hc : c ∈ w.socks) : SockOk g s := by
  have hok := h.socks c hc
  rwa [set_sock_self] at hok

theorem Effects.quiet (hK : K .plain) (h : Owned (w.set c g s)) (hmode : s'.Mode)
    (hlink : s'.link = s.link) (hwriter : s'.writeSocket = .httpCacheWrite → s'.flagCache = true)
    (hdone : s'.reading = true → s'.flagDone = true → s.flagDone = true)
    (hkilled : s.killed = true → s'.killed = true)
    (hsource : s.reading = true → s'.source = s.source) : Effects K g s g s' :=
  (Effects.refl g s).tail hK (.quiet rfl ⟨rfl, rfl⟩ hlink hwriter hdone hkilled hsource) h.listed
    hmode rfl

theorem Effects.owned (h : Owned (w.set c g s)) (hc : c ∈ w.socks)
    (hrefresh : ∀ a v done, K (.refresh a v done) → ∀ d ∈ w.socks, d ≠ c →
      (w.sock d).sends a = false)
    (heffects : Effects K g s g' s') : Owned (w.set c g' s') := by
  have hsock : (w.set c g s).sock c = s := set_sock_self w c g s
  have hnext : Owned ((w.set c g s).set c g' s') := by
    refine World.Owned.effects h hc ?_ (hsock.symm ▸ heffects)
    intro a v done ha d hd hdc
    rw [set_sock_of_ne w g s hdc]
    exact hrefresh a v done ha d hd hdc
  rwa [set_set] at hnext

/-! ## The end of a response -/

theorem httpFreeSocket_effects (hK : K .plain) (h : Owned (w.set c g s)) (hc : c ∈ w.socks)
    (hcut : s.reading = true → s.entry.isSome = true → K .cutOff) :
    ∃ g', httpFreeSocket g s = some (g', { s with cache := none, fileDesc := none }) ∧
      ∀ s', s'.Mode → s'.link = ⟨none, false, false, s.disconnectedSocket⟩ →
        s'.writeSocket ≠ .httpCacheWrite → Effects K g s g' s' := by
  have hok := h.sockOk hc
  unfold httpFreeSocket
  cases hflag : s.flagCache with
  | false =>
    refine ⟨g, rfl, ?_⟩
    intro s' hmode hlink hwriter
    refine (Effects.refl g s).tail ?_ (.finish hflag hlink hwriter) h.listed hmode rfl
    split
    · next hread =>
      rw [Bool.and_eq_true] at hread
      exact hcut hread.1 hread.2
    · exact hK
  | true =>
    obtain ⟨-, k, a, e, n, hk, hsend⟩ := hok.sending hflag
    obtain ⟨l, hl⟩ := h.listed
    obtain ⟨g', hmodify, hl', hdata, hblocks, hentries, -⟩ := hl.modify_spec hsend.live
      (fun e => { e with usage := e.usage - 1 }) (fun _ => ⟨rfl, rfl, rfl⟩) (fun _ => rfl)
    have hdecrease : decreaseUsage g s = some g' := by
      rw [decreaseUsage, hk, Option.bind_eq_bind, Option.bind_some, hsend.entry]
      exact hmodify
    refine ⟨g', ?_, ?_⟩
    · rw [if_pos rfl, hdecrease]
      rfl
    · intro s' hmode hlink hwriter
      exact (Effects.refl g s).tail hK (.release hflag hk hsend.entry hsend.live hdata hblocks hlink
        hwriter) ⟨l, hl'⟩ hmode hentries

/-- What a callback that only writes leaves alone. -/
structure Calm (s s' : HttpSock) : Prop where
  readSocket : s.readSocket = .svzTcpReadSocket → s'.readSocket = .svzTcpReadSocket
  flagCache : s.flagCache = false → s'.flagCache = false
  flagDone : s.flagDone = false → s'.flagDone = false
  killed : s'.killed = s.killed

theorem Calm.trans {s₁ s₂ s₃ : HttpSock} (h₁ : Calm s₁ s₂) (h₂ : Calm s₂ s₃) : Calm s₁ s₃ where
  readSocket h := h₂.readSocket (h₁.readSocket h)
  flagCache h := h₂.flagCache (h₁.flagCache h)
  flagDone h := h₂.flagDone (h₁.flagDone h)
  killed := h₂.killed.trans h₁.killed

/-- A callback has a result, which its effects lead to. -/
def Leads (K : Kind → Prop) (g : Cache) (s : HttpSock) (r : Result) : Prop :=
  ∃ g' s' died, r = some (g', s', died) ∧ Effects K g s g' s' ∧ Calm s s'

theorem httpKeepAlive_leads (hK : K .plain) (h : Owned (w.set c g s)) (hc : c ∈ w.socks)
    (hcut : s.reading = true → K .cutOff) : Leads K g s (httpKeepAlive g s) := by
  unfold httpKeepAlive
  cases hkeep : s.flagKeep with
  | false => exact ⟨g, s, true, rfl, .refl g s, ⟨id, id, id, rfl⟩⟩
  | true =>
    obtain ⟨g', hfree, heffects⟩ := httpFreeSocket_effects hK h hc (fun hread _ => hcut hread)
    let s' : HttpSock := { s with
      cache := none, fileDesc := none
      flagCache := false, flagDone := false, flagKeep := false, flagSendfile := false
      readSocket := .svzTcpReadSocket, writeSocket := .httpDefaultWrite, sendBuffer := [] }
    refine ⟨g', s', false, ?_, heffects s' ⟨nofun, nofun⟩ rfl nofun, ?_⟩
    · rw [if_pos rfl, hfree]
      rfl
    · exact ⟨fun _ => rfl, fun _ => rfl, fun _ => rfl, rfl⟩

/-! ## Writers -/

theorem checkDone_leads (hK : K .plain) (h : Owned (w.set c g s)) (hc : c ∈ w.socks)
    (hcut : s.reading = true → s.flagDone = true → K .cutOff) (died : Bool) :
    Leads K g s (checkDone g s died) := by
  unfold checkDone
  split
  · next hdone => exact httpKeepAlive_leads hK h hc (fun hread => hcut hread hdone.1)
  · exact ⟨g, s, died, rfl, .refl g s, ⟨id, id, id, rfl⟩⟩

theorem switchWriter_effects (cfg : HttpConfig) (hK : K .plain) (h : Owned (w.set c g s))
    (hmode : s.Mode) : Effects K g s g (switchWriter cfg s) ∧ Calm s (switchWriter cfg s) := by
  unfold switchWriter
  split
  · exact ⟨.refl g s, id, id, id, rfl⟩
  split
  · next hflag =>
    refine ⟨?_, id, id, id, rfl⟩
    exact Effects.quiet hK h ⟨hmode.null, nofun⟩ rfl (fun _ => hflag) (fun _ hd => hd) id
      (fun _ => rfl)
  split
  · next hsendfile =>
    refine ⟨?_, id, id, id, rfl⟩
    exact Effects.quiet hK h ⟨hmode.null, fun _ => hsendfile.2⟩ rfl nofun (fun _ hd => hd) id
      (fun _ => rfl)
  · exact ⟨.refl g s, id, id, id, rfl⟩

/-- Nothing is refreshed by the callbacks that write. -/
def NoRefresh (K : Kind → Prop) : Prop := ∀ a v done, ¬ K (.refresh a v done)

theorem NoRefresh.owned (hno : NoRefresh K) (h : Owned (w.set c g s)) (hc : c ∈ w.socks)
    (heffects : Effects K g s g' s') : Owned (w.set c g' s') :=
  heffects.owned h hc (fun a v done ha => absurd ha (hno a v done))

theorem httpDefaultWrite_leads (cfg : HttpConfig) (hK : K .plain) (hno : NoRefresh K)
    (h : Owned (w.set c g s)) (hc : c ∈ w.socks) (hmode : s.Mode)
    (hcut : s.reading = true → s.flagDone = true → K .cutOff) (r : SendResult) :
    Leads K g s (httpDefaultWrite cfg g s r) := by
  let s₁ : HttpSock := { s with
    sendBuffer := s.sendBuffer.drop (r.count s.sendBuffer.length)
    sent := s.sent ++ s.sendBuffer.take (r.count s.sendBuffer.length) }
  have hquiet : Effects K g s g s₁ :=
    Effects.quiet hK h ⟨hmode.null, hmode.sendFile⟩ rfl (h.sockOk hc).writer (fun _ hd => hd) id
      (fun _ => rfl)
  have howned₁ := hno.owned h hc hquiet
  obtain ⟨g₂, s₂, died, hcheck, heffects, hcalm⟩ :=
    checkDone_leads hK howned₁ hc hcut (decide (r = .error))
  have howned₂ := hno.owned howned₁ hc heffects
  obtain ⟨hswitch, hcalm'⟩ :=
    switchWriter_effects cfg hK howned₂ (heffects.mode (hquiet.mode hmode))
  refine ⟨g₂, switchWriter cfg s₂, died, ?_, (hquiet.trans heffects).trans hswitch, ?_⟩
  · exact congrArg (Option.map _) hcheck
  · exact Calm.trans ⟨hcalm.readSocket, hcalm.flagCache, hcalm.flagDone, hcalm.killed⟩ hcalm'

theorem count_le (limit : Nat) (r : SendResult) : r.count limit ≤ limit := by
  cases r with
  | sent n => exact Nat.min_le_right _ _
  | unavailable => exact Nat.zero_le _
  | error => exact Nat.zero_le _

/-- The buffer of an entry that is being sent can be read. -/
theorem cachedBytes_of_sending (h : Owned (w.set c g s)) {m n : Nat} (hsend : Sending g k a e m)
    (hn : n ≤ k.size) :
    ∃ bytes, cachedBytes g k n = some bytes := by
  unfold cachedBytes
  split
  · exact ⟨[], rfl⟩
  · next hpos =>
    have hsize := hsend.size
    rcases (h.entries a e hsend.live).bufferOk hsend.ready with ⟨-, hzero⟩ | ⟨b, x, hb, hx, -⟩
    · omega
    · have hx' : g.block b = some x := hx
      refine ⟨(x.drop (0 + m)).take n, ?_⟩
      rw [hsend.buffer, hb]
      simp only [Option.map_some, Option.bind_some, bytesAt, Ptr.shift, hx']

theorem httpCacheWrite_leads (hK : K .plain) (hno : NoRefresh K) (h : Owned (w.set c g s))
    (hc : c ∈ w.socks) (hmode : s.Mode) (hflag : s.flagCache = true) (r : SendResult) :
    Leads K g s (httpCacheWrite g s r) := by
  obtain ⟨hreading, k, a, e, m, hk, hsend⟩ := (h.sockOk hc).sending hflag
  have hn : r.count (min k.size (svzSockMaxWrite <<< 5)) ≤ k.size :=
    Nat.le_trans (count_le _ r) (Nat.min_le_left _ _)
  obtain ⟨bytes, hbytes⟩ := cachedBytes_of_sending h hsend hn
  let s₁ : HttpSock := { s with
    cache := some (k.advance (r.count (min k.size (svzSockMaxWrite <<< 5))))
    sent := s.sent ++ bytes }
  have hadvance : Effects K g s g s₁ := (Effects.refl g s).tail hK
    (.advance hflag hk hn rfl) h.listed ⟨hmode.null, hmode.sendFile⟩ rfl
  unfold httpCacheWrite
  simp only [hk, hsend.entry, hbytes, Option.bind_eq_bind, Option.bind_some]
  split
  · obtain ⟨g₂, s₂, died, hkeep, heffects, hcalm⟩ :=
      httpKeepAlive_leads hK (hno.owned h hc hadvance) hc (fun hread => by
        rw [show s₁.reading = s.reading from rfl, hreading] at hread
        cases hread)
    exact ⟨g₂, s₂, died, hkeep, hadvance.trans heffects,
      ⟨hcalm.readSocket, hcalm.flagCache, hcalm.flagDone, hcalm.killed⟩⟩
  · exact ⟨g, s₁, _, rfl, hadvance, ⟨id, id, id, rfl⟩⟩

theorem httpSendFile_leads (hK : K .plain) (hno : NoRefresh K) (h : Owned (w.set c g s))
    (hc : c ∈ w.socks) (hmode : s.Mode) (hwrite : s.writeSocket = .httpSendFile)
    (r : SendResult) : Leads K g s (httpSendFile g s r) := by
  have hnull := hmode.null (hmode.sendFile hwrite)
  have hreading : s.reading = false := by
    rw [HttpSock.reading, hnull]
    rfl
  have hwriter := (h.sockOk hc).writer
  have hidle : ∀ {s' : HttpSock}, s.reading = true → s'.source = s.source :=
    fun hread => absurd (hreading.symm.trans hread) nofun
  have hself : Leads K g s (some (g, s, true)) := ⟨g, s, true, rfl, .refl g s, ⟨id, id, id, rfl⟩⟩
  unfold httpSendFile
  split
  · next file n hfile =>
    simp only
    split
    · exact hself
    split
    · generalize chunk file.content s.fileoffset n (s.doWrite file) = bytes
      have hlink : (s.sendChunk bytes).endSendfile.link = s.link := by
        change Link.mk _ _ false _ = Link.mk _ _ s.reading _
        rw [hreading]
        rfl
      have hquiet : Effects K g s g (s.sendChunk bytes).endSendfile :=
        Effects.quiet hK h ⟨nofun, nofun⟩ hlink nofun (fun _ hd => hd) id hidle
      obtain ⟨g₂, s₂, died, hkeep, heffects, hcalm⟩ :=
        httpKeepAlive_leads hK (hno.owned h hc hquiet) hc nofun
      exact ⟨g₂, s₂, died, hkeep, hquiet.trans heffects,
        ⟨fun _ => hcalm.readSocket rfl, hcalm.flagCache, hcalm.flagDone, hcalm.killed⟩⟩
    · refine ⟨g, _, _, rfl, Effects.quiet hK h ⟨hmode.null, hmode.sendFile⟩ rfl hwriter
        (fun _ hd => hd) id hidle, ⟨id, id, id, rfl⟩⟩
  · exact hself

theorem writeSocket_leads (cfg : HttpConfig) (hK : K .plain) (hno : NoRefresh K)
    (h : Owned (w.set c g s)) (hc : c ∈ w.socks) (hmode : s.Mode)
    (hcut : s.reading = true → s.flagDone = true → K .cutOff) (r : SendResult) :
    Leads K g s (writeSocket cfg g s r) := by
  unfold writeSocket
  split
  · exact httpDefaultWrite_leads cfg hK hno h hc hmode hcut r
  · next hwrite => exact httpCacheWrite_leads hK hno h hc hmode ((h.sockOk hc).writer hwrite) r
  · next hwrite => exact httpSendFile_leads hK hno h hc hmode hwrite r

/-! ## Readers of files -/

/-- A callback has a result, which its effects lead to once the socket is marked if it died. -/
def Ends (K : Kind → Prop) (g : Cache) (s : HttpSock) (r : Result) : Prop :=
  ∃ g' s' died, r = some (g', s', died) ∧ Effects K g s g' { s' with killed := died }

theorem Leads.ends (hK : K .plain) (hno : NoRefresh K) (h : Owned (w.set c g s))
    (hc : c ∈ w.socks) (hmode : s.Mode) (hkilled : s.killed = false) {r : Result}
    (hleads : Leads K g s r) : Ends K g s r := by
  obtain ⟨g', s', died, hr, heffects, hcalm⟩ := hleads
  have howned := hno.owned h hc heffects
  have hmode' := heffects.mode hmode
  refine ⟨g', s', died, hr, heffects.trans ?_⟩
  refine Effects.quiet hK howned ⟨hmode'.null, hmode'.sendFile⟩ rfl (howned.sockOk hc).writer
    (fun _ hd => hd) ?_ (fun _ => rfl)
  intro hdead
  rw [hcalm.killed, hkilled] at hdead
  cases hdead

theorem chunk_eq_nil_iff {content : List UInt8} {off n limit : Nat} (hlimit : 0 < limit) :
    chunk content off n limit = [] ↔ content.length ≤ off := by
  rw [chunk, List.take_eq_nil_iff, List.drop_eq_nil_iff]
  constructor
  · rintro (hzero | h)
    · omega
    · exact h
  · exact Or.inr

theorem extend_spec {p : Option Ptr} {n : Nat} (h : BufferOk g p n) (bytes : List UInt8) :
    ∃ old, (∀ q, p = some q → g.block q.block = some old) ∧ (p = none → old = []) ∧
      g.extend p bytes = some ({ g with
        block := Function.update (without g.block p) g.nextBlock (some (old ++ bytes))
        nextBlock := g.nextBlock + 1 }, ⟨g.nextBlock, 0⟩) := by
  have hfree := freeBlock_spec g p h.freeable
  rcases h with ⟨rfl, -⟩ | ⟨b, x, rfl, hx, -⟩
  · exact ⟨[], nofun, fun _ => rfl, rfl⟩
  · refine ⟨x, ?_, nofun, ?_⟩
    · intro q hq
      rw [← Option.some_inj.mp hq]
      exact hx
    · unfold extend
      simp only [hx, Option.bind_eq_bind, Option.bind_some, hfree]

theorem completeEntry_spec {l : List Addr} (hl : Listed g l) (hentry : k.entry = some a)
    (he : dataOf g.entry a = some e) :
    ∃ g', completeEntry g k = some g' ∧ Listed g' l ∧
      dataOf g'.entry = Function.update (dataOf g.entry) a
        (some { e with size := k.size, buffer := k.buffer, ready := true }) ∧
      SameBlocks g g' ∧ g'.httpCacheEntries = g.httpCacheEntries := by
  obtain ⟨g', hmodify, hl', hdata, hblocks, hentries, -⟩ := hl.modify_spec he
    (fun e => { e with size := k.size, buffer := k.buffer, ready := true })
    (fun _ => ⟨rfl, rfl, rfl⟩) (fun _ => rfl)
  refine ⟨g', ?_, hl', hdata, hblocks, hentries⟩
  rw [completeEntry, hentry]
  exact hmodify

section Reading

variable (hK : K .plain) (h : Owned (w.set c g s)) (hc : c ∈ w.socks) (hmode : s.Mode)
  (hread : s.reading = true) (hkilled : s.killed = false)

include h hc hread hkilled in
/-- A connection that reads a file and has not been killed fills an entry. -/
theorem exists_filling : ∃ k a e, s.cache = some k ∧ BufferOk g k.buffer k.size ∧
    Filling g k a e := by
  obtain ⟨-, k, hk, hbuffer, hcase⟩ := (h.sockOk hc).filling hread
  rcases hcase with ⟨-, hdead⟩ | ⟨a, e, hfill⟩
  · rw [hkilled] at hdead
    cases hdead
  · exact ⟨k, a, e, hk, hbuffer, hfill⟩

include hmode hread in
theorem flagSendfile_eq_false : s.flagSendfile = false := by
  cases hflag : s.flagSendfile with
  | false => rfl
  | true =>
    rw [HttpSock.reading, hmode.null hflag] at hread
    cases hread

include hK h hmode hread in
theorem cacheReadEnd_ends (hk : s.cache = some k) (hfill : Filling g k a e) {file : OpenFile}
    (hfile : s.fileDesc = some file) (hend : file.content.length ≤ file.pos)
    (hempty : k.buffer = none → K .empty) :
    Ends K g s (cacheReadEnd g s k) := by
  obtain ⟨l, hl⟩ : ∃ l, Listed g l := h.listed
  obtain ⟨g', hcomplete, hl', hdata, hblocks, hentries⟩ :=
    completeEntry_spec hl hfill.entry hfill.live
  have hsendfile := flagSendfile_eq_false hmode hread
  have hkind : K (if k.buffer = none then .empty else .plain) := by
    split
    · next hnone => exact hempty hnone
    · exact hK
  have hpath : ∀ s' : HttpSock, s'.Mode →
      s'.link = { s.link with cache := some httpCacheReset, reading := s'.reading } →
      s'.writeSocket = s.writeSocket →
      (s'.reading = true → s'.killed = true ∧ s'.flagDone = s.flagDone) → Effects K g s g' s' := by
    intro s' hmode' hlink hwriter hdone
    exact (Effects.refl g s).tail hkind (.complete hread hk hfill.entry hfill.live hdata hblocks
      hlink hwriter hdone hfile (Or.inr hend)) ⟨l, hl'⟩ hmode' hentries
  unfold cacheReadEnd
  rw [hcomplete, Option.map_some]
  by_cases hlen : s.filelength ≠ 0
  · rw [if_pos hlen]
    refine ⟨g', s.resetCache, true, rfl, hpath _ ⟨hmode.null, hmode.sendFile⟩ rfl rfl ?_⟩
    exact fun _ => ⟨rfl, rfl⟩
  · rw [if_neg hlen]
    refine ⟨g', s.resetCache.endFile, false, rfl, hpath _ ⟨?_, hmode.sendFile⟩ rfl rfl nofun⟩
    intro hflag
    exact absurd (hsendfile.symm.trans hflag) nofun

include hK h hmode hread hkilled in
theorem cacheReadData_ends (hk : s.cache = some k) (hbuffer : BufferOk g k.buffer k.size)
    (hfill : Filling g k a e) {file : OpenFile} (hfile : s.fileDesc = some file)
    {bytes : List UInt8} {n : Nat} (hbytes : bytes = (file.content.drop file.pos).take n) :
    Ends K g s (cacheReadData g s k file bytes) := by
  obtain ⟨l, hl⟩ : ∃ l, Listed g l := h.listed
  obtain ⟨old, hold, hnone, hextend⟩ := extend_spec hbuffer bytes
  have hsendfile := flagSendfile_eq_false hmode hread
  let g₁ : Cache := { g with
    block := Function.update (without g.block k.buffer) g.nextBlock (some (old ++ bytes))
    nextBlock := g.nextBlock + 1 }
  let k₁ : HttpCache := ⟨some ⟨g.nextBlock, 0⟩, k.size + bytes.length, k.entry⟩
  let s₁ : HttpSock := { s.readChunk file bytes with cache := some k₁ }
  have hl₁ : Listed g₁ l := hl.congr (fun _ => rfl) rfl
  have hmore : Effects K g s g₁ s₁ := (Effects.refl g s).tail hK
    (.more hread hk hkilled rfl hold hnone rfl rfl rfl rfl rfl hfile hbytes rfl) ⟨l, hl₁⟩
    ⟨hmode.null, hmode.sendFile⟩ rfl
  unfold cacheReadData
  simp only [hextend, Option.bind_eq_bind, Option.bind_some]
  split
  · next hlength =>
    obtain ⟨g₂, hcomplete, hl₂, hdata, hblocks, hentries⟩ :=
      completeEntry_spec (k := k₁) hl₁ hfill.entry hfill.live
    refine ⟨g₂, (s.readChunk file bytes).resetCache.endFile, false, ?_, hmore.tail
      (k := if k₁.buffer = none then .empty else .plain) hK ?_ ⟨l, hl₂⟩ ⟨?_, hmode.sendFile⟩
      hentries⟩
    · exact congrArg (Option.map _) hcomplete
    · exact .complete hread rfl hfill.entry hfill.live hdata hblocks rfl rfl nofun rfl
        (Or.inl hlength)
    · intro hflag
      exact absurd (hsendfile.symm.trans hflag) nofun
  · refine ⟨g₁, s₁, false, rfl, ?_⟩
    have hsame : { s₁ with killed := false } = s₁ := by
      change ({ s₁ with killed := false } : HttpSock) = { s₁ with killed := s.killed }
      rw [hkilled]
    rw [hsame]
    exact hmore

include hK h hc hmode hread in
theorem cacheReadError_ends (hk : s.cache = some k) (hbuffer : BufferOk g k.buffer k.size)
    (habandon : 0 < k.size → K .abandon) :
    Ends K g s (cacheReadError g s k) := by
  obtain ⟨l, hl⟩ : ∃ l, Listed g l := h.listed
  unfold cacheReadError
  split
  · next hsize =>
    rw [freeBlock_spec g k.buffer hbuffer.freeable, Option.map_some]
    refine ⟨_, s.resetCache, true, rfl, (Effects.refl g s).tail (habandon hsize) ?_
      ⟨l, hl.congr (fun _ => rfl) rfl⟩ ⟨hmode.null, hmode.sendFile⟩ rfl⟩
    exact .abandon hread hk rfl rfl rfl rfl rfl rfl rfl
  · refine ⟨g, s, true, rfl, Effects.quiet hK h ⟨hmode.null, hmode.sendFile⟩ rfl ?_
      (fun _ hd => hd) (fun _ => rfl) (fun _ => rfl)⟩
    exact (h.sockOk hc).writer

include hK h hc hmode hread hkilled in
theorem httpCacheRead_ends (cfg : HttpConfig) (r : ReadResult)
    (hempty : s.sendBuffer.length < cfg.sendBufferSize → s.endsEmpty r = true → K .empty)
    (habandon : s.sendBuffer.length < cfg.sendBufferSize → s.breaksOff r = true → K .abandon) :
    Ends K g s (httpCacheRead cfg g s r) := by
  obtain ⟨k, a, e, hk, hbuffer, hfill⟩ := exists_filling h hc hread hkilled
  have hwriter := (h.sockOk hc).writer
  unfold httpCacheRead
  simp only
  split
  · refine ⟨g, s, false, rfl, Effects.quiet hK h ⟨hmode.null, hmode.sendFile⟩ rfl hwriter
      (fun _ hd => hd) ?_ (fun _ => rfl)⟩
    intro hdead
    exact absurd (hkilled.symm.trans hdead) nofun
  · next hroom =>
    rw [hk, Option.bind_eq_bind, Option.bind_some]
    have hspace : s.sendBuffer.length < cfg.sendBufferSize := by omega
    have herror : s.fileDesc = none ∨ r = .error → Ends K g s (cacheReadError g s k) := by
      intro hwhy
      refine cacheReadError_ends hK h hc hmode hread hk hbuffer ?_
      intro hsize
      refine habandon hspace ?_
      rw [HttpSock.breaksOff, hk, Bool.and_eq_true, Bool.or_eq_true, decide_eq_true_iff,
        decide_eq_true_iff]
      exact ⟨decide_eq_true hsize, hwhy⟩
    cases hfile : s.fileDesc with
    | none => exact herror (Or.inl hfile)
    | some file =>
      cases r with
      | error => exact herror (Or.inr rfl)
      | data n =>
        simp only
        split
        · next hnil =>
          have hend := (chunk_eq_nil_iff (Nat.pos_of_ne_zero hroom)).mp hnil
          refine cacheReadEnd_ends hK h hmode hread hk hfill hfile hend ?_
          intro hnone
          refine hempty hspace ?_
          rcases hbuffer with ⟨-, hzero⟩ | ⟨b, x, hb, -⟩
          · rw [HttpSock.endsEmpty, hk, hfile, Bool.and_eq_true]
            exact ⟨decide_eq_true hzero, decide_eq_true hend⟩
          · rw [hnone] at hb
            cases hb
        · exact cacheReadData_ends hK h hmode hread hkilled hk hbuffer hfill hfile rfl

end Reading

theorem httpFileRead_ends (cfg : HttpConfig) (hK : K .plain) (h : Owned (w.set c g s))
    (hc : c ∈ w.socks) (hmode : s.Mode) (hread : s.readSocket = .httpFileRead)
    (hkilled : s.killed = false) (r : ReadResult) : Ends K g s (httpFileRead cfg g s r) := by
  have hwriter := (h.sockOk hc).writer
  have hreading : s.reading = false := by
    rw [HttpSock.reading, hread]
    rfl
  have hsendfile : s.flagSendfile = false := by
    cases hflag : s.flagSendfile with
    | false => rfl
    | true =>
      have hnull := hmode.null hflag
      rw [hread] at hnull
      cases hnull
  have hidle : ∀ {s' : HttpSock}, s.reading = true → s'.source = s.source :=
    fun hread => absurd (hreading.symm.trans hread) nofun
  have hself : ∀ died, Ends K g s (some (g, s, died)) := by
    intro died
    refine ⟨g, s, died, rfl, Effects.quiet hK h ⟨hmode.null, hmode.sendFile⟩ rfl hwriter
      (fun _ hd => hd) ?_ (fun _ => rfl)⟩
    intro hdead
    exact absurd (hkilled.symm.trans hdead) nofun
  unfold httpFileRead
  simp only
  split
  · exact hself false
  split
  · next file n _ =>
    generalize chunk file.content file.pos n (cfg.sendBufferSize - s.sendBuffer.length) = bytes
    split
    · exact hself true
    split
    · refine ⟨g, _, false, rfl, Effects.quiet hK h ⟨?_, hmode.sendFile⟩ ?_ hwriter nofun ?_
        hidle⟩
      · intro hflag
        exact absurd (hsendfile.symm.trans hflag) nofun
      · change Link.mk _ _ false _ = Link.mk _ _ s.reading _
        rw [hreading]
        rfl
      · intro hdead
        exact absurd (hkilled.symm.trans hdead) nofun
    · refine ⟨g, _, false, rfl, Effects.quiet hK h ⟨hmode.null, hmode.sendFile⟩ rfl hwriter
        (fun _ hd => hd) ?_ hidle⟩
      intro hdead
      exact absurd (hkilled.symm.trans hdead) nofun
  · exact hself true

end Serveez.Transfer
