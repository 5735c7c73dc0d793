import Serveez.Http.CacheSteps

/-!
# The effects of a request

A request is answered between two responses: the connection reads requests and has no
`HTTP_FLAG_CACHE`. Then its answer has effects as the other callbacks have. An entry is
refreshed if the cache says so before the request (`Cache.changed`).
-/

namespace Serveez.Transfer

open Cache Lib World

variable {w : World} {c : Nat} {g g' : Cache} {s s' : HttpSock} {K : Kind → Prop}

/-- The entry of the file, if it is complete but the file has changed on the disk since. -/
def Cache.changed (g : Cache) (req : GetRequest) : Option Addr :=
  if req.delivery = .whole then
    (g.svzHashGet req.file).filter fun a => (g.entry a).any fun e =>
      e.ready && (e.date < req.mtime || req.stSize ≠ e.size)
  else none

def GetRequest.version (req : GetRequest) : Version := ⟨req.file, req.mtime, req.content⟩

theorem GetRequest.source_eq (req : GetRequest) (hwhole : req.delivery = .whole) :
    (some (OpenFile.mk req.content req.start), toInt req.stSize) = req.version.source := by
  unfold GetRequest.start GetRequest.stSize
  rw [hwhole]
  rfl

/-- Nothing but plain effects. -/
def Plain (k : Kind) : Prop := k = .plain

theorem plain_plain : Plain .plain := rfl

theorem noRefresh_plain : NoRefresh Plain := fun _ _ _ h => Kind.noConfusion h

/-! ## The header -/

theorem httpKeepAlive_cache {died : Bool} (h : httpKeepAlive g s = some (g', s', died))
    (hflag : s.flagCache = false) : g' = g := by
  unfold httpKeepAlive httpFreeSocket at h
  rw [hflag] at h
  cases hkeep : s.flagKeep with
  | false =>
    rw [hkeep] at h
    simp only [Bool.false_eq_true, if_false, Option.some_inj, Prod.mk.injEq] at h
    exact h.1.symm
  | true =>
    rw [hkeep] at h
    simp only [Bool.false_eq_true, if_false, if_true, Option.map_some, Option.bind_eq_bind,
      Option.bind_some, Option.some_inj, Prod.mk.injEq] at h
    exact h.1.symm

theorem httpDefaultWrite_cache (cfg : HttpConfig) (hflag : s.flagCache = false) {r : SendResult}
    {died : Bool} (h : httpDefaultWrite cfg g s r = some (g', s', died)) : g' = g := by
  unfold httpDefaultWrite at h
  simp only [Option.map_eq_some_iff, Prod.mk.injEq] at h
  obtain ⟨⟨g₁, s₁, died₁⟩, hcheck, rfl, -, -⟩ := h
  unfold checkDone at hcheck
  split at hcheck
  · exact httpKeepAlive_cache hcheck hflag
  · cases hcheck
    rfl

theorem httpSendFile_cache (hflag : s.flagCache = false) {r : SendResult} {died : Bool}
    (h : httpSendFile g s r = some (g', s', died)) : g' = g := by
  unfold httpSendFile at h
  split at h
  · simp only at h
    split at h
    · cases h
      rfl
    split at h
    · exact httpKeepAlive_cache h hflag
    · cases h
      rfl
  · cases h
    rfl

/-- What flushing the send buffer and writing into it has done. -/
structure Written (K : Kind → Prop) (g : Cache) (s : HttpSock) (g' : Cache) (s' : HttpSock) :
    Prop where
  effects : Effects K g s g' s'
  calm : Calm s s'
  cache : s.flagCache = false → g' = g

theorem Written.trans {g₁ : Cache} {s₁ : HttpSock} (h₁ : Written K g s g₁ s₁)
    (h₂ : Written K g₁ s₁ g' s') : Written K g s g' s' where
  effects := h₁.effects.trans h₂.effects
  calm := h₁.calm.trans h₂.calm
  cache hflag := (h₂.cache (h₁.calm.flagCache hflag)).trans (h₁.cache hflag)

theorem svzSockWrite_spec (cfg : HttpConfig) (hK : K .plain) (hno : NoRefresh K)
    (h : Owned (w.set c g s)) (hc : c ∈ w.socks) (hmode : s.Mode)
    (hread : s.readSocket = .svzTcpReadSocket) (bytes : List UInt8) (flush : SendResult) :
    ∃ g' s' died, svzSockWrite cfg g s bytes flush = some (g', s', died) ∧
      Written K g s g' s' := by
  have hput : ∀ {g₁ s₁}, Owned (w.set c g₁ s₁) → s₁.Mode → ∀ buffer : List UInt8,
      Effects K g₁ s₁ g₁ { s₁ with sendBuffer := buffer } := by
    intro g₁ s₁ howned hmode₁ buffer
    exact Effects.quiet hK howned ⟨hmode₁.null, hmode₁.sendFile⟩ rfl (howned.sockOk hc).writer
      (fun _ hd => hd) id (fun _ => rfl)
  unfold svzSockWrite
  split
  · exact ⟨g, s, false, rfl, .refl g s, ⟨id, id, id, rfl⟩, fun _ => rfl⟩
  split
  · exact ⟨g, _, false, rfl, hput h hmode bytes, ⟨id, id, id, rfl⟩, fun _ => rfl⟩
  have hnot : s.reading = true → s.flagDone = true → K .cutOff := by
    intro hreading
    rw [HttpSock.reading, hread] at hreading
    cases hreading
  obtain ⟨g₁, s₁, died, hwrite, heffects, hcalm⟩ :=
    writeSocket_leads cfg hK hno h hc hmode hnot flush
  have hsame : s.flagCache = false → g₁ = g := by
    intro hflag
    unfold writeSocket at hwrite
    split at hwrite
    · exact httpDefaultWrite_cache cfg hflag hwrite
    · next hwriter =>
      exact absurd (hflag.symm.trans ((h.sockOk hc).writer hwriter)) Bool.false_ne_true
    · exact httpSendFile_cache hflag hwrite
  rw [hwrite, Option.bind_eq_bind, Option.bind_some]
  cases died with
  | true => exact ⟨g₁, s₁, true, rfl, heffects, hcalm, hsame⟩
  | false =>
    refine ⟨g₁, _, false, rfl, heffects.trans ?_, ⟨hcalm.readSocket, hcalm.flagCache,
      hcalm.flagDone, hcalm.killed⟩, hsame⟩
    exact hput (hno.owned h hc heffects) (heffects.mode hmode) _

theorem httpSendHeader_spec (cfg : HttpConfig) (hK : K .plain) (hno : NoRefresh K)
    (h : Owned (w.set c g s)) (hc : c ∈ w.socks) (hmode : s.Mode)
    (hread : s.readSocket = .svzTcpReadSocket) (header : HttpHeader) (flush : Flush) :
    ∃ g' s', httpSendHeader cfg g s header flush = some (g', s') ∧ Written K g s g' s' := by
  obtain ⟨g₁, s₁, died, hfirst, hwritten⟩ :=
    svzSockWrite_spec cfg hK hno h hc hmode hread header.response flush.first
  obtain ⟨g₂, s₂, died₂, hsecond, hwritten₂⟩ := svzSockWrite_spec cfg hK hno
    (hno.owned h hc hwritten.effects) hc (hwritten.effects.mode hmode)
    (hwritten.calm.readSocket hread) header.field flush.second
  unfold httpSendHeader
  simp only [hfirst, Option.bind_eq_bind, Option.bind_some]
  cases died with
  | true => exact ⟨g₁, s₁, rfl, hwritten⟩
  | false =>
    refine ⟨g₂, s₂, ?_, hwritten.trans hwritten₂⟩
    simp only [Bool.false_eq_true, if_false, hsecond, Option.bind_some]

/-- The response is complete once it is in the send buffer. -/
theorem done_effects (hK : K .plain) (h : Owned (w.set c g s)) (hc : c ∈ w.socks) (hmode : s.Mode)
    (hread : s.readSocket = .svzTcpReadSocket) (hno : NoRefresh K)
    (hwritten : Written K g s g' s') : Effects K g s g' { s' with flagDone := true } := by
  have howned := hno.owned h hc hwritten.effects
  have hmode' := hwritten.effects.mode hmode
  refine hwritten.effects.trans (Effects.quiet hK howned ⟨hmode'.null, hmode'.sendFile⟩ rfl
    (howned.sockOk hc).writer ?_ id (fun _ => rfl))
  intro hreading
  rw [HttpSock.reading, hwritten.calm.readSocket hread] at hreading
  cases hreading

theorem httpErrorResponse_spec (cfg : HttpConfig) (hK : K .plain) (hno : NoRefresh K)
    (h : Owned (w.set c g s)) (hc : c ∈ w.socks) (hmode : s.Mode)
    (hread : s.readSocket = .svzTcpReadSocket) (header : HttpHeader) (flush : Flush) :
    ∃ g' s', httpErrorResponse cfg g s header flush = some (g', s') ∧ Effects K g s g' s' ∧
      s'.killed = s.killed := by
  obtain ⟨g₁, s₁, died, hfirst, hwritten⟩ :=
    svzSockWrite_spec cfg hK hno h hc hmode hread header.response flush.first
  obtain ⟨g₂, s₂, died₂, hsecond, hwritten₂⟩ := svzSockWrite_spec cfg hK hno
    (hno.owned h hc hwritten.effects) hc (hwritten.effects.mode hmode)
    (hwritten.calm.readSocket hread) header.field flush.second
  have hboth := hwritten.trans hwritten₂
  refine ⟨g₂, { s₂ with flagDone := true }, ?_, done_effects hK h hc hmode hread hno hboth,
    hboth.calm.killed⟩
  unfold httpErrorResponse
  simp only [hfirst, hsecond, Option.bind_eq_bind, Option.bind_some]

/-! ## The file -/

section Starting

variable (hK : K .plain) (h : Owned (w.set c g s)) (hc : c ∈ w.socks) (hmode : s.Mode)
  (hread : s.readSocket = .svzTcpReadSocket) (hflag : s.flagCache = false)

include hread in
theorem reading_eq_false : s.reading = false := by
  rw [HttpSock.reading, hread]
  rfl

include hmode hread in
theorem not_flagSendfile : s.flagSendfile ≠ true := by
  intro hsendfile
  rw [hmode.null hsendfile] at hread
  cases hread

include h hc hflag in
theorem writeSocket_ne : s.writeSocket ≠ .httpCacheWrite := by
  intro hwriter
  exact absurd (hflag.symm.trans ((h.sockOk hc).writer hwriter)) nofun

include hK h hc hmode hread hflag in
theorem uncached_effects (cfg : HttpConfig) (file : OpenFile) (n : Int) :
    Effects K g s g (uncached cfg { s with
      fileDesc := some file, filelength := n, cache := some httpCacheReset }) := by
  have hwriter := writeSocket_ne h hc hflag
  have hreading := reading_eq_false hread
  unfold uncached
  split
  · refine (Effects.refl g s).tail hK (.miss hflag hreading ?_ hwriter) h.listed ⟨fun _ => rfl,
      fun _ => rfl⟩ rfl
    exact congrArg (fun b => Link.mk (some httpCacheReset) b false s.disconnectedSocket) hflag
  · refine (Effects.refl g s).tail hK (.miss hflag hreading ?_ hwriter) h.listed ⟨?_, ?_⟩ rfl
    · exact congrArg (fun b => Link.mk (some httpCacheReset) b false s.disconnectedSocket) hflag
    · exact fun hsendfile => (not_flagSendfile hmode hread hsendfile).elim
    · exact hmode.sendFile

/-- The entry of a file that is not in the cache yet, and the effects of making room for it. -/
theorem httpInitCache_effects (hK : K .plain) (h : Owned (w.set c g s)) (hmode : s.Mode)
    {file : FileName} (hnew : g.svzHashGet file = none) :
    g.httpInitCache file = some (g, httpCacheReset, false) ∨
      ∃ g₁ g' a l, g.httpInitCache file = some (g', ⟨none, 0, some a⟩, true) ∧
        Effects K g s g₁ s ∧ dataOf g₁.entry a = none ∧ Listed g' l ∧
        dataOf g'.entry = Function.update (dataOf g₁.entry) a
          (some (httpCacheCreateEntry file)) ∧
        SameBlocks g₁ g' ∧ g'.httpCacheEntries = g₁.httpCacheEntries := by
  obtain ⟨l, hl⟩ : ∃ l, Listed g l := h.listed
  have hfreeable : ∀ a e, g.entry a = some e → g.Freeable e.buffer := by
    intro a e he
    exact (h.entries a e.unlinked (dataOf_eq_some he)).freeable
  rcases hl.httpInitCache_spec hnew hfreeable with ⟨-, -, hfail⟩ |
      ⟨g₁, g', l₁, hroom, hl₁, hnew₁, hlen, henter, hinit⟩
  · exact Or.inl hfail
  refine Or.inr ?_
  obtain ⟨g₂, henter₂, hl₂, hdata, hblock, hnext, hentries⟩ := hl₁.enterSlot_spec hnew₁ hlen
  obtain rfl : g' = g₂ := by
    rw [henter, Option.some_inj, Prod.mk.injEq] at henter₂
    exact henter₂.1
  refine ⟨g₁, g', g₁.nextEntry, _, hinit, ?_, ?_, hl₂, hdata, ⟨hblock, hnext⟩, hentries⟩
  · rcases hroom with ⟨-, rfl, -⟩ | ⟨-, a, hfind, hdestroy, -⟩
    · exact .refl _ s
    obtain ⟨hmem, hidle, -⟩ := hl.find_idle_eq_some_iff.mp hfind
    obtain ⟨e, he⟩ := hl.chain.live a hmem
    obtain ⟨husage, hready⟩ := (idle_eq g he).mp hidle
    have hreleased : CacheEntry.released e = e.buffer := if_pos hready
    obtain ⟨g₃, hdestroy₃, hl₃, hdata₃, hblock₃, hnext₃, -, hentries₃⟩ :=
      hl.httpCacheDestroyEntry_spec he (hreleased.symm ▸ hfreeable a e he)
    obtain rfl : g₁ = g₃ := Option.some_inj.mp (hdestroy.symm.trans hdestroy₃)
    rw [hreleased] at hblock₃
    exact (Effects.refl g s).tail hK (.evict (e := e.unlinked) (dataOf_eq_some he) hready husage
      hdata₃ hblock₃ hnext₃) ⟨_, hl₃⟩ hmode hentries₃
  · cases hslot : g₁.entry g₁.nextEntry with
    | none =>
      rw [dataOf, hslot]
      rfl
    | some e => exact absurd (hl₁.fresh _ e hslot) (Nat.lt_irrefl _)

include hK h hc hmode hread hflag in
theorem fromDisk_effects (cfg : HttpConfig) (req : GetRequest) (status : CacheStatus)
    (hload : req.delivery = .whole → K (.load req.version s.flagDone))
    (hnew : status = .no → req.delivery = .whole ∧ g.svzHashGet req.file = none) :
    ∃ g' s', fromDisk cfg g s req httpCacheReset status = some (g', s') ∧ Effects K g s g' s' ∧
      s'.killed = s.killed := by
  have hmiss := uncached_effects hK h hc hmode hread hflag cfg ⟨req.content, req.start⟩
    (toInt req.stSize)
  have hwriter := writeSocket_ne h hc hflag
  have hkilled : ∀ s : HttpSock, (uncached cfg s).killed = s.killed := by
    intro s
    unfold uncached
    split <;> rfl
  unfold fromDisk
  simp only
  split
  · next hcase =>
    rcases httpInitCache_effects hK h hmode (hnew hcase.1).2 with hfail |
        ⟨g₁, g', a, l, hinit, heffects, hfree, hl, hdata, hblocks, hentries⟩
    · refine ⟨g, _, ?_, hmiss, hkilled _⟩
      rw [hfail]
      rfl
    · have hlive : dataOf g'.entry a = some (httpCacheCreateEntry req.file) := by
        rw [hdata, Function.update_self]
      obtain ⟨g₂, hmodify, hl₂, hdata₂, hblocks₂, hentries₂, -⟩ := hl.modify_spec hlive
        (fun e => { e with date := req.mtime }) (fun _ => ⟨rfl, rfl, rfl⟩) (fun _ => rfl)
      rw [hdata, Function.update_idem] at hdata₂
      let s' : HttpSock := { s with
        fileDesc := some ⟨req.content, req.start⟩, filelength := toInt req.stSize
        cache := some ⟨none, 0, some a⟩
        readSocket := .httpCacheRead, disconnectedSocket := .httpCacheDisconnect }
      have hlink : s'.link = ⟨some ⟨none, 0, some a⟩, false, true, .httpCacheDisconnect⟩ :=
        congrArg (fun b => Link.mk (some ⟨none, 0, some a⟩) b true .httpCacheDisconnect) hflag
      have hsource : s'.source = req.version.source := req.source_eq (hnew hcase.1).1
      have henter : Effect (.load req.version s.flagDone) g₁ s g₂ s' :=
        .enter hflag (reading_eq_false hread) hfree hdata₂ ⟨hblocks₂.block.trans hblocks.block,
          hblocks₂.nextBlock.trans hblocks.nextBlock⟩ hlink hwriter rfl hsource
      refine ⟨g₂, s', ?_, heffects.tail (hload (hnew hcase.1).1) henter ⟨l, hl₂⟩
        ⟨?_, hmode.sendFile⟩ (hentries₂.trans hentries), rfl⟩
      · rw [hinit]
        simp only [Option.bind_eq_bind, Option.bind_some, if_true, hmodify]
        rfl
      · exact fun hsendfile => (not_flagSendfile hmode hread hsendfile).elim
  · exact ⟨g, _, rfl, hmiss, hkilled _⟩

include h in
theorem httpRefreshCache_spec {a : Addr} {e : CacheEntry} (he : dataOf g.entry a = some e)
    (date : Int) :
    ∃ g₁ g' l, g.httpRefreshCache ⟨e.buffer, e.size, some a⟩ = some (g₁, ⟨none, 0, some a⟩) ∧
      g₁.modify a (fun e => { e with date := date }) = some g' ∧ Listed g' l ∧
      dataOf g'.entry = Function.update (dataOf g.entry) a
        (some { e with buffer := none, ready := false, hits := 0, usage := 0, date := date }) ∧
      g'.block = without g.block e.buffer ∧ g'.nextBlock = g.nextBlock ∧
      g'.httpCacheEntries = g.httpCacheEntries := by
  obtain ⟨l, hl⟩ : ∃ l, Listed g l := h.listed
  have hfreeable : g.Freeable e.buffer := (h.entries a e he).freeable
  have hl₀ : Listed { g with block := without g.block e.buffer } l := hl.congr (fun _ => rfl) rfl
  obtain ⟨g₁, hmodify₁, hl₁, hdata₁, hblocks₁, hentries₁, -⟩ := hl₀.modify_spec he
    (fun e => { e with buffer := none, ready := false, hits := 0, usage := 0 })
    (fun _ => ⟨rfl, rfl, rfl⟩) (fun _ => rfl)
  have hlive₁ : dataOf g₁.entry a = some { e with
      buffer := none, ready := false, hits := 0, usage := 0 } := by
    rw [hdata₁, Function.update_self]
  obtain ⟨g₂, hmodify₂, hl₂, hdata₂, hblocks₂, hentries₂, -⟩ := hl₁.modify_spec hlive₁
    (fun e => { e with date := date }) (fun _ => ⟨rfl, rfl, rfl⟩) (fun _ => rfl)
  rw [hdata₁, Function.update_idem] at hdata₂
  refine ⟨g₁, g₂, l, ?_, hmodify₂, hl₂, hdata₂, hblocks₂.block.trans hblocks₁.block,
    hblocks₂.nextBlock.trans hblocks₁.nextBlock, hentries₂.trans hentries₁⟩
  obtain ⟨x, hx, hxe⟩ := Option.map_eq_some_iff.mp he
  have hbuffer : x.buffer = e.buffer := by rw [← hxe]; rfl
  unfold httpRefreshCache
  simp only [Option.bind_eq_bind, Option.bind_some, hx, hbuffer, freeBlock_spec g _ hfreeable,
    hmodify₁]

include hK h hc hmode hread hflag in
theorem fromCache_effects (req : GetRequest) {a : Addr} {e : CacheEntry}
    (he : g.entry a = some e) (hready : e.ready = true)
    (hwhole : req.delivery = .whole) (hfile : e.file = req.file)
    (hrefresh : e.date < req.mtime ∨ req.stSize ≠ e.size →
      K (.refresh a req.version s.flagDone)) :
    ∃ g' s', fromCache g s req ⟨e.buffer, e.size, some a⟩ = some (g', s') ∧ Effects K g s g' s' ∧
      s'.killed = s.killed := by
  have hlive := dataOf_eq_some he
  have hwriter := writeSocket_ne h hc hflag
  have hreading := reading_eq_false hread
  unfold fromCache
  simp only [Option.bind_eq_bind, Option.bind_some, he]
  by_cases hchanged : e.date < req.mtime ∨ req.stSize ≠ e.size
  · obtain ⟨g₁, g', l, hcache, hmodify, hl, hdata, hblock, hnext, hentries⟩ :=
      httpRefreshCache_spec h hlive req.mtime
    let s' : HttpSock := { s with
      cache := some ⟨none, 0, some a⟩, fileDesc := some ⟨req.content, req.start⟩
      filelength := toInt req.stSize
      readSocket := .httpCacheRead, disconnectedSocket := .httpCacheDisconnect }
    have hlink : s'.link = ⟨some ⟨none, 0, some a⟩, false, true, .httpCacheDisconnect⟩ :=
      congrArg (fun b => Link.mk (some ⟨none, 0, some a⟩) b true .httpCacheDisconnect) hflag
    have hsource : s'.source = req.version.source := req.source_eq hwhole
    refine ⟨g', s', ?_, (Effects.refl g s).tail (hrefresh hchanged) (.refresh (v := req.version)
      hflag hreading hlive hready hdata hblock hnext hlink hwriter rfl hfile hsource) ⟨l, hl⟩
      ⟨?_, hmode.sendFile⟩ hentries, rfl⟩
    · rw [if_pos hchanged]
      have hcache' : g.httpRefreshCache ⟨e.buffer, e.size, some a⟩ = _ := hcache
      simp only [hcache', Option.bind_some, hmodify]
      rfl
    · exact fun hsendfile => (not_flagSendfile hmode hread hsendfile).elim
  · obtain ⟨l, hl⟩ : ∃ l, Listed g l := h.listed
    obtain ⟨g', hmodify, hl', hdata, hblocks, hentries, -⟩ := hl.modify_spec hlive
      (fun e => { e with hits := e.hits + 1, usage := e.usage + 1 })
      (fun _ => ⟨rfl, rfl, rfl⟩) (fun _ => rfl)
    have hpath : ∀ s' : HttpSock, s'.Mode →
        s'.link = ⟨some ⟨e.buffer, e.size, some a⟩, true, false, s.disconnectedSocket⟩ →
        Effects K g s g' s' := by
      intro s' hmode' hlink
      exact (Effects.refl g s).tail hK (.hit hflag hreading hlive hready hdata hblocks hlink)
        ⟨l, hl'⟩ hmode' hentries
    have hlink : Link.mk (some ⟨e.buffer, e.size, some a⟩) true s.reading s.disconnectedSocket =
        ⟨some ⟨e.buffer, e.size, some a⟩, true, false, s.disconnectedSocket⟩ := by rw [hreading]
    rw [if_neg hchanged]
    simp only [hmodify, Option.bind_some]
    split
    · exact ⟨g', _, rfl, hpath _ ⟨hmode.null, nofun⟩ hlink, rfl⟩
    · exact ⟨g', _, rfl, hpath _ ⟨hmode.null, hmode.sendFile⟩ hlink, rfl⟩

include hK h hc hmode hread hflag in
theorem startTransfer_effects (cfg : HttpConfig) (req : GetRequest)
    (hload : req.delivery = .whole → K (.load req.version s.flagDone))
    (hrefresh : ∀ a, g.changed req = some a → K (.refresh a req.version s.flagDone)) :
    ∃ g' s', startTransfer cfg g s req = some (g', s') ∧ Effects K g s g' s' ∧
      s'.killed = s.killed := by
  obtain ⟨l, hl⟩ : ∃ l, Listed g l := h.listed
  unfold startTransfer lookup
  by_cases hwhole : req.delivery = .whole
  · rw [if_pos hwhole]
    rcases hl.httpCheckCache_spec req.file httpCacheReset with ⟨hcheck, hnew⟩ |
        ⟨a, e, g₁, l₁, he, hfile, hsame, hl₁, hcheck⟩
    · rw [hcheck]
      exact fromDisk_effects hK h hc hmode hread hflag cfg req .no hload
        (fun _ => ⟨hwhole, hnew⟩)
    -- the lookup has only reordered the list
    have hquiet : Effects Plain g s g₁ s := (Effects.refl g s).tail rfl
      (.quiet hsame.data ⟨hsame.block, hsame.nextBlock⟩ rfl (h.sockOk hc).writer (fun _ hd => hd) id
        (fun _ => rfl)) ⟨l₁, hl₁⟩ hmode hsame.entries
    have howned₁ : Owned (w.set c g₁ s) := noRefresh_plain.owned h hc hquiet
    have hquiet' : Effects K g s g₁ s := hquiet.mono (fun _ hk => hk ▸ hK)
    rw [hcheck, Option.bind_eq_bind, Option.bind_some]
    cases hready : e.ready with
    | false =>
      obtain ⟨g', s', hdisk, heffects, hkilled⟩ :=
        fromDisk_effects hK howned₁ hc hmode hread hflag cfg req .incomplete hload nofun
      exact ⟨g', s', hdisk, hquiet'.trans heffects, hkilled⟩
    | true =>
      obtain ⟨e₁, he₁, hunlinked⟩ := exists_of_dataOf (congrFun hsame.data a) he
      obtain ⟨hfile₁, hready₁, -, hbuffer, hsize⟩ := CacheEntry.fields_eq hunlinked
      have hdate : e₁.unlinked.date = e.unlinked.date := congrArg CacheEntry.date hunlinked
      change e₁.date = e.date at hdate
      have hchange : e₁.date < req.mtime ∨ req.stSize ≠ e₁.size →
          K (.refresh a req.version s.flagDone) := by
        intro hchanged
        apply hrefresh
        rw [Cache.changed, if_pos hwhole, hl.svzHashGet_eq_some_iff.mpr ⟨e, he, hfile⟩]
        rw [hdate, hsize] at hchanged
        simp [Option.filter, he, hready, hchanged]
      obtain ⟨g', s', hcache, heffects, hkilled⟩ := fromCache_effects hK howned₁ hc hmode hread
        hflag req he₁ (hready₁.trans hready) hwhole (hfile₁.trans hfile) hchange
      rw [hbuffer, hsize] at hcache
      exact ⟨g', s', hcache, hquiet'.trans heffects, hkilled⟩
  · rw [if_neg hwhole]
    exact fromDisk_effects hK h hc hmode hread hflag cfg req .inhibit hload nofun

end Starting

/-! ## The request -/

/-- The file of a request is sent. -/
def GetRequest.transfers (req : GetRequest) : Bool :=
  !req.notModified && req.delivery ≠ .invalid && !req.nofile

/-- What is in the receive buffer when bytes have arrived. -/
def HttpSock.received (cfg : HttpConfig) (s : HttpSock) (bytes : List UInt8) : List UInt8 :=
  s.recvBuffer ++ bytes.take (cfg.recvBufferSize - s.recvBuffer.length)

/-- The bytes complete a request. -/
def HttpSock.completes (cfg : HttpConfig) (s : HttpSock) (bytes : List UInt8) : Bool :=
  s.recvBuffer.length < cfg.recvBufferSize && bytes ≠ [] &&
    (requestLength (s.received cfg bytes)).isSome

/-- The effects that sending the file of a request can have are allowed. -/
structure Allows (K : Kind → Prop) (g : Cache) (s : HttpSock) (req : GetRequest) : Prop where
  flagCache : s.flagCache = false
  load : ∀ done, req.delivery = .whole → (done = true → s.flagDone = true) →
    K (.load req.version done)
  refresh : ∀ a done, g.changed req = some a → (done = true → s.flagDone = true) →
    K (.refresh a req.version done)

section Answering

variable (hK : K .plain) (h : Owned (w.set c g s)) (hc : c ∈ w.socks) (hmode : s.Mode)
  (hread : s.readSocket = .svzTcpReadSocket)

include h hc hmode in
theorem keepAlive_effects (s' : HttpSock) (hlink : s'.link = s.link)
    (hwriter : s'.writeSocket = s.writeSocket) (hdone : s'.flagDone = s.flagDone)
    (hkilled : s'.killed = s.killed) (hread : s'.readSocket = s.readSocket)
    (hsendfile : s'.flagSendfile = s.flagSendfile) (hsource : s'.source = s.source) :
    Effects Plain g s g s' := by
  refine Effects.quiet rfl h ⟨?_, ?_⟩ hlink ?_ ?_ ?_ (fun _ => hsource)
  · rw [hread, hsendfile]
    exact hmode.null
  · rw [hwriter, hsendfile]
    exact hmode.sendFile
  · intro hcache
    have hflag : s'.flagCache = s.flagCache := congrArg Link.flagCache hlink
    rw [hflag]
    exact (h.sockOk hc).writer (hwriter.symm.trans hcache)
  · exact fun _ hd => hdone.symm.trans hd
  · exact fun hdead => hkilled.trans hdead

theorem httpCheckKeepalive_eq (s : HttpSock) : ∃ n keep,
    httpCheckKeepalive s = { s with keepalive := n, flagKeep := keep } := by
  unfold httpCheckKeepalive
  split
  · exact ⟨_, _, rfl⟩
  · exact ⟨_, _, rfl⟩

include h hc hmode hread in
theorem sendHeader_spec (cfg : HttpConfig) (req : GetRequest) (flush : Flush) (flag : Bool) :
    ∃ g' s', sendHeader cfg g { s with flagKeep := flag } req flush = some (g', s') ∧
      Written Plain g s g' s' := by
  have hkeep : ∀ n keep, Effects Plain g s g { s with keepalive := n, flagKeep := keep } :=
    fun n keep => keepAlive_effects h hc hmode _ rfl rfl rfl rfl rfl rfl rfl
  unfold sendHeader
  split
  · exact ⟨g, _, rfl, hkeep s.keepalive flag, ⟨id, id, id, rfl⟩, fun _ => rfl⟩
  · obtain ⟨n, keep, hcheck⟩ := httpCheckKeepalive_eq { s with flagKeep := flag }
    obtain ⟨g', s', hwrite, hwritten⟩ := httpSendHeader_spec cfg plain_plain noRefresh_plain
      (noRefresh_plain.owned h hc (hkeep n keep)) hc ((hkeep n keep).mode hmode) hread req.header
      flush
    have hcalm := hwritten.calm
    refine ⟨g', s', ?_, (hkeep n keep).trans hwritten.effects, ⟨hcalm.readSocket, hcalm.flagCache,
      hcalm.flagDone, hcalm.killed⟩, hwritten.cache⟩
    rw [hcheck]
    exact hwrite

include hK h hc hmode hread in
theorem httpGetResponse_effects (cfg : HttpConfig) (req : GetRequest) (flush : Flush)
    (hallows : req.transfers = true → Allows K g s req) :
    ∃ g' s', httpGetResponse cfg g s req flush = some (g', s') ∧ Effects K g s g' s' ∧
      s'.killed = s.killed := by
  have hplain : ∀ {g₁ s₁ g₂ s₂}, Effects Plain g₁ s₁ g₂ s₂ → Effects K g₁ s₁ g₂ s₂ :=
    fun heffects => heffects.mono (fun _ hk => hk ▸ hK)
  have hkeep : ∀ n keep, Effects Plain g s g { s with keepalive := n, flagKeep := keep } :=
    fun n keep => keepAlive_effects h hc hmode _ rfl rfl rfl rfl rfl rfl rfl
  unfold httpGetResponse
  simp only
  split
  · obtain ⟨n, keep, hcheck⟩ :=
      httpCheckKeepalive_eq { s with flagKeep := s.flagKeep || req.keepAlive }
    have howned := noRefresh_plain.owned h hc (hkeep n keep)
    have hmode₁ := (hkeep n keep).mode hmode
    obtain ⟨g', s', hheader, hwritten⟩ :=
      httpSendHeader_spec cfg plain_plain noRefresh_plain howned hc hmode₁ hread req.header flush
    refine ⟨g', { s' with flagDone := true }, ?_, hplain ((hkeep n keep).trans
      (done_effects plain_plain howned hc hmode₁ hread noRefresh_plain hwritten)),
      hwritten.calm.killed⟩
    rw [hcheck]
    exact congrArg (Option.map _) hheader
  split
  · have hkept := hkeep s.keepalive (s.flagKeep || req.keepAlive)
    obtain ⟨g', s', hresponse, heffects, hkilled⟩ := httpErrorResponse_spec cfg plain_plain
      noRefresh_plain (noRefresh_plain.owned h hc hkept) hc (hkept.mode hmode) hread req.header
      flush
    exact ⟨g', s', hresponse, hplain (hkept.trans heffects), hkilled⟩
  · next hmodified hvalid =>
    obtain ⟨g₁, s₁, hheader, hwritten⟩ :=
      sendHeader_spec h hc hmode hread cfg req flush (s.flagKeep || req.keepAlive)
    have howned₁ := noRefresh_plain.owned h hc hwritten.effects
    have hmode₁ := hwritten.effects.mode hmode
    have hread₁ := hwritten.calm.readSocket hread
    rw [hheader, Option.bind_eq_bind, Option.bind_some]
    simp only
    split
    · exact ⟨g₁, _, rfl, hplain (done_effects plain_plain h hc hmode hread noRefresh_plain
        hwritten), hwritten.calm.killed⟩
    · next hfile =>
      have htransfers : req.transfers = true := by
        simp [GetRequest.transfers, hmodified, hvalid, hfile]
      have hallowed := hallows htransfers
      have hsame := hwritten.cache hallowed.flagCache
      subst hsame
      have hdone : s₁.flagDone = true → s.flagDone = true := by
        intro hdone₁
        by_contra hnot
        rw [hwritten.calm.flagDone (Bool.eq_false_iff.mpr hnot)] at hdone₁
        cases hdone₁
      obtain ⟨g', s', hstart, heffects, hkilled⟩ := startTransfer_effects hK howned₁ hc hmode₁
        hread₁ (hwritten.calm.flagCache hallowed.flagCache) cfg req
        (fun hwhole => hallowed.load _ hwhole hdone)
        (fun a ha => hallowed.refresh a _ ha hdone)
      exact ⟨g', s', hstart, (hplain hwritten.effects).trans heffects,
        hkilled.trans hwritten.calm.killed⟩

include hK h hc hmode hread in
theorem httpHandleRequest_effects (cfg : HttpConfig) (answer : Answer) (flush : Flush)
    (hget : ∀ req, answer = .get req → req.transfers = true → Allows K g s req) :
    ∃ g' s' died, httpHandleRequest cfg g s answer flush = some (g', s', died) ∧
      Effects K g s g' s' ∧ s'.killed = s.killed := by
  unfold httpHandleRequest
  cases answer with
  | get req =>
    obtain ⟨g', s', hresponse, heffects, hkilled⟩ := httpGetResponse_effects hK h hc hmode hread cfg
      req flush (hget req rfl)
    exact ⟨g', s', false, congrArg (Option.map _) hresponse, heffects, hkilled⟩
  | plain header =>
    obtain ⟨g', s', hresponse, heffects, hkilled⟩ :=
      httpErrorResponse_spec cfg plain_plain noRefresh_plain h hc hmode hread header flush
    exact ⟨g', s', false, congrArg (Option.map _) hresponse,
      heffects.mono (fun _ hk => hk ▸ hK), hkilled⟩
  | listing dir =>
    refine ⟨g, _, false, rfl, ?_, rfl⟩
    refine Effects.quiet hK h ⟨hmode.null, hmode.sendFile⟩ rfl (h.sockOk hc).writer ?_ id
      (fun _ => rfl)
    intro hreading
    exact absurd ((reading_eq_false hread).symm.trans hreading) nofun
  | malformed => exact ⟨g, s, true, rfl, .refl g s, rfl⟩

end Answering

/-- The bytes in the receive buffer do not concern the cache. -/
theorem World.Owned.buffered (h : Owned (w.set c g s)) (hc : c ∈ w.socks) (hmode : s.Mode)
    (buffer : List UInt8) : Effects Plain g s g { s with recvBuffer := buffer } :=
  keepAlive_effects h hc hmode _ rfl rfl rfl rfl rfl rfl rfl

theorem svzTcpReadSocket_ends (hK : K .plain) (h : Owned (w.set c g s)) (hc : c ∈ w.socks)
    (hmode : s.Mode) (hread : s.readSocket = .svzTcpReadSocket) (hkilled : s.killed = false)
    (hrefresh : ∀ a v done, K (.refresh a v done) → ∀ d ∈ w.socks, d ≠ c →
      (w.sock d).sends a = false)
    (cfg : HttpConfig) (bytes : List UInt8) (answer : Answer) (flush : Flush)
    (hget : ∀ req, answer = .get req → s.completes cfg bytes = true → req.transfers = true →
      Allows K g s req) :
    Ends K g s (svzTcpReadSocket cfg g s bytes answer flush) := by
  have hdead : ∀ {g₁ s₁}, Owned (w.set c g₁ s₁) → s₁.Mode → s₁.killed = false → ∀ died,
      Effects K g₁ s₁ g₁ { s₁ with killed := died } := by
    intro g₁ s₁ howned hmode₁ hkilled₁ died
    refine Effects.quiet hK howned ⟨hmode₁.null, hmode₁.sendFile⟩ rfl (howned.sockOk hc).writer
      (fun _ hd => hd) ?_ (fun _ => rfl)
    intro hd
    exact absurd (hkilled₁.symm.trans hd) nofun
  have hplain : ∀ {g₁ s₁ g₂ s₂}, Effects Plain g₁ s₁ g₂ s₂ → Effects K g₁ s₁ g₂ s₂ :=
    fun heffects => heffects.mono (fun _ hk => hk ▸ hK)
  unfold svzTcpReadSocket
  simp only
  split
  · exact ⟨g, s, true, rfl, hdead h hmode hkilled true⟩
  · next hroom =>
    have hbuffer := h.buffered hc hmode (s.received cfg bytes)
    have howned₁ := noRefresh_plain.owned h hc hbuffer
    have hmode₁ := hbuffer.mode hmode
    unfold httpCheckRequest
    split
    · refine ⟨g, _, false, rfl, (hplain hbuffer).trans (hdead howned₁ hmode₁ hkilled false)⟩
    · next len hlen =>
      have hcompletes : s.completes cfg bytes = true := by
        have hlen' : requestLength (s.received cfg bytes) = some len := hlen
        push Not at hroom
        simp only [HttpSock.completes, hlen', Bool.and_eq_true, decide_eq_true_eq]
        exact ⟨⟨by omega, hroom.2⟩, rfl⟩
      obtain ⟨g₂, s₂, died, hhandle, heffects, hkilled₂⟩ :=
        httpHandleRequest_effects hK howned₁ hc hmode₁ hread cfg answer flush
          (fun req hanswer htransfers => by
            have hallows := hget req hanswer hcompletes htransfers
            exact ⟨hallows.flagCache, hallows.load, hallows.refresh⟩)
      have hpath := (hplain hbuffer).trans heffects
      have howned₂ := Effects.owned h hc hrefresh hpath
      have hmode₂ := hpath.mode hmode
      have hhandle' := hhandle
      unfold HttpSock.received at hhandle'
      rw [hhandle', Option.bind_eq_bind, Option.bind_some]
      cases died with
      | true =>
        refine ⟨g₂, s₂, true, rfl, hpath.trans ?_⟩
        exact hdead howned₂ hmode₂ (hkilled₂.trans hkilled) true
      | false =>
        have hrest := howned₂.buffered hc hmode₂ (s₂.recvBuffer.drop len)
        refine ⟨g₂, _, false, rfl, (hpath.trans (hplain hrest)).trans ?_⟩
        exact hdead (noRefresh_plain.owned howned₂ hc hrest) (hrest.mode hmode₂)
          (hkilled₂.trans hkilled) false

end Serveez.Transfer
