import Serveez.Http.CacheOwners

/-!
# Connections that send an entry

* `Owned.hit`: a connection begins to send an entry.
* `Owned.advance`: it has sent some of it.
* `Owned.release`: it has done with it.
-/

namespace Serveez.Transfer

open Cache Lib World

variable {w : World} {c d : Nat} {g g' : Cache} {s s' : HttpSock}

theorem World.Owned.holds_entry {a : Addr} {e : CacheEntry}
    (he : dataOf w.cache.entry a = some e) :
    ∀ q, e.buffer = some q → w.Holds (.entry a) q.block :=
  fun q hq => ⟨e, q, he, hq, rfl⟩

theorem World.Owned.holds_reader (hc : c ∈ w.socks) (hreading : (w.sock c).reading = true)
    {k : HttpCache} (hk : (w.sock c).cache = some k) :
    ∀ q, k.buffer = some q → w.Holds (.reader c) q.block :=
  fun q hq => ⟨hc, hreading, k, q, hk, hq, rfl⟩

theorem World.Owned.quiet (h : Owned w) (hc : c ∈ w.socks)
    (hlisted : ∃ l, g'.Listed l) (hdata : dataOf g'.entry = dataOf w.cache.entry)
    (hblocks : SameBlocks w.cache g') (hlink : s'.link = (w.sock c).link)
    (hwriter : s'.writeSocket = .httpCacheWrite → s'.flagCache = true)
    (hkilled : (w.sock c).killed = true → s'.killed = true) : Owned (w.set c g' s') := by
  have hcache : s'.cache = (w.sock c).cache := congrArg Link.cache hlink
  have hflag : s'.flagCache = (w.sock c).flagCache := congrArg Link.flagCache hlink
  have hreading : s'.reading = (w.sock c).reading := congrArg Link.reading hlink
  have hdisc : s'.disconnectedSocket = (w.sock c).disconnectedSocket :=
    congrArg Link.disconnectedSocket hlink
  have hentry : s'.entry = (w.sock c).entry := by rw [HttpSock.entry, hcache, HttpSock.entry]
  have hsoft := Soft.of_data hdata hblocks
  have hok := hsoft.sockOk (h.socks c hc)
  refine h.soft hc hsoft hlisted ?_ ?_ ?_ ?_
  · refine ⟨?_, ?_, ?_, hwriter⟩
    · rw [hflag, hreading, hcache]
      exact hok.sending
    · rw [hreading, hdisc, hcache]
      intro hread
      obtain ⟨hd, k, hk, hbuffer, hcase⟩ := hok.filling hread
      refine ⟨hd, k, hk, hbuffer, hcase.imp (fun hreset => ⟨hreset.1, hkilled hreset.2⟩) id⟩
    · rw [hentry, hflag, hreading]
      exact hok.linked
  · intro a e' he'
    have hsends : s'.sends a = (w.sock c).sends a := by
      rw [HttpSock.sends, hflag, hentry, HttpSock.sends]
    rw [hdata] at he'
    rw [hsends, h.usage a e' he']
  · intro hread
    exact Or.inl ⟨hreading ▸ hread, hentry⟩
  · intro hread k p hk hp
    rw [hcache] at hk
    exact World.Owned.holds_reader hc (hreading ▸ hread) hk p hp

theorem World.Owned.advance (h : Owned w) (hc : c ∈ w.socks) {k : HttpCache} {n : Nat}
    (hflag : (w.sock c).flagCache = true) (hcache : (w.sock c).cache = some k)
    (hn : n ≤ k.size)
    (hlink : s'.link = { (w.sock c).link with cache := some (k.advance n) }) :
    Owned (w.set c w.cache s') := by
  have hcache' : s'.cache = some (k.advance n) := congrArg Link.cache hlink
  have hflag' : s'.flagCache = (w.sock c).flagCache := congrArg Link.flagCache hlink
  have hreading : s'.reading = (w.sock c).reading := congrArg Link.reading hlink
  obtain ⟨hnot, k₀, a, e, m, hk₀, hsend⟩ := (h.socks c hc).sending hflag
  rw [hcache, Option.some_inj] at hk₀
  subst hk₀
  have hentry : s'.entry = (w.sock c).entry := by
    rw [entry_eq_of_cache hcache', entry_eq_of_cache hcache]
    rfl
  have hnotReading : s'.reading = false := hreading.trans hnot
  refine h.soft hc (Soft.refl _) h.listed ?_ ?_ ?_ ?_
  · refine ⟨fun _ => ⟨hnotReading, _, a, e, m + n, hcache', ?_⟩, ?_, ?_, ?_⟩
    · have hsize := hsend.size
      have hle := hsend.le
      refine ⟨hsend.entry, hsend.live, hsend.ready, by omega, ?_, ?_⟩
      · change k.buffer.map (Ptr.shift n) = e.buffer.map (Ptr.shift (m + n))
        rw [hsend.buffer, Option.map_map]
        congr 1
        funext p
        simp only [Function.comp_apply, Ptr.shift, Nat.add_assoc]
      · change k.size - n = e.size - (m + n)
        omega
    · intro hread
      rw [hnotReading] at hread
      cases hread
    · intro b _
      exact Or.inl (hflag'.trans hflag)
    · exact fun _ => hflag'.trans hflag
  · intro b e' he'
    have hsends : s'.sends b = (w.sock c).sends b := by
      rw [HttpSock.sends, hflag', hentry, HttpSock.sends]
    rw [hsends, h.usage b e' he']
  · intro hread
    rw [hnotReading] at hread
    cases hread
  · intro hread
    rw [hnotReading] at hread
    cases hread

theorem SockOk.of_free (hentry : s.entry = none) (hflag : s.flagCache = false)
    (hreading : s.reading = false) (hwriter : s.writeSocket ≠ .httpCacheWrite) : SockOk g s where
  sending h := by rw [hflag] at h; cases h
  filling h := by rw [hreading] at h; cases h
  linked a h := by rw [hentry] at h; cases h
  writer h := absurd h hwriter

/-- The connection gives up its entry, and with it the cache stays as it is or the usage of the
entry goes down. -/
theorem World.Owned.free (h : Owned w) (hc : c ∈ w.socks) (hsoft : Soft w.cache g')
    (hlisted : ∃ l, g'.Listed l) (husage : UsageOk w c g' s') (hentry : s'.entry = none)
    (hflag : s'.flagCache = false) (hreading : s'.reading = false)
    (hwriter : s'.writeSocket ≠ .httpCacheWrite) : Owned (w.set c g' s') := by
  refine h.soft hc hsoft hlisted (SockOk.of_free hentry hflag hreading hwriter) husage ?_ ?_
  · intro hread
    rw [hreading] at hread
    cases hread
  · intro hread
    rw [hreading] at hread
    cases hread

/-- The usage stays what it is when the connection neither sends before nor after. -/
theorem usageOk_of_not_sending (hold : (w.sock c).flagCache = false)
    (hnew : s'.flagCache = false)
    (hcomes : ∀ a e', dataOf g'.entry a = some e' → e'.usage = w.senders a) :
    UsageOk w c g' s' := by
  intro a e' he'
  rw [sends_eq_false_of_flag hold, sends_eq_false_of_flag hnew, hcomes a e' he']

theorem World.Owned.release (h : Owned w) (hc : c ∈ w.socks) {k : HttpCache} {a : Addr}
    {e : CacheEntry} (hlisted : ∃ l, g'.Listed l) (hflag : (w.sock c).flagCache = true)
    (hcache : (w.sock c).cache = some k) (hentry : k.entry = some a)
    (he : dataOf w.cache.entry a = some e)
    (hdata : dataOf g'.entry =
      Function.update (dataOf w.cache.entry) a (some { e with usage := e.usage - 1 }))
    (hblocks : SameBlocks w.cache g')
    (hlink : s'.link = ⟨none, false, false, (w.sock c).disconnectedSocket⟩)
    (hwriter : s'.writeSocket ≠ .httpCacheWrite) : Owned (w.set c g' s') := by
  have hsoft : Soft w.cache g' := Soft.of_update he hdata hblocks ⟨rfl, rfl, rfl⟩
  have hcache' : s'.cache = none := congrArg Link.cache hlink
  have hflag' : s'.flagCache = false := congrArg Link.flagCache hlink
  have hentry' : s'.entry = none := by
    rw [HttpSock.entry, hcache']
    rfl
  refine h.free hc hsoft hlisted ?_ hentry' hflag' (congrArg Link.reading hlink) hwriter
  intro b e' he'
  rw [sends_eq_false_of_flag hflag']
  rw [hdata] at he'
  rcases update_eq_some_iff.mp he' with ⟨rfl, hnew⟩ | ⟨hba, hold⟩
  · have hsends : (w.sock c).sends b = true :=
      sends_eq_true_iff.mpr ⟨hflag, (entry_eq_of_cache hcache).trans hentry⟩
    have husage := h.usage b e he
    rw [Option.some_inj] at hnew
    subst hnew
    rw [hsends]
    simp only [Bool.toNat_true, Bool.toNat_false]
    omega
  · have hsends : (w.sock c).sends b = false := by
      rw [Bool.eq_false_iff]
      intro hs
      have hpoints := (sends_eq_true_iff.mp hs).2
      rw [entry_eq_of_cache hcache, hentry, Option.some_inj] at hpoints
      exact hba hpoints.symm
    rw [hsends, h.usage b e' hold]

theorem World.Owned.finish (h : Owned w) (hc : c ∈ w.socks)
    (hflag : (w.sock c).flagCache = false) {cache : Option HttpCache}
    (hnone : cache.bind HttpCache.entry = none)
    (hlink : s'.link = ⟨cache, false, false, (w.sock c).disconnectedSocket⟩)
    (hwriter : s'.writeSocket ≠ .httpCacheWrite) : Owned (w.set c w.cache s') := by
  have hcache : s'.cache = cache := congrArg Link.cache hlink
  have hflag' : s'.flagCache = false := congrArg Link.flagCache hlink
  refine h.free hc (Soft.refl _) h.listed ?_ ?_ hflag' (congrArg Link.reading hlink) hwriter
  · exact usageOk_of_not_sending hflag hflag' h.usage
  · rw [HttpSock.entry, hcache, hnone]

theorem World.Owned.hit (h : Owned w) (hc : c ∈ w.socks) {a : Addr} {e : CacheEntry}
    (hlisted : ∃ l, g'.Listed l) (hflag : (w.sock c).flagCache = false)
    (he : dataOf w.cache.entry a = some e) (hready : e.ready = true)
    (hdata : dataOf g'.entry = Function.update (dataOf w.cache.entry) a
      (some { e with hits := e.hits + 1, usage := e.usage + 1 }))
    (hblocks : SameBlocks w.cache g')
    (hlink : s'.link =
      ⟨some ⟨e.buffer, e.size, some a⟩, true, false, (w.sock c).disconnectedSocket⟩) :
    Owned (w.set c g' s') := by
  have hsoft : Soft w.cache g' := Soft.of_update he hdata hblocks ⟨rfl, rfl, rfl⟩
  have hcache' : s'.cache = _ := congrArg Link.cache hlink
  have hflag' : s'.flagCache = true := congrArg Link.flagCache hlink
  have hreading' : s'.reading = false := congrArg Link.reading hlink
  have hentry' : s'.entry = some a := entry_eq_of_cache hcache'
  refine h.soft hc hsoft hlisted ?_ ?_ ?_ ?_
  · refine ⟨fun _ => ⟨hreading', _, a, { e with hits := e.hits + 1, usage := e.usage + 1 }, 0,
      hcache', ⟨rfl, ?_, hready, Nat.zero_le _, ?_, ?_⟩⟩, ?_, fun _ _ => Or.inl hflag',
      fun _ => hflag'⟩
    · rw [hdata, Function.update_self]
    · change e.buffer = e.buffer.map (Ptr.shift 0)
      have hid : Ptr.shift 0 = id := rfl
      rw [hid, Option.map_id, id]
    · rfl
    · intro hread
      rw [hreading'] at hread
      cases hread
  · intro b e' he'
    rw [sends_eq_false_of_flag hflag]
    rw [hdata] at he'
    rcases update_eq_some_iff.mp he' with ⟨rfl, hnew⟩ | ⟨hba, hold⟩
    · have hsends : s'.sends b = true := sends_eq_true_iff.mpr ⟨hflag', hentry'⟩
      have husage := h.usage b e he
      rw [Option.some_inj] at hnew
      subst hnew
      rw [hsends]
      simp only [Bool.toNat_true, Bool.toNat_false]
      omega
    · have hsends : s'.sends b = false := by
        rw [Bool.eq_false_iff]
        intro hs
        have hpoints := (sends_eq_true_iff.mp hs).2
        rw [hentry', Option.some_inj] at hpoints
        exact hba hpoints.symm
      rw [hsends, h.usage b e' hold]
  · intro hread
    rw [hreading'] at hread
    cases hread
  · intro hread
    rw [hreading'] at hread
    cases hread

end Serveez.Transfer
