import Serveez.Http.CacheSending

/-!
# Connections that fill an entry

* `Owned.enter`, `Owned.evict`, `Owned.refresh`: a connection begins to fill an entry.
* `Owned.more`, `Owned.complete`: it has read some of the file, or all of it.
* `Owned.drop`, `Owned.abandon`: it gives up its entry.
* `Owned.effect`: every effect keeps the owners, if an entry is not refreshed while it is being
  sent.
* `Owned.remove`: so does the end of a connection that has given back its entry.
-/

namespace Serveez.Transfer

open Cache Lib World

variable {w : World} {c d : Nat} {g g' : Cache} {s s' : HttpSock}

variable {a : Addr} {e : CacheEntry} {k : HttpCache}

theorem SockOk.of_filling
    (hlink : s.link = ⟨some ⟨none, 0, some a⟩, false, true, .httpCacheDisconnect⟩)
    (hwriter : s.writeSocket ≠ .httpCacheWrite) (he : dataOf g.entry a = some e)
    (hready : e.ready = false) : SockOk g s where
  sending h := by
    have hflag : s.flagCache = false := congrArg Link.flagCache hlink
    rw [hflag] at h
    cases h
  filling _ := ⟨congrArg Link.disconnectedSocket hlink, _, congrArg Link.cache hlink,
    Or.inl ⟨rfl, rfl⟩, Or.inr ⟨a, e, rfl, he, hready⟩⟩
  linked _ _ := Or.inr (congrArg Link.reading hlink)
  writer h := absurd h hwriter

theorem World.Owned.enter (h : Owned w) (hc : c ∈ w.socks) (hlisted : ∃ l, g'.Listed l)
    (hflag : (w.sock c).flagCache = false) (he : dataOf w.cache.entry a = none)
    (hdata : dataOf g'.entry = Function.update (dataOf w.cache.entry) a (some e))
    (hready : e.ready = false) (hbuffer : e.buffer = none) (husage : e.usage = 0)
    (hblocks : SameBlocks w.cache g')
    (hlink : s'.link = ⟨some ⟨none, 0, some a⟩, false, true, .httpCacheDisconnect⟩)
    (hwriter : s'.writeSocket ≠ .httpCacheWrite) : Owned (w.set c g' s') := by
  have hcache' : s'.cache = _ := congrArg Link.cache hlink
  have hnobody : ∀ d ∈ w.socks, (w.sock d).entry ≠ some a := by
    intro d hd hpoints
    obtain ⟨f, hf, -⟩ := (h.socks d hd).entry_cases hpoints
    rw [he] at hf
    cases hf
  have hlive : dataOf g'.entry a = some e := by rw [hdata, Function.update_self]
  refine h.soft hc (Soft.of_enter he hdata hblocks hready hbuffer) hlisted
    (SockOk.of_filling hlink hwriter hlive hready) ?_ ?_ ?_
  · refine usageOk_of_not_sending hflag (congrArg Link.flagCache hlink) ?_
    intro b f hf
    rw [hdata] at hf
    rcases update_eq_some_iff.mp hf with ⟨rfl, hnew⟩ | ⟨-, hold⟩
    · have hzero : w.senders b = 0 := by
        refine List.countP_eq_zero.mpr ?_
        intro d hd hsends
        exact hnobody d hd (sends_eq_true_iff.mp hsends).2
      rw [← Option.some_inj.mp hnew, husage, hzero]
      rfl
    · exact h.usage b f hold
  · exact fun _ => Or.inr (Or.inr ⟨a, entry_eq_of_cache hcache', fun d hd _ => hnobody d hd⟩)
  · intro _ k p hk hp
    rw [hcache', Option.some_inj] at hk
    subst hk
    cases hp

/-- An entry leaves the cache or loses its buffer, and nobody else points to it. -/
theorem World.Owned.frame_of_gone (h : Owned w) {o : Holder} {p : Option Ptr}
    (hholds : ∀ q, p = some q → w.Holds o q.block) (hblock : g'.block = without w.cache.block p)
    (hdata : ∀ b, b ≠ a → dataOf g'.entry b = dataOf w.cache.entry b) (hd : d ∈ w.socks)
    (hnot : (w.sock d).entry ≠ some a) (hne : o ≠ .reader d) : SockOk g' (w.sock d) := by
  apply (h.socks d hd).frame
  · intro b f hpoints hf
    have hba : b ≠ a := fun hb => hnot (hb ▸ hpoints)
    exact ⟨f, (hdata b hba).trans hf, rfl, fun _ => ⟨rfl, rfl⟩⟩
  · intro hread k q hk hq
    rw [hblock]
    exact h.without_eq hholds (World.Owned.holds_reader hd hread hk q hq) hne.symm

/-- The other entries keep their buffers when one holder frees its own. -/
theorem World.Owned.entryOk_of_ne (h : Owned w) {o : Holder} {p : Option Ptr}
    (hholds : ∀ q, p = some q → w.Holds o q.block) (hblock : g'.block = without w.cache.block p)
    (he : dataOf w.cache.entry a = some e) (hne : o ≠ .entry a) :
    EntryOk g' e := by
  apply (h.entries a e he).congr
  intro q hq
  rw [hblock]
  exact h.without_eq hholds (World.Owned.holds_entry he q hq) hne.symm

theorem fresh_of_without (h : Owned w) {p : Option Ptr}
    (hblock : g'.block = without w.cache.block p) (hnext : g'.nextBlock = w.cache.nextBlock) :
    ∀ b x, g'.block b = some x → b < g'.nextBlock := by
  intro b x hx
  rw [hnext]
  rw [hblock] at hx
  cases p with
  | none => exact h.fresh b x hx
  | some q =>
    obtain ⟨-, hx⟩ := update_none_eq_some_iff.mp hx
    exact h.fresh b x hx

theorem World.Owned.refresh (h : Owned w) (hc : c ∈ w.socks) {e e' : CacheEntry}
    (hlisted : ∃ l, g'.Listed l) (hflag : (w.sock c).flagCache = false)
    (hidle : ∀ d ∈ w.socks, d ≠ c → (w.sock d).sends a = false)
    (he : dataOf w.cache.entry a = some e) (hready : e.ready = true)
    (hdata : dataOf g'.entry = Function.update (dataOf w.cache.entry) a (some e'))
    (hready' : e'.ready = false) (hbuffer' : e'.buffer = none) (husage' : e'.usage = 0)
    (hblock : g'.block = without w.cache.block e.buffer)
    (hnext : g'.nextBlock = w.cache.nextBlock)
    (hlink : s'.link = ⟨some ⟨none, 0, some a⟩, false, true, .httpCacheDisconnect⟩)
    (hwriter : s'.writeSocket ≠ .httpCacheWrite) : Owned (w.set c g' s') := by
  have hcache' : s'.cache = _ := congrArg Link.cache hlink
  have hsends : ∀ d ∈ w.socks, (w.sock d).sends a = false := by
    intro d hd
    by_cases hdc : d = c
    · exact hdc ▸ sends_eq_false_of_flag hflag
    · exact hidle d hd hdc
  have hnobody : ∀ d ∈ w.socks, (w.sock d).entry ≠ some a := by
    intro d hd hpoints
    obtain ⟨f, hf, hcase⟩ := (h.socks d hd).entry_cases hpoints
    rw [he, Option.some_inj] at hf
    subst hf
    rcases hcase with ⟨-, hs⟩ | ⟨hnot, -⟩
    · rw [hsends d hd] at hs
      cases hs
    · rw [hready] at hnot
      cases hnot
  have hholds := World.Owned.holds_entry (w := w) he
  have hother : ∀ b, b ≠ a → dataOf g'.entry b = dataOf w.cache.entry b := by
    intro b hb
    rw [hdata, Function.update_of_ne hb]
  refine h.change hc hlisted ?_ ?_ ?_ ?_ ?_ ?_ (fresh_of_without h hblock hnext)
  · intro b f hf
    rw [hdata] at hf
    rcases update_eq_some_iff.mp hf with ⟨-, hnew⟩ | ⟨hba, hold⟩
    · rw [← Option.some_inj.mp hnew, EntryOk, if_neg (by rw [hready']; decide)]
      exact hbuffer'
    · exact h.entryOk_of_ne hholds hblock hold (fun heq => hba (Holder.entry.inj heq).symm)
  · exact SockOk.of_filling hlink hwriter (by rw [hdata, Function.update_self]) hready'
  · intro d hd _
    exact h.frame_of_gone hholds hblock hother hd (hnobody d hd) (Holder.entry_ne_reader a d)
  · refine usageOk_of_not_sending hflag (congrArg Link.flagCache hlink) ?_
    intro b f hf
    rw [hdata] at hf
    rcases update_eq_some_iff.mp hf with ⟨rfl, hnew⟩ | ⟨-, hold⟩
    · have hzero : w.senders b = 0 := by
        refine List.countP_eq_zero.mpr ?_
        intro d hd
        rw [hsends d hd]
        decide
      rw [← Option.some_inj.mp hnew, husage', hzero]
      rfl
    · exact h.usage b f hold
  · exact fun _ => Or.inr (Or.inr ⟨a, entry_eq_of_cache hcache', fun d hd _ => hnobody d hd⟩)
  · apply h.owner_of_imp
    apply holds_of_set
    · intro _ k p hk hp
      rw [hcache', Option.some_inj] at hk
      subst hk
      cases hp
    · intro b f p hf hp
      rw [hdata] at hf
      rcases update_eq_some_iff.mp hf with ⟨-, hnew⟩ | ⟨-, hold⟩
      · rw [← Option.some_inj.mp hnew, hbuffer'] at hp
        cases hp
      · exact World.Owned.holds_entry hold p hp

theorem World.Owned.evict (h : Owned w) (hc : c ∈ w.socks) (hlisted : ∃ l, g'.Listed l)
    (he : dataOf w.cache.entry a = some e) (hready : e.ready = true) (husage : e.usage = 0)
    (hdata : dataOf g'.entry = Function.update (dataOf w.cache.entry) a none)
    (hblock : g'.block = without w.cache.block e.buffer)
    (hnext : g'.nextBlock = w.cache.nextBlock) : Owned (w.set c g' (w.sock c)) := by
  have hnobody : ∀ d ∈ w.socks, (w.sock d).entry ≠ some a := by
    intro d hd hpoints
    obtain ⟨f, hf, hcase⟩ := (h.socks d hd).entry_cases hpoints
    rw [he, Option.some_inj] at hf
    subst hf
    rcases hcase with ⟨-, hs⟩ | ⟨hnot, -⟩
    · have hpos := h.senders_pos hd he hs
      omega
    · rw [hready] at hnot
      cases hnot
  have hholds := World.Owned.holds_entry (w := w) he
  have hold : ∀ b f, dataOf g'.entry b = some f → b ≠ a ∧ dataOf w.cache.entry b = some f := by
    intro b f hf
    rw [hdata] at hf
    exact update_none_eq_some_iff.mp hf
  have hframe : ∀ d ∈ w.socks, SockOk g' (w.sock d) := by
    intro d hd
    refine h.frame_of_gone hholds hblock ?_ hd (hnobody d hd) (Holder.entry_ne_reader a d)
    intro b hb
    rw [hdata, Function.update_of_ne hb]
  refine h.change hc hlisted ?_ (hframe c hc) (fun d hd _ => hframe d hd) ?_ ?_ ?_
    (fresh_of_without h hblock hnext)
  · intro b f hf
    obtain ⟨hba, hf⟩ := hold b f hf
    exact h.entryOk_of_ne hholds hblock hf (fun heq => hba (Holder.entry.inj heq).symm)
  · intro b f hf
    rw [h.usage b f (hold b f hf).2]
  · exact fun hread => Or.inl ⟨hread, rfl⟩
  · apply h.owner_of_imp
    apply holds_of_set
    · exact fun hread k p hk hp => World.Owned.holds_reader hc hread hk p hp
    · exact fun b f p hf hp => World.Owned.holds_entry (hold b f hf).2 p hp

/-- Nobody but its reader points to an entry that is being filled. -/
theorem World.Owned.sole_reader (h : Owned w) (hc : c ∈ w.socks)
    (hreading : (w.sock c).reading = true) (hpoints : (w.sock c).entry = some a)
    (he : dataOf w.cache.entry a = some e) (hready : e.ready = false) :
    ∀ d ∈ w.socks, d ≠ c → (w.sock d).entry ≠ some a := by
  intro d hd hdc hpd
  obtain ⟨f, hf, hcase⟩ := (h.socks d hd).entry_cases hpd
  rw [he, Option.some_inj] at hf
  subst hf
  rcases hcase with ⟨hnot, -⟩ | ⟨-, hread⟩
  · rw [hready] at hnot
    cases hnot
  · exact hdc (h.eq_of_reading hc hd hreading hread hpoints hpd)

/-- What `SockOk` says of a connection that fills a known entry. -/
theorem World.Owned.filling_entry (h : Owned w) (hc : c ∈ w.socks)
    (hreading : (w.sock c).reading = true) (hcache : (w.sock c).cache = some k)
    (hentry : k.entry = some a) :
    BufferOk w.cache k.buffer k.size ∧ ∃ e, dataOf w.cache.entry a = some e ∧ e.ready = false := by
  obtain ⟨-, k', hk', hbuffer, hcase⟩ := (h.socks c hc).filling hreading
  rw [hcache, Option.some_inj] at hk'
  subst hk'
  refine ⟨hbuffer, ?_⟩
  rcases hcase with ⟨rfl, -⟩ | ⟨a', e, hfill⟩
  · cases hentry
  · have haa : a' = a := Option.some_inj.mp (hfill.entry.symm.trans hentry)
    exact ⟨e, haa ▸ hfill.live, hfill.ready⟩

theorem World.Owned.drop (h : Owned w) (hc : c ∈ w.socks) (hlisted : ∃ l, g'.Listed l)
    (hreading : (w.sock c).reading = true) (hcache : (w.sock c).cache = some k)
    (hentry : k.entry = some a) (he : dataOf w.cache.entry a = some e) (hready : e.ready = false)
    (hdata : dataOf g'.entry = Function.update (dataOf w.cache.entry) a none)
    (hblock : g'.block = without w.cache.block k.buffer)
    (hnext : g'.nextBlock = w.cache.nextBlock)
    (hlink : s'.link = ⟨some httpCacheReset, false, false, (w.sock c).disconnectedSocket⟩)
    (hwriter : s'.writeSocket ≠ .httpCacheWrite) : Owned (w.set c g' s') := by
  have hcache' : s'.cache = some httpCacheReset := congrArg Link.cache hlink
  have hflag' : s'.flagCache = false := congrArg Link.flagCache hlink
  have hreading' : s'.reading = false := congrArg Link.reading hlink
  have hnot := h.sole_reader hc hreading ((entry_eq_of_cache hcache).trans hentry) he hready
  have hholds := World.Owned.holds_reader hc hreading hcache
  have hold : ∀ b f, dataOf g'.entry b = some f → b ≠ a ∧ dataOf w.cache.entry b = some f := by
    intro b f hf
    rw [hdata] at hf
    exact update_none_eq_some_iff.mp hf
  refine h.change hc hlisted ?_ ?_ ?_ ?_ ?_ ?_ (fresh_of_without h hblock hnext)
  · intro b f hf
    exact h.entryOk_of_ne hholds hblock (hold b f hf).2 (Holder.entry_ne_reader _ c).symm
  · exact SockOk.of_free (entry_eq_of_cache hcache') hflag' hreading' hwriter
  · intro d hd hdc
    refine h.frame_of_gone hholds hblock ?_ hd (hnot d hd hdc)
      (fun heq => hdc (Holder.reader.inj heq).symm)
    intro b hb
    rw [hdata, Function.update_of_ne hb]
  · refine usageOk_of_not_sending ((h.socks c hc).flagCache_eq_false hreading) hflag' ?_
    exact fun b f hf => h.usage b f (hold b f hf).2
  · intro hread
    rw [hreading'] at hread
    cases hread
  · apply h.owner_of_imp
    apply holds_of_set
    · intro hread
      rw [hreading'] at hread
      cases hread
    · exact fun b f p hf hp => World.Owned.holds_entry (hold b f hf).2 p hp

theorem World.Owned.abandon (h : Owned w) (hc : c ∈ w.socks) (hlisted : ∃ l, g'.Listed l)
    (hreading : (w.sock c).reading = true) (hcache : (w.sock c).cache = some k)
    (hdata : dataOf g'.entry = dataOf w.cache.entry)
    (hblock : g'.block = without w.cache.block k.buffer)
    (hnext : g'.nextBlock = w.cache.nextBlock)
    (hlink : s'.link = { (w.sock c).link with cache := some httpCacheReset })
    (hwriter : s'.writeSocket = (w.sock c).writeSocket) (hkilled : s'.killed = true) :
    Owned (w.set c g' s') := by
  have hcache' : s'.cache = some httpCacheReset := congrArg Link.cache hlink
  have hflag := (h.socks c hc).flagCache_eq_false hreading
  have hflag' : s'.flagCache = false := (congrArg Link.flagCache hlink).trans hflag
  have hdisc' : s'.disconnectedSocket = (w.sock c).disconnectedSocket :=
    congrArg Link.disconnectedSocket hlink
  have hholds := World.Owned.holds_reader hc hreading hcache
  refine h.change hc hlisted ?_ ?_ ?_ ?_ ?_ ?_ (fresh_of_without h hblock hnext)
  · intro b f hf
    rw [hdata] at hf
    exact h.entryOk_of_ne hholds hblock hf (Holder.entry_ne_reader _ c).symm
  · exact (h.socks c hc).reset hreading hflag' hdisc' hcache' hwriter fun _ => hkilled
  · intro d hd hdc
    apply (h.socks d hd).frame
    · intro b f _ hf
      exact ⟨f, (congrFun hdata b).trans hf, rfl, fun _ => ⟨rfl, rfl⟩⟩
    · intro hread k' q hk' hq
      rw [hblock]
      refine h.without_eq hholds (World.Owned.holds_reader hd hread hk' q hq) ?_
      exact fun heq => hdc (Holder.reader.inj heq)
  · refine usageOk_of_not_sending hflag hflag' ?_
    intro b f hf
    rw [hdata] at hf
    exact h.usage b f hf
  · exact fun _ => Or.inr (Or.inl (entry_eq_of_cache hcache'))
  · apply h.owner_of_imp
    apply holds_of_set
    · intro _ k' p hk' hp
      rw [hcache', Option.some_inj] at hk'
      subst hk'
      cases hp
    · intro b f p hf hp
      rw [hdata] at hf
      exact World.Owned.holds_entry hf p hp

theorem World.Owned.more (h : Owned w) (hc : c ∈ w.socks) {bytes old : List UInt8}
    (hlisted : ∃ l, g'.Listed l) (hreading : (w.sock c).reading = true)
    (hcache : (w.sock c).cache = some k) (hkilled : (w.sock c).killed = false)
    (hdata : dataOf g'.entry = dataOf w.cache.entry)
    (hold : ∀ p, k.buffer = some p → w.cache.block p.block = some old)
    (hnone : k.buffer = none → old = [])
    (hblock : g'.block = Function.update (without w.cache.block k.buffer) w.cache.nextBlock
      (some (old ++ bytes))) (hnext : g'.nextBlock = w.cache.nextBlock + 1)
    (hlink : s'.link = { (w.sock c).link with cache := some { k with
      buffer := some ⟨w.cache.nextBlock, 0⟩, size := k.size + bytes.length } })
    (hwriter : s'.writeSocket = (w.sock c).writeSocket) : Owned (w.set c g' s') := by
  have hcache' := congrArg Link.cache hlink
  change s'.cache = some _ at hcache'
  have hflag := (h.socks c hc).flagCache_eq_false hreading
  have hflag' : s'.flagCache = false := (congrArg Link.flagCache hlink).trans hflag
  have hreading' : s'.reading = true := (congrArg Link.reading hlink).trans hreading
  have hdisc' : s'.disconnectedSocket = (w.sock c).disconnectedSocket :=
    congrArg Link.disconnectedSocket hlink
  have hentry' : s'.entry = (w.sock c).entry := by
    rw [entry_eq_of_cache hcache', entry_eq_of_cache hcache]
  obtain ⟨hdisc, k', hk', hbuffer, hcase⟩ := (h.socks c hc).filling hreading
  rw [hcache, Option.some_inj] at hk'
  subst hk'
  have hholds := World.Owned.holds_reader hc hreading hcache
  -- blocks of other holders are neither the old block of the connection nor the new one
  have hkeep : ∀ o b, w.Holds o b → o ≠ .reader c → g'.block b = w.cache.block b := by
    intro o b ho hne
    obtain ⟨x, hx⟩ := h.live_of_holds ho
    rw [hblock, Function.update_of_ne (Nat.ne_of_lt (h.fresh b x hx))]
    exact h.without_eq hholds ho hne
  have hlen : old.length = k.size := by
    rcases hbuffer with ⟨hp, hsize⟩ | ⟨b, x, hp, hx, hsize⟩
    · rw [hnone hp, hsize]
      rfl
    · have hsame := hold _ hp
      rw [hx, Option.some_inj] at hsame
      exact hsame ▸ hsize
  refine h.change hc hlisted ?_ ?_ ?_ ?_ ?_ ?_ ?_
  · intro a e he
    rw [hdata] at he
    apply (h.entries a e he).congr
    exact fun q hq => hkeep _ _ (World.Owned.holds_entry he q hq) (Holder.entry_ne_reader a c)
  · refine ⟨?_, ?_, fun _ _ => Or.inr hreading', ?_⟩
    · intro hf
      rw [hflag'] at hf
      cases hf
    · intro _
      refine ⟨hdisc'.trans hdisc, _, hcache', Or.inr ⟨_, old ++ bytes, rfl, ?_, ?_⟩, ?_⟩
      · rw [hblock, Function.update_self]
      · rw [List.length_append, hlen]
      · rcases hcase with ⟨-, hdead⟩ | ⟨a, e, hfill⟩
        · rw [hkilled] at hdead
          cases hdead
        · exact Or.inr ⟨a, e, hfill.entry, (congrFun hdata a).trans hfill.live, hfill.ready⟩
    · rw [hwriter, hflag', ← hflag]
      exact (h.socks c hc).writer
  · intro d hd hdc
    apply (h.socks d hd).frame
    · intro b f _ hf
      exact ⟨f, (congrFun hdata b).trans hf, rfl, fun _ => ⟨rfl, rfl⟩⟩
    · intro hread k' q hk' hq
      exact hkeep _ _ (World.Owned.holds_reader hd hread hk' q hq)
        (fun heq => hdc (Holder.reader.inj heq))
  · refine usageOk_of_not_sending hflag hflag' ?_
    intro b f hf
    rw [hdata] at hf
    exact h.usage b f hf
  · exact fun _ => Or.inl ⟨hreading, hentry'⟩
  · -- the new block is owned by the connection
    obtain ⟨owner, howner⟩ := h.owner
    refine ⟨Function.update owner w.cache.nextBlock (.reader c), ?_⟩
    have hfrom : ∀ o b, w.Holds o b →
        Function.update owner w.cache.nextBlock (.reader c) b = o := by
      intro o b ho
      obtain ⟨x, hx⟩ := h.live_of_holds ho
      rw [Function.update_of_ne (Nat.ne_of_lt (h.fresh b x hx))]
      exact howner o b ho
    intro o b ho
    cases o with
    | entry a =>
      obtain ⟨e, p, he, hp, rfl⟩ := ho
      change dataOf g'.entry a = some e at he
      rw [hdata] at he
      exact hfrom _ _ (World.Owned.holds_entry he p hp)
    | reader d =>
      obtain ⟨hd, hread, k', p, hk', hp, rfl⟩ := ho
      by_cases hdc : d = c
      · subst hdc
        rw [set_sock_self, hcache', Option.some_inj] at hk'
        subst hk'
        rw [← Option.some_inj.mp hp]
        exact Function.update_self _ _ _
      · rw [set_sock_of_ne w g' s' hdc] at hread hk'
        exact hfrom _ _ (World.Owned.holds_reader (w := w) hd hread hk' p hp)
  · intro b x hx
    rw [hnext]
    rw [hblock] at hx
    rcases update_eq_some_iff.mp hx with ⟨hb, -⟩ | ⟨-, hx⟩
    · exact hb ▸ Nat.lt_succ_self _
    · refine Nat.lt_succ_of_lt (h.fresh b x ?_)
      cases hp : k.buffer with
      | none => rwa [hp] at hx
      | some q =>
        rw [hp] at hx
        exact (update_none_eq_some_iff.mp hx).2

theorem World.Owned.complete (h : Owned w) (hc : c ∈ w.socks) (hlisted : ∃ l, g'.Listed l)
    (hreading : (w.sock c).reading = true) (hcache : (w.sock c).cache = some k)
    (hentry : k.entry = some a) (he : dataOf w.cache.entry a = some e)
    (hdata : dataOf g'.entry = Function.update (dataOf w.cache.entry) a
      (some { e with size := k.size, buffer := k.buffer, ready := true }))
    (hblocks : SameBlocks w.cache g') (hlink : s'.link =
      { (w.sock c).link with cache := some httpCacheReset, reading := s'.reading })
    (hwriter : s'.writeSocket = (w.sock c).writeSocket)
    (hend : s'.reading = true → s'.killed = true) : Owned (w.set c g' s') := by
  have hcache' : s'.cache = some httpCacheReset := congrArg Link.cache hlink
  have hflag := (h.socks c hc).flagCache_eq_false hreading
  have hflag' : s'.flagCache = false := (congrArg Link.flagCache hlink).trans hflag
  have hdisc' : s'.disconnectedSocket = (w.sock c).disconnectedSocket :=
    congrArg Link.disconnectedSocket hlink
  have hpoints : (w.sock c).entry = some a := (entry_eq_of_cache hcache).trans hentry
  obtain ⟨hbuffer, e₀, he₀, hready⟩ := h.filling_entry hc hreading hcache hentry
  rw [he, Option.some_inj] at he₀
  subst he₀
  have hnot := h.sole_reader hc hreading hpoints he hready
  have hblock : ∀ b, g'.block b = w.cache.block b := fun b => congrFun hblocks.block b
  refine h.change hc hlisted ?_ ?_ ?_ ?_ ?_ ?_ ?_
  · intro b f hf
    rw [hdata] at hf
    rcases update_eq_some_iff.mp hf with ⟨-, hnew⟩ | ⟨-, hold⟩
    · rw [← Option.some_inj.mp hnew, EntryOk, if_pos rfl]
      exact hbuffer.congr (fun q _ => hblock q.block)
    · exact (h.entries b f hold).congr (fun q _ => hblock q.block)
  · exact (h.socks c hc).reset hreading hflag' hdisc' hcache' hwriter hend
  · intro d hd hdc
    apply (h.socks d hd).frame
    · intro b f hb hf
      have hba : b ≠ a := fun heq => hnot d hd hdc (heq ▸ hb)
      refine ⟨f, ?_, rfl, fun _ => ⟨rfl, rfl⟩⟩
      rw [hdata, Function.update_of_ne hba]
      exact hf
    · exact fun _ _ q _ _ => hblock q.block
  · refine usageOk_of_not_sending hflag hflag' ?_
    intro b f hf
    rw [hdata] at hf
    rcases update_eq_some_iff.mp hf with ⟨rfl, hnew⟩ | ⟨-, hold⟩
    · rw [← Option.some_inj.mp hnew]
      exact h.usage b e he
    · exact h.usage b f hold
  · exact fun _ => Or.inr (Or.inl (entry_eq_of_cache hcache'))
  · -- the buffer of the connection is the entry's from now on
    obtain ⟨owner, howner⟩ := h.owner
    refine ⟨fun b => if owner b = .reader c then .entry a else owner b, ?_⟩
    have hfrom : ∀ o b, w.Holds o b → o ≠ .reader c →
        (if owner b = .reader c then .entry a else owner b) = o := by
      intro o b ho hne
      have hb := howner o b ho
      rw [if_neg (by rw [hb]; exact hne), hb]
    intro o b ho
    cases o with
    | entry a' =>
      obtain ⟨f, p, hf, hp, rfl⟩ := ho
      change dataOf g'.entry a' = some f at hf
      rw [hdata] at hf
      rcases update_eq_some_iff.mp hf with ⟨rfl, hnew⟩ | ⟨-, hold⟩
      · rw [← Option.some_inj.mp hnew] at hp
        exact if_pos (howner _ _ (World.Owned.holds_reader hc hreading hcache p hp))
      · exact hfrom _ _ (World.Owned.holds_entry hold p hp) (Holder.entry_ne_reader a' c)
    | reader d =>
      obtain ⟨hd, hread, k', p, hk', hp, rfl⟩ := ho
      by_cases hdc : d = c
      · subst hdc
        rw [set_sock_self, hcache', Option.some_inj] at hk'
        subst hk'
        cases hp
      · rw [set_sock_of_ne w g' s' hdc] at hread hk'
        exact hfrom _ _ (World.Owned.holds_reader (w := w) hd hread hk' p hp)
          (fun heq => hdc (Holder.reader.inj heq))
  · intro b x hx
    rw [hblocks.nextBlock]
    rw [hblock b] at hx
    exact h.fresh b x hx

/-- **Every effect keeps the owners**, unless an entry is refreshed that is being sent. -/
theorem World.Owned.effect (h : Owned w) (hc : c ∈ w.socks) {kind : Kind}
    (heffect : Effect kind w.cache (w.sock c) g' s') (hlisted : ∃ l, g'.Listed l)
    (hrefresh : ∀ a v done, kind = .refresh a v done → ∀ d ∈ w.socks, d ≠ c →
      (w.sock d).sends a = false) :
    Owned (w.set c g' s') := by
  cases heffect with
  | quiet hdata hblocks hlink hwriter _ hdead =>
    exact h.quiet hc hlisted hdata hblocks hlink hwriter hdead
  | change hlink hwriter _ hdead =>
    refine h.quiet hc hlisted rfl ⟨rfl, rfl⟩ hlink ?_ (fun hd => hdead.trans hd)
    intro hcache
    have hflag : s'.flagCache = (w.sock c).flagCache := congrArg Link.flagCache hlink
    exact hflag.trans ((h.socks c hc).writer (hwriter.symm.trans hcache))
  | advance hflag hcache hn hlink => exact h.advance hc hflag hcache hn hlink
  | release hflag hcache hentry he hdata hblocks hlink hwriter =>
    exact h.release hc hlisted hflag hcache hentry he hdata hblocks hlink hwriter
  | finish hflag hlink hwriter => exact h.finish hc hflag rfl hlink hwriter
  | hit hflag _ he hready hdata hblocks hlink =>
    exact h.hit hc hlisted hflag he hready hdata hblocks hlink
  | miss hflag _ hlink hwriter => exact h.finish hc hflag rfl hlink hwriter
  | refresh hflag _ he hready hdata hblock hnext hlink hwriter =>
    exact h.refresh hc hlisted hflag (hrefresh _ _ _ rfl) he hready hdata rfl rfl rfl hblock hnext
      hlink hwriter
  | evict he hready husage hdata hblock hnext =>
    exact h.evict hc hlisted he hready husage hdata hblock hnext
  | enter hflag _ he hdata hblocks hlink hwriter =>
    exact h.enter hc hlisted hflag he hdata rfl rfl rfl hblocks hlink hwriter
  | more hreading hcache hkilled hdata hold hnone hblock hnext hlink hwriter =>
    exact h.more hc hlisted hreading hcache hkilled hdata hold hnone hblock hnext hlink hwriter
  | complete hreading hcache hentry he hdata hblocks hlink hwriter hend =>
    exact h.complete hc hlisted hreading hcache hentry he hdata hblocks hlink hwriter
      (fun hread => (hend hread).1)
  | abandon hreading hcache hdata hblock hnext hlink hwriter _ hdead =>
    exact h.abandon hc hlisted hreading hcache hdata hblock hnext hlink hwriter hdead
  | drop hreading hcache hentry he hready hdata hblock hnext hlink hwriter =>
    exact h.drop hc hlisted hreading hcache hentry he hready hdata hblock hnext hlink hwriter

theorem set_set (w : World) (c : Nat) (g₁ g₂ : Cache) (s₁ s₂ : HttpSock) :
    (w.set c g₁ s₁).set c g₂ s₂ = w.set c g₂ s₂ := by
  simp only [World.set, Function.update_idem]

theorem set_self (w : World) (c : Nat) : w.set c w.cache (w.sock c) = w := by
  simp only [World.set, Function.update_eq_self]

/-- The rule for a sequence of effects: what every effect keeps in an owned world is kept. -/
theorem World.Owned.effects_invariant {K : Kind → Prop} {I : World → Prop} (h : Owned w)
    (hI : I w) (hc : c ∈ w.socks)
    (hrefresh : ∀ a v done, K (.refresh a v done) → ∀ d ∈ w.socks, d ≠ c →
      (w.sock d).sends a = false)
    (hkeep : ∀ k g₁ s₁ g₂ s₂, K k → Owned (w.set c g₁ s₁) → I (w.set c g₁ s₁) →
      Effect k g₁ s₁ g₂ s₂ → Owned (w.set c g₂ s₂) → I (w.set c g₂ s₂))
    (heffects : Effects K w.cache (w.sock c) g' s') :
    Owned (w.set c g' s') ∧ I (w.set c g' s') := by
  induction heffects with
  | refl =>
    rw [set_self]
    exact ⟨h, hI⟩
  | @tail g₁ s₁ g₂ s₂ k _ hk heffect hlisted _ _ ih =>
    obtain ⟨howned, hinv⟩ := ih
    have hsock : (w.set c g₁ s₁).sock c = s₁ := set_sock_self w c g₁ s₁
    have hnext : Owned ((w.set c g₁ s₁).set c g₂ s₂) := by
      refine World.Owned.effect howned hc (?_ : Effect k _ _ _ _) hlisted ?_
      · rw [hsock]
        exact heffect
      · rintro a v done rfl d hd hdc
        rw [set_sock_of_ne w g₁ s₁ hdc]
        exact hrefresh a v done hk d hd hdc
    rw [set_set] at hnext
    exact ⟨hnext, hkeep k g₁ s₁ g₂ s₂ hk howned hinv heffect hnext⟩

theorem World.Owned.effects {K : Kind → Prop} (h : Owned w) (hc : c ∈ w.socks)
    (hrefresh : ∀ a v done, K (.refresh a v done) → ∀ d ∈ w.socks, d ≠ c →
      (w.sock d).sends a = false)
    (heffects : Effects K w.cache (w.sock c) g' s') : Owned (w.set c g' s') :=
  (h.effects_invariant (I := fun _ => True) trivial hc hrefresh
    (fun _ _ _ _ _ _ _ _ _ _ => trivial) heffects).1

theorem World.Owned.connect (h : Owned w) (hc : c ∉ w.socks) (hentry : s.entry = none)
    (hflag : s.flagCache = false) (hreading : s.reading = false)
    (hwriter : s.writeSocket ≠ .httpCacheWrite) :
    Owned { w with socks := c :: w.socks, sock := Function.update w.sock c s } := by
  have hold : ∀ d ∈ w.socks, Function.update w.sock c s d = w.sock d := by
    intro d hd
    refine Function.update_of_ne ?_ _ _
    rintro rfl
    exact hc hd
  have hnew : Function.update w.sock c s c = s := Function.update_self _ _ _
  have hnot : ¬ (Function.update w.sock c s c).reading = true := by
    rw [hnew, hreading]
    exact Bool.noConfusion
  constructor
  · exact h.listed
  · exact List.nodup_cons.mpr ⟨hc, h.nodup⟩
  · exact h.entries
  · intro d hd
    rcases List.mem_cons.mp hd with rfl | hd
    · change SockOk w.cache (Function.update w.sock d s d)
      rw [hnew]
      exact SockOk.of_free hentry hflag hreading hwriter
    · change SockOk w.cache (Function.update w.sock c s d)
      rw [hold d hd]
      exact h.socks d hd
  · intro a e he
    rw [h.usage a e he]
    change _ = (((c :: w.socks).countP fun d => (Function.update w.sock c s d).sends a : Nat) : Int)
    rw [List.countP_cons, hnew, sends_eq_false_of_flag hflag]
    congr 1
    apply List.countP_congr
    intro d hd
    rw [hold d hd]
  · obtain ⟨reader, hreader⟩ := h.reader
    refine ⟨reader, ?_⟩
    intro d hd hread
    rcases List.mem_cons.mp hd with rfl | hd
    · exact absurd hread hnot
    · change (Function.update w.sock c s d).reading = true at hread
      change ∀ a, (Function.update w.sock c s d).entry = some a → _
      rw [hold d hd] at hread ⊢
      exact hreader d hd hread
  · obtain ⟨owner, howner⟩ := h.owner
    refine ⟨owner, ?_⟩
    intro o b ho
    apply howner
    cases o with
    | entry a => exact ho
    | reader d =>
      obtain ⟨hd, hread, k, p, hk, hp, hb⟩ := ho
      rcases List.mem_cons.mp hd with rfl | hd
      · exact absurd hread hnot
      · change (Function.update w.sock c s d).reading = true at hread
        change (Function.update w.sock c s d).cache = some k at hk
        rw [hold d hd] at hread hk
        exact ⟨hd, hread, k, p, hk, hp, hb⟩
  · exact h.fresh

/-- The end of a connection that has no tie to the cache any more. -/
theorem World.Owned.remove (h : Owned (w.set c g' s')) (hc : c ∈ w.socks)
    (hflag : s'.flagCache = false) :
    Owned { w with cache := g', socks := w.socks.erase c } := by
  have hnodup : w.socks.Nodup := h.nodup
  have hmem : ∀ d, d ∈ w.socks.erase c → d ∈ w.socks ∧ (w.set c g' s').sock d = w.sock d := by
    intro d hd
    obtain ⟨hdc, hd⟩ := hnodup.mem_erase_iff.mp hd
    exact ⟨hd, set_sock_of_ne w g' s' hdc⟩
  constructor
  · exact h.listed
  · exact hnodup.erase c
  · exact h.entries
  · intro d hd
    obtain ⟨hdw, hsock⟩ := hmem d hd
    exact hsock ▸ h.socks d hdw
  · intro a e he
    rw [h.usage a e he]
    have hcount : (w.set c g' s').senders a =
        (w.socks.erase c).countP fun d => ((w.set c g' s').sock d).sends a := by
      have hperm := List.perm_cons_erase hc
      change w.socks.countP _ = _
      rw [hperm.countP_eq, List.countP_cons, set_sock_self, sends_eq_false_of_flag hflag]
      rfl
    rw [hcount]
    congr 1
    apply List.countP_congr
    intro d hd
    rw [(hmem d hd).2]
  · obtain ⟨reader, hold⟩ := h.reader
    refine ⟨reader, ?_⟩
    intro d hd
    obtain ⟨hdw, hsock⟩ := hmem d hd
    exact hsock ▸ hold d hdw
  · obtain ⟨owner, hold⟩ := h.owner
    refine ⟨owner, ?_⟩
    intro o b ho
    apply hold
    cases o with
    | entry a => exact ho
    | reader d =>
      obtain ⟨hd, hread, k, p, hk, hp, hb⟩ := ho
      obtain ⟨hdw, hsock⟩ := hmem d hd
      refine ⟨hdw, ?_, k, p, ?_, hp, hb⟩
      · rw [hsock]
        exact hread
      · rw [hsock]
        exact hk
  · exact h.fresh

end Serveez.Transfer
