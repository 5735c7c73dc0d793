import Serveez.Http.CacheRuns

/-!
# The contents of the cache

The contents of a file on the disk are a function `disk` of its name and its date. As long as an
open file does not change, the bytes of a ready entry are those of its file, and a connection that
fills an entry has copied what it has read.

* `Effect.block_eq`: an effect leaves the buffers of others alone.
* `faithful_step`: a step keeps the contents of the cache.
-/

namespace Serveez.Transfer

open Cache Lib World

variable {cfg : HttpConfig} {w w' : World} {c d : Nat} {g g' : Cache} {s s' : HttpSock}
  {kind : Kind} {disk : FileName → Int → List UInt8}

/-! ## Buffers -/

/-- The bytes a pointer of the cache points to. -/
def Cache.contents (g : Cache) (p : Option Ptr) : List UInt8 := (p.bind g.bytesAt).getD []

theorem contents_congr {p : Option Ptr}
    (hblock : ∀ q, p = some q → g'.block q.block = g.block q.block) :
    g'.contents p = g.contents p := by
  cases p with
  | none => rfl
  | some q =>
    change ((g'.block q.block).map _).getD [] = ((g.block q.block).map _).getD []
    rw [hblock q rfl]

theorem contents_start {b : Nat} {x : List UInt8} (hx : g.block b = some x) :
    g.contents (some ⟨b, 0⟩) = x := by
  change ((g.block b).map _).getD [] = x
  rw [hx]
  rfl

/-- **The buffers of others** are not touched: whoever holds a buffer before an effect and after
it, apart from the connection itself, holds the same bytes. -/
theorem Effect.block_eq (h : Owned (w.set c g s)) (hc : c ∈ w.socks)
    (heffect : Effect kind g s g' s') {o : Holder} {b : Nat} (hne : o ≠ .reader c)
    (hbefore : (w.set c g s).Holds o b) (hafter : (w.set c g' s').Holds o b) :
    g'.block b = g.block b := by
  have hsock : (w.set c g s).sock c = s := set_sock_self w c g s
  -- the buffer of an entry that has none any more
  have hentry : ∀ {a : Addr} {e : CacheEntry} {f : Option CacheEntry},
      dataOf g.entry a = some e → dataOf g'.entry = Function.update (dataOf g.entry) a f →
      (∀ x, f = some x → x.buffer = none) → without g.block e.buffer b = g.block b := by
    intro a e f he hdata hnone
    refine h.without_eq (o := .entry a) (Owned.holds_entry he) hbefore ?_
    rintro rfl
    obtain ⟨e', p, he', hp, -⟩ := hafter
    change dataOf g'.entry a = some e' at he'
    rw [hdata, Function.update_self] at he'
    exact absurd ((hnone e' he').symm.trans hp) nofun
  have hreader : ∀ {k : HttpCache}, s.reading = true → s.cache = some k →
      without g.block k.buffer b = g.block b := by
    intro k hreading hk
    have hholds : ∀ q, k.buffer = some q → (w.set c g s).Holds (.reader c) q.block :=
      Owned.holds_reader (w := w.set c g s) hc (by rwa [hsock]) (by rwa [hsock])
    exact h.without_eq hholds hbefore hne
  cases heffect with
  | quiet _ hblocks => exact congrFun hblocks.block b
  | change => rfl
  | advance => rfl
  | release _ _ _ _ _ hblocks => exact congrFun hblocks.block b
  | finish => rfl
  | hit _ _ _ _ _ hblocks => exact congrFun hblocks.block b
  | miss => rfl
  | refresh _ _ he _ hdata hblock =>
    rw [hblock]
    refine hentry he hdata ?_
    rintro x ⟨⟩
    rfl
  | evict he _ _ hdata hblock =>
    rw [hblock]
    exact hentry he hdata fun x hx => by cases hx
  | enter _ _ _ _ hblocks => exact congrFun hblocks.block b
  | more hreading hcache _ _ _ _ hblock =>
    obtain ⟨x, hx⟩ := h.live_of_holds hbefore
    have hfresh : b ≠ g.nextBlock := Nat.ne_of_lt (h.fresh b x hx)
    rw [hblock, Function.update_of_ne hfresh]
    exact hreader hreading hcache
  | complete _ _ _ _ _ hblocks => exact congrFun hblocks.block b
  | abandon hreading hcache _ hblock =>
    rw [hblock]
    exact hreader hreading hcache
  | drop hreading hcache _ _ _ _ hblock =>
    rw [hblock]
    exact hreader hreading hcache

/-! ## Contents -/

/-- The connection has copied what it has read of a file with this content. -/
def Copied (g : Cache) (s : HttpSock) (k : HttpCache) (content : List UInt8) : Prop :=
  ∃ pos ≤ content.length, s.source = (some ⟨content, pos⟩, (content.length : Int) - pos) ∧
    g.contents k.buffer = content.take pos

structure World.Faithful (disk : FileName → Int → List UInt8) (w : World) : Prop where
  ready : ∀ a e, dataOf w.cache.entry a = some e → e.ready = true →
    w.cache.contents e.buffer = disk e.file e.date
  filling : ∀ c ∈ w.socks, (w.sock c).reading = true → ∀ k a e, (w.sock c).cache = some k →
    k.entry = some a → dataOf w.cache.entry a = some e →
    Copied w.cache (w.sock c) k (disk e.file e.date)

/-- What is known of the contents of an entry stays. -/
def SameFile (e e' : CacheEntry) : Prop :=
  e'.ready = e.ready ∧ e'.buffer = e.buffer ∧ e'.file = e.file ∧ e'.date = e.date

/-- The file of a version is the one on the disk, and not too large. -/
def Version.OnDisk (disk : FileName → Int → List UInt8) (v : Version) : Prop :=
  v.content = disk v.file v.date ∧ v.content.length < 2 ^ 31

theorem World.Owned.not_ready (h : Owned w) (hc : c ∈ w.socks)
    (hreading : (w.sock c).reading = true) {a : Addr} {e : CacheEntry}
    (hentry : (w.sock c).entry = some a) (he : dataOf w.cache.entry a = some e) :
    e.ready = false := by
  obtain ⟨f, hf, ⟨-, hsends⟩ | ⟨hready, -⟩⟩ := (h.socks c hc).entry_cases hentry
  · have hflag := (sends_eq_true_iff.mp hsends).1
    exact absurd ((h.socks c hc).flagCache_eq_false hreading ▸ hflag) Bool.noConfusion
  · rw [he, Option.some_inj] at hf
    exact hf ▸ hready

/-- What an effect of the connection `c` has to tell: the entries that change are those it fills
or has filled. -/
theorem World.Faithful.set (hc : c ∈ w.socks) (howned : Owned (w.set c g s))
    (howned' : Owned (w.set c g' s')) (h : Faithful disk (w.set c g s))
    (heffect : Effect kind g s g' s')
    (hentries : ∀ a e', dataOf g'.entry a = some e' →
      (∃ e, dataOf g.entry a = some e ∧ SameFile e e') ∨
        (s'.reading = true ∧ s'.entry = some a) ∨
        e'.ready = true ∧ g'.contents e'.buffer = disk e'.file e'.date)
    (hself : s'.reading = true → ∀ k a e', s'.cache = some k → k.entry = some a →
      dataOf g'.entry a = some e' → Copied g' s' k (disk e'.file e'.date)) :
    Faithful disk (w.set c g' s') where
  ready a e' he' hready' := by
    rcases hentries a e' he' with ⟨e, he, hready, hbuffer, hfile, hdate⟩ |
        ⟨hreading, hentry⟩ | ⟨-, hcontents⟩
    · have hold := h.ready a e he (hready.symm.trans hready')
      rw [hfile, hdate, ← hold, hbuffer]
      apply contents_congr
      intro q hq
      have hbefore : (w.set c g s).Holds (.entry a) q.block := Owned.holds_entry he q hq
      have hafter : (w.set c g' s').Holds (.entry a) q.block :=
        Owned.holds_entry he' q (hbuffer.trans hq)
      exact heffect.block_eq howned hc Holder.noConfusion hbefore hafter
    · have hnot := howned'.not_ready hc (by rwa [set_sock_self]) (by rwa [set_sock_self]) he'
      exact absurd (hnot.symm.trans hready') nofun
    · exact hcontents
  filling d hd hreading k a e' hk hka he' := by
    by_cases hdc : d = c
    · subst hdc
      rw [set_sock_self] at hreading hk ⊢
      exact hself hreading k a e' hk hka he'
    have hpoints := (entry_eq_of_cache hk).trans hka
    have hnot := howned'.not_ready hd hreading hpoints he'
    rcases hentries a e' he' with ⟨e, he, hready, hbuffer, hfile, hdate⟩ |
        ⟨hreading', hentry'⟩ | ⟨hready', -⟩
    · have hsock := set_sock_of_ne w g s hdc
      have hsock' := set_sock_of_ne w g' s' hdc
      have hreading₀ := hreading
      have hk₀ := hk
      rw [hsock', ← hsock] at hreading₀ hk₀
      obtain ⟨pos, hpos, hsource, hcontents⟩ := h.filling d hd hreading₀ k a e hk₀ hka he
      rw [hfile, hdate, hsock', ← hsock]
      refine ⟨pos, hpos, hsource, ?_⟩
      rw [← hcontents]
      apply contents_congr
      intro q hq
      have hbefore : (w.set c g s).Holds (.reader d) q.block :=
        Owned.holds_reader (w := w.set c g s) hd hreading₀ hk₀ q hq
      have hafter : (w.set c g' s').Holds (.reader d) q.block :=
        Owned.holds_reader (w := w.set c g' s') hd hreading hk q hq
      exact heffect.block_eq howned hc (fun heq => hdc (Holder.reader.inj heq)) hbefore hafter
    · refine absurd (howned'.eq_of_reading hc hd ?_ hreading ?_ hpoints) hdc
      · rwa [set_sock_self]
      · rwa [set_sock_self]
    · exact absurd (hnot.symm.trans hready') nofun

theorem SameFile.refl (e : CacheEntry) : SameFile e e := ⟨rfl, rfl, rfl, rfl⟩

/-- The entries are the same. -/
theorem sameFile_of_data (hdata : dataOf g'.entry = dataOf g.entry) {a : Addr} {e' : CacheEntry}
    (he' : dataOf g'.entry a = some e') : ∃ e, dataOf g.entry a = some e ∧ SameFile e e' :=
  ⟨e', (congrFun hdata a).symm.trans he', .refl e'⟩

theorem sameFile_or_of_update {a b : Addr} {e' : CacheEntry} {f : Option CacheEntry}
    (hdata : dataOf g'.entry = Function.update (dataOf g.entry) a f)
    (he' : dataOf g'.entry b = some e') :
    (∃ e, dataOf g.entry b = some e ∧ SameFile e e') ∨ b = a ∧ f = some e' := by
  rw [hdata] at he'
  rcases update_eq_some_iff.mp he' with ⟨rfl, hnew⟩ | ⟨-, hold⟩
  · exact Or.inr ⟨rfl, hnew⟩
  · exact Or.inl ⟨e', hold, .refl e'⟩

theorem sameFile_of_update {a b : Addr} {e e₁ e' : CacheEntry} (he : dataOf g.entry a = some e)
    (hdata : dataOf g'.entry = Function.update (dataOf g.entry) a (some e₁))
    (hsame : SameFile e e₁) (he' : dataOf g'.entry b = some e') :
    ∃ e, dataOf g.entry b = some e ∧ SameFile e e' := by
  rcases sameFile_or_of_update hdata he' with hold | ⟨rfl, hnew⟩
  · exact hold
  · obtain rfl := Option.some.inj hnew
    exact ⟨e, he, hsame⟩

/-- A connection begins to read a file. -/
theorem Copied.start {v : Version} {a : Addr} {k : HttpCache} (hv : v.OnDisk disk)
    (hsource : s.source = v.source) (hk : s.cache = some ⟨none, 0, some a⟩)
    (hk' : s.cache = some k) : Copied g s k (disk v.file v.date) := by
  rw [hk, Option.some_inj] at hk'
  subst hk'
  rw [← hv.1]
  refine ⟨0, Nat.zero_le _, ?_, rfl⟩
  have hlength : toInt v.content.length = v.content.length := by
    have hsmall := hv.2
    unfold toInt
    rw [Int.bmod_eq_of_le] <;> omega
  rw [hsource, Version.source, hlength, Int.natCast_zero, Int.sub_zero]

theorem Copied.more {k : HttpCache} {content old bytes : List UInt8} {file : OpenFile} {n : Nat}
    {p : Option Ptr} (h : Copied g s k content) (hbuffer : BufferOk g k.buffer k.size)
    (hold : ∀ p, k.buffer = some p → g.block p.block = some old)
    (hnone : k.buffer = none → old = []) (hfile : s.fileDesc = some file)
    (hbytes : bytes = (file.content.drop file.pos).take n)
    (hsource : s'.source = (s.readChunk file bytes).source)
    (hp : g'.contents p = old ++ bytes) (m : Nat) (a : Option Addr) :
    Copied g' s' ⟨p, m, a⟩ content := by
  obtain ⟨pos, hpos, hsource₀, hcontents⟩ := h
  have hdesc : s.fileDesc = some ⟨content, pos⟩ := congrArg Prod.fst hsource₀
  have hlength : s.filelength = (content.length : Int) - pos := congrArg Prod.snd hsource₀
  rw [hfile, Option.some_inj] at hdesc
  subst hdesc
  have hbytes : bytes = (content.drop pos).take n := hbytes
  have hcopy : old = content.take pos := by
    rw [← hcontents]
    rcases hbuffer with ⟨hk, -⟩ | ⟨b, x, hk, hx, -⟩
    · rw [hk, hnone hk]
      rfl
    · rw [hk, contents_start hx]
      exact (Option.some_inj.mp ((hold _ hk).symm.trans hx))
  have hlen : bytes.length = min n (content.length - pos) := by
    rw [hbytes, List.length_take, List.length_drop]
  refine ⟨pos + bytes.length, by omega, ?_, ?_⟩
  · rw [hsource, HttpSock.source, HttpSock.readChunk]
    simp only [hlength, Prod.mk.injEq, true_and]
    omega
  · rw [hp, hcopy, List.take_add, hlen]
    rw [hbytes, List.append_cancel_left_eq, List.take_eq_take_iff, List.length_drop]
    omega

theorem faithful_effect (hc : c ∈ w.socks) (howned : Owned (w.set c g s))
    (howned' : Owned (w.set c g' s')) (h : Faithful disk (w.set c g s))
    (hchange : kind ≠ .change) (hload : ∀ v done, kind = .load v done → v.OnDisk disk)
    (hrefresh : ∀ a v done, kind = .refresh a v done → v.OnDisk disk)
    (heffect : Effect kind g s g' s') : Faithful disk (w.set c g' s') := by
  have hok : SockOk g s := howned.sockOk hc
  have hfilling : s.reading = true → ∀ k a e, s.cache = some k → k.entry = some a →
      dataOf g.entry a = some e → Copied g s k (disk e.file e.date) := by
    have hself := h.filling c hc
    rwa [set_sock_self] at hself
  have hset := World.Faithful.set hc howned howned' h heffect
  -- the connection begins to fill an entry
  have hbegin : ∀ {a : Addr} {e : CacheEntry} {v : Version},
      dataOf g'.entry = Function.update (dataOf g.entry) a (some e) → e.file = v.file →
      e.date = v.date → s'.link = ⟨some ⟨none, 0, some a⟩, false, true, .httpCacheDisconnect⟩ →
      s'.source = v.source → v.OnDisk disk → Faithful disk (w.set c g' s') := by
    intro a e v hdata hfile hdate hlink hsource hv
    have hcache : s'.cache = some ⟨none, 0, some a⟩ := congrArg Link.cache hlink
    refine hset ?_ ?_
    · intro b e' he'
      rcases sameFile_or_of_update hdata he' with hold | ⟨rfl, -⟩
      · exact Or.inl hold
      · exact Or.inr (Or.inl ⟨congrArg Link.reading hlink, entry_eq_of_cache hcache⟩)
    · intro _ k b e' hk hkb he'
      obtain rfl : a = b := by
        rw [hcache, Option.some_inj] at hk
        subst hk
        exact Option.some_inj.mp hkb
      rw [hdata, Function.update_self, Option.some_inj] at he'
      subst he'
      rw [hfile, hdate]
      exact Copied.start hv hsource hcache hk
  -- the connection does not fill an entry afterwards
  have hnot : ∀ {P : Prop}, s'.reading = false → s'.reading = true → P :=
    fun hfalse htrue => absurd (hfalse.symm.trans htrue) Bool.noConfusion
  cases heffect with
  | quiet hdata hblocks hlink _ _ _ hsource =>
    have hcache : s'.cache = s.cache := congrArg Link.cache hlink
    have hreading : s'.reading = s.reading := congrArg Link.reading hlink
    refine hset (fun a e' he' => Or.inl (sameFile_of_data hdata he')) ?_
    intro hread k a e' hk hka he'
    have hread := hreading.symm.trans hread
    obtain ⟨pos, hpos, hsource₀, hcontents⟩ := hfilling hread k a e' (hcache.symm.trans hk) hka
      ((congrFun hdata a).symm.trans he')
    refine ⟨pos, hpos, (hsource hread).trans hsource₀, ?_⟩
    rw [← hcontents]
    exact contents_congr fun q _ => congrFun hblocks.block q.block
  | change => exact absurd rfl hchange
  | advance hflag _ _ hlink =>
    have hreading : s'.reading = s.reading := congrArg Link.reading hlink
    exact hset (fun a e' he' => Or.inl (sameFile_of_data rfl he'))
      (hnot (hreading.trans (hok.sending hflag).1))
  | release _ _ _ he hdata _ hlink =>
    refine hset ?_ (hnot (congrArg Link.reading hlink))
    exact fun b e' he' => Or.inl (sameFile_of_update he hdata ⟨rfl, rfl, rfl, rfl⟩ he')
  | finish _ hlink =>
    exact hset (fun a e' he' => Or.inl (sameFile_of_data rfl he'))
      (hnot (congrArg Link.reading hlink))
  | hit _ _ he _ hdata _ hlink =>
    refine hset ?_ (hnot (congrArg Link.reading hlink))
    exact fun b e' he' => Or.inl (sameFile_of_update he hdata ⟨rfl, rfl, rfl, rfl⟩ he')
  | miss _ _ hlink =>
    exact hset (fun a e' he' => Or.inl (sameFile_of_data rfl he'))
      (hnot (congrArg Link.reading hlink))
  | refresh _ _ _ _ hdata _ _ hlink _ _ hfile hsource =>
    exact hbegin hdata hfile rfl hlink hsource (hrefresh _ _ _ rfl)
  | @evict _ _ _ a e he hready _ hdata hblock _ =>
    refine hset ?_ ?_
    · intro b e' he'
      rcases sameFile_or_of_update hdata he' with hold | ⟨-, hnew⟩
      · exact Or.inl hold
      · cases hnew
    · intro hread k b e' hk hkb he'
      rw [hdata] at he'
      obtain ⟨-, he₀⟩ := update_none_eq_some_iff.mp he'
      obtain ⟨pos, hpos, hsource, hcontents⟩ := hfilling hread k b e' hk hkb he₀
      refine ⟨pos, hpos, hsource, ?_⟩
      rw [← hcontents]
      apply contents_congr
      intro q hq
      have hholds : (w.set c g s).Holds (.reader c) q.block :=
        Owned.holds_reader (w := w.set c g s) hc (by rwa [set_sock_self]) (by rwa [set_sock_self])
          q hq
      rw [hblock]
      exact howned.without_eq (o := .entry a) (Owned.holds_entry he) hholds Holder.noConfusion
  | enter _ _ _ hdata _ hlink _ _ hsource =>
    exact hbegin hdata rfl rfl hlink hsource (hload _ _ rfl)
  | @more _ _ _ _ k₀ old bytes file n hreading hcache _ hdata hold hnone hblock hnext hlink _ _
      hfile hbytes hsource =>
    have hcache' := congrArg Link.cache hlink
    refine hset (fun a e' he' => Or.inl (sameFile_of_data hdata he')) ?_
    intro _ k a e' hk hka he'
    obtain rfl := Option.some_inj.mp (hcache'.symm.trans hk)
    obtain ⟨-, k₁, hk₁, hbuffer, -⟩ := hok.filling hreading
    obtain rfl : k₀ = k₁ := Option.some_inj.mp (hcache.symm.trans hk₁)
    have hcopied := hfilling hreading k₀ a e' hcache hka ((congrFun hdata a).symm.trans he')
    have hnew : g'.contents (some ⟨g.nextBlock, 0⟩) = old ++ bytes := by
      apply contents_start
      rw [hblock, Function.update_self]
    exact hcopied.more hbuffer hold hnone hfile hbytes hsource hnew _ _
  | @complete _ _ _ _ k a e file hreading hcache hentry he hdata hblocks hlink _ _ hfile hwhole =>
    have hcache' : s'.cache = some httpCacheReset := congrArg Link.cache hlink
    obtain ⟨pos, hpos, hsource, hcontents⟩ := hfilling hreading k a e hcache hentry he
    have hdesc : s.fileDesc = some _ := congrArg Prod.fst hsource
    have hlength : s.filelength = _ := congrArg Prod.snd hsource
    rw [hfile, Option.some_inj] at hdesc
    subst hdesc
    refine hset ?_ ?_
    · intro b e' he'
      rcases sameFile_or_of_update hdata he' with hold | ⟨rfl, hnew⟩
      · exact Or.inl hold
      · rw [Option.some_inj] at hnew
        subst hnew
        refine Or.inr (Or.inr ⟨rfl, ?_⟩)
        change g'.contents k.buffer = disk e.file e.date
        rw [contents_congr fun q _ => congrFun hblocks.block q.block, hcontents]
        apply List.take_of_length_le
        simp only at hwhole
        omega
    · intro _ k' b e' hk' hkb
      rw [hcache', Option.some_inj] at hk'
      subst hk'
      cases hkb
  | abandon _ _ hdata _ _ hlink =>
    have hcache' : s'.cache = some httpCacheReset := congrArg Link.cache hlink
    refine hset (fun a e' he' => Or.inl (sameFile_of_data hdata he')) ?_
    intro _ k' b e' hk' hkb
    rw [hcache', Option.some_inj] at hk'
    subst hk'
    cases hkb
  | drop _ _ _ _ _ hdata _ _ hlink =>
    refine hset ?_ (hnot (congrArg Link.reading hlink))
    intro b e' he'
    rcases sameFile_or_of_update hdata he' with hold | ⟨-, hnew⟩
    · exact Or.inl hold
    · cases hnew

/-! ## Steps -/

theorem faithful_connect (h : Faithful disk w) (hc : c ∉ w.socks) : Faithful disk { w with
    socks := c :: w.socks, sock := Function.update w.sock c (httpConnectSocket cfg) } where
  ready := h.ready
  filling d hd := by
    change (Function.update w.sock c (httpConnectSocket cfg) d).reading = true →
      ∀ k a e, (Function.update w.sock c (httpConnectSocket cfg) d).cache = some k → _ → _ →
        Copied w.cache (Function.update w.sock c (httpConnectSocket cfg) d) k _
    rcases List.mem_cons.mp hd with rfl | hmem
    · rw [Function.update_self]
      nofun
    · have hdc : d ≠ c := fun heq => hc (heq ▸ hmem)
      rw [Function.update_of_ne hdc]
      exact h.filling d hmem

theorem faithful_remove (hnodup : w.socks.Nodup) (h : Faithful disk (w.set c g' s')) :
    Faithful disk { w with cache := g', socks := w.socks.erase c } where
  ready := h.ready
  filling d hd := by
    obtain ⟨hdc, hd⟩ := hnodup.mem_erase_iff.mp hd
    have hsock := h.filling d hd
    rwa [set_sock_of_ne w g' s' hdc] at hsock

theorem delivery_of_changed {req : GetRequest} {a : Addr} (h : g.changed req = some a) :
    req.delivery = .whole := by
  by_contra hpart
  rw [Cache.changed, if_neg hpart] at h
  cases h

/-- **A step keeps the contents of the cache**, if the files that are sent are on the disk. -/
theorem faithful_step {event : Event} (hgood : Good w) (h : Faithful disk w)
    (hcareful : w.Careful cfg event) (hchange : ∀ c content, event ≠ .change c content)
    (hdisk : ∀ p ∈ w.transfer cfg event, p.2.delivery = .whole → p.2.version.OnDisk disk)
    (hstep : Stepped cfg (w.kinds cfg event) event.conn w w') : Good w' ∧ Faithful disk w' := by
  refine hstep.keep hgood h (refresh_unshared hcareful) ?_ (faithful_connect h)
    (fun _ _ _ hset _ _ => faithful_remove hgood.owned.nodup hset)
  intro hc k g₁ s₁ g₂ s₂ hk howned hI heffect howned'
  refine faithful_effect hc howned howned' hI ?_ ?_ ?_ heffect
  · rintro rfl
    obtain ⟨c, content, hevent⟩ := hk
    exact hchange c content hevent
  · rintro v done rfl
    obtain ⟨c, req, hreq, rfl, hwhole, -⟩ := hk
    exact hdisk (c, req) hreq hwhole
  · rintro a v done rfl
    obtain ⟨c, req, hreq, hchanged, rfl, -⟩ := hk
    exact hdisk (c, req) hreq (delivery_of_changed hchanged)

theorem World.Owned.holds_sending (h : Owned w) (hd : d ∈ w.socks)
    (hflag : (w.sock d).flagCache = true) {k : HttpCache} (hk : (w.sock d).cache = some k)
    {q : Ptr} (hq : k.buffer = some q) :
    ∃ a, k.entry = some a ∧ w.Holds (.entry a) q.block := by
  obtain ⟨-, k', a, e, n, hk', hsend⟩ := (h.socks d hd).sending hflag
  obtain rfl : k = k' := Option.some_inj.mp (hk.symm.trans hk')
  have hbuffer := hsend.buffer
  rw [hq, eq_comm, Option.map_eq_some_iff] at hbuffer
  obtain ⟨p, hp, rfl⟩ := hbuffer
  exact ⟨a, hsend.entry, e, p, hsend.live, hp, rfl⟩

/-- **What others send** stays as it is. -/
theorem Stepped.contents_eq {K : Kind → Prop} (hgood : Good w)
    (hrefresh : ∀ a v done, K (.refresh a v done) → ∀ d ∈ w.socks, (w.sock d).sends a = false)
    (hstep : Stepped cfg K c w w') (hd : d ∈ w.socks) (hdc : d ≠ c)
    (hflag : (w.sock d).flagCache = true) {k : HttpCache} (hk : (w.sock d).cache = some k) :
    w'.cache.contents k.buffer = w.cache.contents k.buffer := by
  refine (hstep.keep (I := fun w₁ => w₁.cache.contents k.buffer = w.cache.contents k.buffer) hgood
    rfl hrefresh ?_ (fun _ => rfl) (fun _ _ _ h _ _ => h)).2
  intro hc kind g₁ s₁ g₂ s₂ _ howned hI heffect howned'
  refine Eq.trans (contents_congr ?_) hI
  intro q hq
  have hsock : ∀ g s, (w.set c g s).sock d = w.sock d := fun g s => set_sock_of_ne w g s hdc
  obtain ⟨a, ha, hbefore⟩ := howned.holds_sending hd (by rwa [hsock]) (by rwa [hsock]) hq
  obtain ⟨b, hb, hafter⟩ := howned'.holds_sending hd (by rwa [hsock]) (by rwa [hsock]) hq
  obtain rfl : a = b := Option.some_inj.mp (ha.symm.trans hb)
  exact heffect.block_eq howned hc Holder.noConfusion hbefore hafter

end Serveez.Transfer
