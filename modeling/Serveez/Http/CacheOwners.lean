import Serveez.Http.CacheEffects

/-!
# Who uses what in the cache

`Owned w` says that pointers of the server's connections into the cache are good ones: a
connection with `HTTP_FLAG_CACHE` sends a ready entry and points into its buffer, one that reads
a file fills an entry that is not ready and has a buffer of its own; the usage of an entry is the
number of connections that send it; an entry is filled by one connection at most, and no buffer
belongs to two entries or connections.

* `Owned.change`, `Owned.soft`: what has to be shown when one connection changes.
-/

namespace Serveez.Transfer

open Cache Lib

/-- `p` is the start of a block of `n` bytes, or `NULL` for no bytes. -/
def BufferOk (g : Cache) (p : Option Ptr) (n : Nat) : Prop :=
  p = none ∧ n = 0 ∨ ∃ b x, p = some ⟨b, 0⟩ ∧ g.block b = some x ∧ x.length = n

def EntryOk (g : Cache) (e : CacheEntry) : Prop :=
  if e.ready then BufferOk g e.buffer e.size else e.buffer = none

/-- The pointer to the bytes behind the first `n`. -/
def Ptr.shift (n : Nat) (p : Ptr) : Ptr := { p with off := p.off + n }

/-- A connection that sends the entry `a`, of which it has sent `n` bytes. -/
structure Sending (g : Cache) (k : HttpCache) (a : Addr) (e : CacheEntry) (n : Nat) : Prop where
  entry : k.entry = some a
  live : dataOf g.entry a = some e
  ready : e.ready = true
  le : n ≤ e.size
  buffer : k.buffer = e.buffer.map (Ptr.shift n)
  size : k.size = e.size - n

/-- A connection that fills the entry `a`. -/
structure Filling (g : Cache) (k : HttpCache) (a : Addr) (e : CacheEntry) : Prop where
  entry : k.entry = some a
  live : dataOf g.entry a = some e
  ready : e.ready = false

structure SockOk (g : Cache) (s : HttpSock) : Prop where
  sending : s.flagCache = true →
    s.reading = false ∧ ∃ k a e n, s.cache = some k ∧ Sending g k a e n
  filling : s.reading = true →
    s.disconnectedSocket = .httpCacheDisconnect ∧
      ∃ k, s.cache = some k ∧ BufferOk g k.buffer k.size ∧
        (k = httpCacheReset ∧ s.killed = true ∨ ∃ a e, Filling g k a e)
  linked : ∀ a, s.entry = some a → s.flagCache = true ∨ s.reading = true
  writer : s.writeSocket = .httpCacheWrite → s.flagCache = true

/-- Who can have a buffer. -/
inductive Holder
  | entry (a : Addr)
  | reader (c : Nat)
deriving DecidableEq

theorem Holder.entry_ne_reader (a : Addr) (c : Nat) : Holder.entry a ≠ .reader c :=
  Holder.noConfusion

namespace World

/-- The world after a change of the cache and the socket of the connection `c`. -/
def set (w : World) (c : Nat) (g : Cache) (s : HttpSock) : World :=
  { w with cache := g, sock := Function.update w.sock c s }

def Holds (w : World) : Holder → Nat → Prop
  | .entry a, b => ∃ e p, dataOf w.cache.entry a = some e ∧ e.buffer = some p ∧ p.block = b
  | .reader c, b => c ∈ w.socks ∧ (w.sock c).reading = true ∧
      ∃ k p, (w.sock c).cache = some k ∧ k.buffer = some p ∧ p.block = b

/-- The number of connections that send an entry. -/
def senders (w : World) (a : Addr) : Nat := w.socks.countP fun c => (w.sock c).sends a

structure Owned (w : World) : Prop where
  listed : ∃ l, w.cache.Listed l
  nodup : w.socks.Nodup
  entries : ∀ a e, dataOf w.cache.entry a = some e → EntryOk w.cache e
  socks : ∀ c ∈ w.socks, SockOk w.cache (w.sock c)
  usage : ∀ a e, dataOf w.cache.entry a = some e → e.usage = w.senders a
  reader : ∃ reader : Addr → Nat, ∀ c ∈ w.socks, (w.sock c).reading = true →
    ∀ a, (w.sock c).entry = some a → reader a = c
  owner : ∃ owner : Nat → Holder, ∀ o b, w.Holds o b → owner b = o
  fresh : ∀ b x, w.cache.block b = some x → b < w.cache.nextBlock

end World

open World

variable {w : World} {c d : Nat} {g g' : Cache} {s s' : HttpSock}

/-! ## Buffers -/

theorem BufferOk.congr {p : Option Ptr} {n : Nat} (h : BufferOk g p n)
    (hblock : ∀ q, p = some q → g'.block q.block = g.block q.block) : BufferOk g' p n := by
  rcases h with h | ⟨b, x, rfl, hx, hlen⟩
  · exact Or.inl h
  · exact Or.inr ⟨b, x, rfl, (hblock _ rfl).trans hx, hlen⟩

theorem BufferOk.freeable {p : Option Ptr} {n : Nat} (h : BufferOk g p n) : g.Freeable p := by
  intro q hq
  rcases h with ⟨hnone, -⟩ | ⟨b, x, hp, hx, -⟩
  · rw [hnone] at hq
    cases hq
  · rw [hp, Option.some_inj] at hq
    subst hq
    exact ⟨rfl, x, hx⟩

variable {a : Addr} {e : CacheEntry}

theorem EntryOk.congr (h : EntryOk g e)
    (hblock : ∀ q, e.buffer = some q → g'.block q.block = g.block q.block) : EntryOk g' e := by
  unfold EntryOk at h ⊢
  split
  · next hready =>
    rw [if_pos hready] at h
    exact h.congr hblock
  · next hready =>
    rw [if_neg hready] at h
    exact h

theorem EntryOk.bufferOk (h : EntryOk g e) (hready : e.ready = true) :
    BufferOk g e.buffer e.size := by
  rwa [EntryOk, if_pos hready] at h

theorem EntryOk.buffer_eq_none (h : EntryOk g e) (hready : e.ready = false) :
    e.buffer = none := by
  rwa [EntryOk, if_neg (by rw [hready]; decide)] at h

theorem EntryOk.freeable (h : EntryOk g e) : g.Freeable e.buffer := by
  cases hready : e.ready with
  | true => exact (h.bufferOk hready).freeable
  | false =>
    rw [h.buffer_eq_none hready]
    intro q hq
    cases hq

theorem World.Owned.live_of_holds (h : Owned w) {o : Holder} {b : Nat} (ho : w.Holds o b) :
    ∃ x, w.cache.block b = some x := by
  cases o with
  | entry a =>
    obtain ⟨e, p, he, hp, rfl⟩ := ho
    exact ((h.entries a e he).freeable p hp).2
  | reader c =>
    obtain ⟨hc, hreading, k, p, hk, hp, rfl⟩ := ho
    obtain ⟨-, k', hk', hbuffer, -⟩ := (h.socks c hc).filling hreading
    rw [hk, Option.some_inj] at hk'
    subst hk'
    exact (hbuffer.freeable p hp).2

theorem without_of_ne {block : Nat → Option (List UInt8)} {p : Option Ptr} {b : Nat}
    (hne : ∀ q, p = some q → q.block ≠ b) : without block p b = block b := by
  cases p with
  | none => rfl
  | some q => exact Function.update_of_ne (hne q rfl).symm _ _

/-- What one holder frees is not what another one has. -/
theorem World.Owned.without_eq (h : Owned w) {o o' : Holder} {p : Option Ptr} {b : Nat}
    (hp : ∀ q, p = some q → w.Holds o q.block) (hb : w.Holds o' b) (hne : o' ≠ o) :
    without w.cache.block p b = w.cache.block b := by
  obtain ⟨owner, howner⟩ := h.owner
  apply without_of_ne
  rintro q hq rfl
  exact hne ((howner o' q.block hb).symm.trans (howner o q.block (hp q hq)))

/-! ## Counting -/

theorem senders_set (hnodup : w.socks.Nodup) (hc : c ∈ w.socks) (g : Cache) (s : HttpSock)
    (a : Addr) :
    (w.set c g s).senders a + ((w.sock c).sends a).toNat = w.senders a + (s.sends a).toNat :=
  countP_update w.sock (fun s => s.sends a) hnodup hc s

theorem set_sock_self (w : World) (c : Nat) (g : Cache) (s : HttpSock) :
    (w.set c g s).sock c = s := Function.update_self _ _ _

theorem set_sock_of_ne (w : World) (g : Cache) (s : HttpSock) (hne : d ≠ c) :
    (w.set c g s).sock d = w.sock d := Function.update_of_ne hne _ _

/-! ## Frames -/

/-- The other sockets do not notice a change that keeps what they use. -/
theorem SockOk.frame (h : SockOk g s)
    (hentry : ∀ a e, s.entry = some a → dataOf g.entry a = some e →
      ∃ e', dataOf g'.entry a = some e' ∧ e'.ready = e.ready ∧
        (e.ready = true → e'.buffer = e.buffer ∧ e'.size = e.size))
    (hblock : s.reading = true → ∀ k q, s.cache = some k → k.buffer = some q →
      g'.block q.block = g.block q.block) : SockOk g' s where
  sending hflag := by
    obtain ⟨hreading, k, a, e, n, hk, hsend⟩ := h.sending hflag
    have hpoints : s.entry = some a := by
      rw [HttpSock.entry, hk]
      exact hsend.entry
    obtain ⟨e', he', hready, hsame⟩ := hentry a e hpoints hsend.live
    obtain ⟨hbuffer, hsize⟩ := hsame hsend.ready
    refine ⟨hreading, k, a, e', n, hk, hsend.entry, he', hready.trans hsend.ready, ?_, ?_, ?_⟩
    · exact hsize ▸ hsend.le
    · exact hbuffer ▸ hsend.buffer
    · exact hsize ▸ hsend.size
  filling hreading := by
    obtain ⟨hdisc, k, hk, hbuffer, hcase⟩ := h.filling hreading
    refine ⟨hdisc, k, hk, hbuffer.congr (fun q hq => hblock hreading k q hk hq), ?_⟩
    rcases hcase with hreset | ⟨a, e, hfill⟩
    · exact Or.inl hreset
    · have hpoints : s.entry = some a := by
        rw [HttpSock.entry, hk]
        exact hfill.entry
      obtain ⟨e', he', hready, -⟩ := hentry a e hpoints hfill.live
      exact Or.inr ⟨a, e', hfill.entry, he', hready.trans hfill.ready⟩
  linked := h.linked
  writer := h.writer

/-- The fields of an entry that others rely on. -/
def SameUse (e e' : CacheEntry) : Prop :=
  e'.ready = e.ready ∧ e'.buffer = e.buffer ∧ e'.size = e.size

/-- A change that leaves the buffers and what is known of them. -/
structure Soft (g g' : Cache) : Prop where
  blocks : SameBlocks g g'
  keeps : ∀ a e, dataOf g.entry a = some e → ∃ e', dataOf g'.entry a = some e' ∧ SameUse e e'
  comes : ∀ a e', dataOf g'.entry a = some e' →
    (∃ e, dataOf g.entry a = some e ∧ SameUse e e') ∨ e'.ready = false ∧ e'.buffer = none

theorem Soft.of_data (hdata : dataOf g'.entry = dataOf g.entry) (hblocks : SameBlocks g g') :
    Soft g g' where
  blocks := hblocks
  keeps a e he := ⟨e, (congrFun hdata a).trans he, rfl, rfl, rfl⟩
  comes a e he := Or.inl ⟨e, (congrFun hdata a).symm.trans he, rfl, rfl, rfl⟩

theorem Soft.refl (g : Cache) : Soft g g := Soft.of_data rfl ⟨rfl, rfl⟩

/-- A change of one entry that keeps what others rely on. -/
theorem Soft.of_update {e e' : CacheEntry} (he : dataOf g.entry a = some e)
    (hdata : dataOf g'.entry = Function.update (dataOf g.entry) a (some e'))
    (hblocks : SameBlocks g g') (huse : SameUse e e') : Soft g g' where
  blocks := hblocks
  keeps b f hf := by
    rw [hdata]
    by_cases hb : b = a
    · subst hb
      rw [he, Option.some_inj] at hf
      exact ⟨e', Function.update_self _ _ _, hf ▸ huse⟩
    · exact ⟨f, (Function.update_of_ne hb _ _).trans hf, rfl, rfl, rfl⟩
  comes b f hf := by
    rw [hdata] at hf
    rcases update_eq_some_iff.mp hf with ⟨rfl, hnew⟩ | ⟨-, hold⟩
    · rw [Option.some_inj] at hnew
      exact Or.inl ⟨e, he, hnew ▸ huse⟩
    · exact Or.inl ⟨f, hold, rfl, rfl, rfl⟩

theorem Soft.of_enter (he : dataOf g.entry a = none)
    (hdata : dataOf g'.entry = Function.update (dataOf g.entry) a (some e))
    (hblocks : SameBlocks g g') (hready : e.ready = false) (hbuffer : e.buffer = none) :
    Soft g g' where
  blocks := hblocks
  keeps b f hf := by
    have hb : b ≠ a := by
      rintro rfl
      rw [he] at hf
      cases hf
    rw [hdata]
    exact ⟨f, (Function.update_of_ne hb _ _).trans hf, rfl, rfl, rfl⟩
  comes b f hf := by
    rw [hdata] at hf
    rcases update_eq_some_iff.mp hf with ⟨rfl, hnew⟩ | ⟨-, hold⟩
    · rw [Option.some_inj] at hnew
      subst hnew
      exact Or.inr ⟨hready, hbuffer⟩
    · exact Or.inl ⟨f, hold, rfl, rfl, rfl⟩

theorem Soft.entryOk (h : Soft g g') (hold : ∀ a e, dataOf g.entry a = some e → EntryOk g e)
    {e' : CacheEntry} (he' : dataOf g'.entry a = some e') : EntryOk g' e' := by
  rcases h.comes a e' he' with ⟨e, he, hready, hbuffer, hsize⟩ | ⟨hready, hbuffer⟩
  · have hok := hold a e he
    unfold EntryOk at hok ⊢
    rw [hready, hbuffer, hsize]
    split
    · next hr =>
      rw [if_pos hr] at hok
      exact hok.congr (fun q _ => congrFun h.blocks.block q.block)
    · next hr =>
      rw [if_neg hr] at hok
      exact hok
  · rw [EntryOk, if_neg (by rw [hready]; decide)]
    exact hbuffer

theorem Soft.sockOk (h : Soft g g') (hok : SockOk g s) : SockOk g' s := by
  apply hok.frame
  · intro a e _ he
    obtain ⟨e', he', hready, hbuffer, hsize⟩ := h.keeps a e he
    exact ⟨e', he', hready, fun _ => ⟨hbuffer, hsize⟩⟩
  · intro _ k q _ _
    exact congrFun h.blocks.block q.block

/-! ## Changes of one connection -/

/-- The reader of a changed socket is the old one, or the entry it reads has no other. -/
def ReaderOk (w : World) (c : Nat) (s' : HttpSock) : Prop :=
  s'.reading = true → (w.sock c).reading = true ∧ s'.entry = (w.sock c).entry ∨
    s'.entry = none ∨ ∃ a, s'.entry = some a ∧
      ∀ d ∈ w.socks, (w.sock d).reading = true → (w.sock d).entry ≠ some a

theorem World.Owned.reader_set (h : Owned w) (hreader : ReaderOk w c s') (g' : Cache) :
    ∃ reader : Addr → Nat, ∀ d ∈ w.socks, ((w.set c g' s').sock d).reading = true →
      ∀ a, ((w.set c g' s').sock d).entry = some a → reader a = d := by
  obtain ⟨reader, hold⟩ := h.reader
  have hother : ∀ d ∈ w.socks, d ≠ c → ((w.set c g' s').sock d).reading = true →
      ∀ b, ((w.set c g' s').sock d).entry = some b → reader b = d := by
    intro d hd hdc hread b hb
    rw [set_sock_of_ne w g' s' hdc] at hread hb
    exact hold d hd hread b hb
  by_cases hreading : s'.reading = true
  · rcases hreader hreading with ⟨hsame, hentry⟩ | hnone | ⟨a, ha, hnone⟩
    · refine ⟨reader, ?_⟩
      intro d hd hread b hb
      by_cases hdc : d = c
      · subst hdc
        rw [set_sock_self, hentry] at hb
        exact hold d hd hsame b hb
      · exact hother d hd hdc hread b hb
    · refine ⟨reader, ?_⟩
      intro d hd hread b hb
      by_cases hdc : d = c
      · subst hdc
        rw [set_sock_self, hnone] at hb
        cases hb
      · exact hother d hd hdc hread b hb
    · refine ⟨Function.update reader a c, ?_⟩
      intro d hd hread b hb
      by_cases hdc : d = c
      · subst hdc
        rw [set_sock_self, ha, Option.some_inj] at hb
        subst hb
        exact Function.update_self _ _ _
      · have hba : b ≠ a := by
          rintro rfl
          rw [set_sock_of_ne w g' s' hdc] at hread hb
          exact hnone d hd hread hb
        rw [Function.update_of_ne hba]
        exact hother d hd hdc hread b hb
  · refine ⟨reader, ?_⟩
    intro d hd hread b hb
    by_cases hdc : d = c
    · subst hdc
      rw [set_sock_self] at hread
      exact absurd hread hreading
    · exact hother d hd hdc hread b hb

/-- The usage of an entry counts one connection more, or one less. -/
def UsageOk (w : World) (c : Nat) (g' : Cache) (s' : HttpSock) : Prop :=
  ∀ a e', dataOf g'.entry a = some e' →
    e'.usage + ((w.sock c).sends a).toNat = w.senders a + (s'.sends a).toNat

theorem World.Owned.change (h : Owned w) (hc : c ∈ w.socks) (hlisted : ∃ l, g'.Listed l)
    (hentries : ∀ a e', dataOf g'.entry a = some e' → EntryOk g' e') (hself : SockOk g' s')
    (hframe : ∀ d ∈ w.socks, d ≠ c → SockOk g' (w.sock d)) (husage : UsageOk w c g' s')
    (hreader : ReaderOk w c s')
    (howner : ∃ owner : Nat → Holder, ∀ o b, (w.set c g' s').Holds o b → owner b = o)
    (hfresh : ∀ b x, g'.block b = some x → b < g'.nextBlock) : Owned (w.set c g' s') where
  listed := hlisted
  nodup := h.nodup
  entries := hentries
  socks d hd := by
    by_cases hdc : d = c
    · subst hdc
      rw [set_sock_self]
      exact hself
    · rw [set_sock_of_ne w g' s' hdc]
      exact hframe d hd hdc
  usage a e he := by
    have hcount := senders_set h.nodup hc g' s' a
    have hnew := husage a e he
    omega
  reader := h.reader_set hreader g'
  owner := howner
  fresh := hfresh

/-- When nobody gets a buffer, the owners are the old ones. -/
theorem World.Owned.owner_of_imp (h : Owned w) {w' : World}
    (himp : ∀ o b, w'.Holds o b → w.Holds o b) :
    ∃ owner : Nat → Holder, ∀ o b, w'.Holds o b → owner b = o := by
  obtain ⟨owner, hold⟩ := h.owner
  exact ⟨owner, fun o b ho => hold o b (himp o b ho)⟩

/-- The connection has no buffer it did not have before. -/
def BufferKept (w : World) (c : Nat) (s' : HttpSock) : Prop :=
  s'.reading = true → ∀ k p, s'.cache = some k → k.buffer = some p →
    w.Holds (.reader c) p.block

theorem holds_of_set (hkept : BufferKept w c s')
    (hentries : ∀ a e' p, dataOf g'.entry a = some e' → e'.buffer = some p →
      w.Holds (.entry a) p.block) :
    ∀ o b, (w.set c g' s').Holds o b → w.Holds o b := by
  intro o b ho
  cases o with
  | entry a =>
    obtain ⟨e', p, he', hp, rfl⟩ := ho
    exact hentries a e' p he' hp
  | reader d =>
    obtain ⟨hd, hread, k, p, hk, hp, rfl⟩ := ho
    by_cases hdc : d = c
    · subst hdc
      rw [set_sock_self] at hread hk
      exact hkept hread k p hk hp
    · rw [set_sock_of_ne w g' s' hdc] at hread hk
      exact ⟨hd, hread, k, p, hk, hp, rfl⟩

/-- What has to be shown about the connection itself after a soft change. -/
theorem World.Owned.soft (h : Owned w) (hc : c ∈ w.socks) (hsoft : Soft w.cache g')
    (hlisted : ∃ l, g'.Listed l) (hself : SockOk g' s') (husage : UsageOk w c g' s')
    (hreader : ReaderOk w c s') (hkept : BufferKept w c s') : Owned (w.set c g' s') := by
  refine h.change hc hlisted (fun a e' he' => hsoft.entryOk h.entries he') hself
    (fun d hd _ => hsoft.sockOk (h.socks d hd)) husage hreader ?_ ?_
  · apply h.owner_of_imp
    apply holds_of_set hkept
    intro a e' p he' hp
    rcases hsoft.comes a e' he' with ⟨e, he, -, hbuffer, -⟩ | ⟨-, hnone⟩
    · exact ⟨e, p, he, hbuffer.symm.trans hp, rfl⟩
    · rw [hnone] at hp
      cases hp
  · intro b x hx
    rw [hsoft.blocks.block] at hx
    rw [hsoft.blocks.nextBlock]
    exact h.fresh b x hx

/-! ## Facts about the sockets of an owned world -/

theorem entry_eq_of_cache {k : HttpCache} (hk : s.cache = some k) : s.entry = k.entry := by
  rw [HttpSock.entry, hk]
  rfl

theorem sends_eq_true_iff :
    s.sends a = true ↔ s.flagCache = true ∧ s.entry = some a := by
  rw [HttpSock.sends, Bool.and_eq_true, decide_eq_true_iff]

theorem sends_eq_false_of_flag (h : s.flagCache = false) : s.sends a = false := by
  rw [HttpSock.sends, h, Bool.false_and]

theorem SockOk.flagCache_eq_false (h : SockOk g s) (hreading : s.reading = true) :
    s.flagCache = false := by
  cases hflag : s.flagCache with
  | false => rfl
  | true =>
    rw [(h.sending hflag).1] at hreading
    cases hreading

/-- A connection that stops filling an entry has nothing left, and reads on only to be closed. -/
theorem SockOk.reset (h : SockOk g s) (hreading : s.reading = true)
    (hflag' : s'.flagCache = false) (hdisc' : s'.disconnectedSocket = s.disconnectedSocket)
    (hcache' : s'.cache = some httpCacheReset) (hwriter : s'.writeSocket = s.writeSocket)
    (hend : s'.reading = true → s'.killed = true) : SockOk g' s' := by
  refine ⟨?_, ?_, ?_, ?_⟩
  · intro hf
    rw [hflag'] at hf
    cases hf
  · intro hread
    refine ⟨hdisc'.trans (h.filling hreading).1, httpCacheReset, hcache', ?_, ?_⟩
    · exact Or.inl ⟨rfl, rfl⟩
    · exact Or.inl ⟨rfl, hend hread⟩
  · intro b hb
    rw [entry_eq_of_cache hcache'] at hb
    cases hb
  · rw [hwriter, hflag', ← h.flagCache_eq_false hreading]
    exact h.writer

theorem SockOk.entry_cases (h : SockOk g s) (hpoints : s.entry = some a) :
    ∃ e, dataOf g.entry a = some e ∧
      (e.ready = true ∧ s.sends a = true ∨ e.ready = false ∧ s.reading = true) := by
  rcases h.linked a hpoints with hflag | hreading
  · obtain ⟨-, k, a', e, n, hk, hsend⟩ := h.sending hflag
    rw [entry_eq_of_cache hk, hsend.entry, Option.some_inj] at hpoints
    subst hpoints
    refine ⟨e, hsend.live, Or.inl ⟨hsend.ready, sends_eq_true_iff.mpr ⟨hflag, ?_⟩⟩⟩
    rw [entry_eq_of_cache hk, hsend.entry]
  · obtain ⟨-, k, hk, -, hcase⟩ := h.filling hreading
    rw [entry_eq_of_cache hk] at hpoints
    rcases hcase with ⟨rfl, -⟩ | ⟨a', e, hfill⟩
    · cases hpoints
    · rw [hfill.entry, Option.some_inj] at hpoints
      subst hpoints
      exact ⟨e, hfill.live, Or.inr ⟨hfill.ready, hreading⟩⟩

theorem World.Owned.eq_of_reading (h : Owned w) (hc : c ∈ w.socks) (hd : d ∈ w.socks)
    (hrc : (w.sock c).reading = true) (hrd : (w.sock d).reading = true)
    (hac : (w.sock c).entry = some a) (had : (w.sock d).entry = some a) : d = c := by
  obtain ⟨reader, hold⟩ := h.reader
  exact (hold d hd hrd a had).symm.trans (hold c hc hrc a hac)

theorem World.Owned.senders_pos (h : Owned w) (hc : c ∈ w.socks)
    (he : dataOf w.cache.entry a = some e) (hsends : (w.sock c).sends a = true) :
    0 < e.usage := by
  rw [h.usage a e he]
  have hpos : 0 < w.senders a := List.countP_pos_iff.mpr ⟨c, hc, hsends⟩
  omega

end Serveez.Transfer
