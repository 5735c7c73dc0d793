import Serveez.Http.CacheRuns

/-!
# The cache over whole runs of the server

* `cache_structured`: the table and the list of the cache agree in every state, and a full cache
  gives up the idle entry that was accessed least recently.
* `cache_consistent`: what the server asserts about its entries holds, the usage of an entry
  counts the connections that send it, and their pointers go into its buffer.
* `cache_filled`: an entry that is not ready is being filled by one connection, and goes with it.

None of them holds for all runs. The server does not wait with a request until the last response
is sent, and a file that has changed on the disk is refreshed in the cache no matter who uses the
entry; `http_refresh_cache` does not reset the size, the end of an empty file leaves a ready entry
without a buffer, and an error while a file is read leaves an entry behind.
-/

namespace Serveez.Transfer

open Cache Lib World

variable {cfg : HttpConfig} {w w' : World} {event : Event}

/-- A configuration with room for small files. -/
def smallConfig : HttpConfig := ⟨100, 5, 100, 100, true⟩

/-- A request for a file of three bytes on a connection that is to be kept alive. -/
def getFile (mtime : Int) : GetRequest :=
  ⟨[102], [1, 2, 3], mtime, ⟨[], []⟩, true, false, false, false, none⟩

/-- `GET /f HTTP/1.0` with `Connection: Keep-Alive`. -/
def getBytes : List UInt8 :=
  [71, 69, 84, 32, 47, 102, 32, 72, 84, 84, 80, 47, 49, 46, 48, 13, 10, 67, 111, 110, 110, 101,
    99, 116, 105, 111, 110, 58, 32, 75, 101, 101, 112, 45, 65, 108, 105, 118, 101, 13, 10, 13, 10]

def flushNothing : Flush := ⟨.unavailable, .unavailable⟩

/-! ## The list and the table -/

/-- The entry is idle, and every other idle entry has been accessed later. -/
def Cache.Victim (g : Cache) (a : Addr) : Prop :=
  g.idle a = true ∧ ∀ b, g.idle b = true → b ≠ a → g.stamp a < g.stamp b

/-- The list and the table hold the same entries. A file for which there is no room gets the place
of the victim; if no entry is idle the cache stays as it is. -/
structure Cache.Structured (g : Cache) : Prop where
  listed : ∃ l, Listed g l
  evicts : ∀ file, g.svzHashGet file = none → g.httpCacheEntries ≤ g.svzHashSize →
    (∃ a g₁ g' cache, g.Victim a ∧ g.httpCacheDestroyEntry a = some g₁ ∧
        g₁.enterSlot file = some (g', cache) ∧ g.httpInitCache file = some (g', cache, true)) ∨
      (∀ a, g.idle a = false) ∧ g.httpInitCache file = some (g, httpCacheReset, false)

theorem mem_of_idle {g : Cache} {l : List Addr} (hl : Listed g l) {a : Addr}
    (hidle : g.idle a = true) : a ∈ l := by
  cases he : g.entry a with
  | none =>
    rw [idle, dataOf, he] at hidle
    cases hidle
  | some e => exact hl.mem_of_live a e he

theorem World.Owned.structured (h : Owned w) : w.cache.Structured := by
  obtain ⟨l, hl⟩ := h.listed
  refine ⟨⟨l, hl⟩, ?_⟩
  intro file hnew hfull
  have hsize : w.cache.svzHashSize = l.length := hl.length
  have hfreeable : ∀ a e, w.cache.entry a = some e → w.cache.Freeable e.buffer := by
    intro a e he
    exact (h.entries a e.unlinked (dataOf_eq_some he)).freeable
  rcases hl.httpInitCache_spec hnew hfreeable with ⟨-, hnone, hfail⟩ |
      ⟨g₁, g', l₁, hroom, -, -, -, henter, hinit⟩
  · refine Or.inr ⟨?_, hfail⟩
    intro a
    by_contra hidle
    have hidle : w.cache.idle a = true := Bool.not_eq_false _ ▸ hidle
    exact List.find?_eq_none.mp hnone a (List.mem_reverse.mpr (mem_of_idle hl hidle)) hidle
  · rcases hroom with ⟨hroom, -, -⟩ | ⟨-, a, hfind, hdestroy, -⟩
    · omega
    · obtain ⟨-, hidle, hleast⟩ := hl.find_idle_eq_some_iff.mp hfind
      refine Or.inl ⟨a, g₁, g', _, ⟨hidle, ?_⟩, hdestroy, henter, hinit⟩
      intro b hb hne
      exact hleast b (mem_of_idle hl hb) hb hne

/-- What holds in every state of a run of careful steps. -/
theorem always_good {entries : Nat} {I : World → Prop} {C : World → Event → Prop}
    (hcareful : ∀ w event, C w event → w.Careful cfg event)
    (hstart : I (World.start cfg entries))
    (hstep : ∀ w event w', Good w → I w → C w event →
      Stepped cfg (w.kinds cfg event) event.conn w w' → I w')
    {events : List Event} (hmeets : Meets cfg entries C events) :
    Always cfg entries (fun w => Good w ∧ w.cache.httpCacheEntries = entries ∧ I w) events := by
  refine always_of_step ⟨good_start cfg entries, rfl, hstart⟩ ?_ hmeets
  rintro w event ⟨hgood, hentries, hI⟩ hC
  obtain ⟨w', hw', hstepped⟩ := step_stepped hgood (hcareful w event hC)
  have hgood' := (hstepped.keep (I := fun _ => True) hgood trivial
    (refresh_unshared (hcareful w event hC)) (fun _ _ _ _ _ _ _ _ _ _ _ => trivial)
    (fun _ => trivial) (fun _ _ _ _ _ _ => trivial)).1
  exact ⟨w', hw', hgood', hstepped.httpCacheEntries.trans hentries,
    hstep w event w' hgood hI hC hstepped⟩

/-- **The structure of the cache.** -/
theorem cache_structured (cfg : HttpConfig) (entries : Nat) (events : List Event)
    (hcareful : Meets cfg entries (fun w event => w.Careful cfg event) events) :
    Always cfg entries (fun w => w.cache.httpCacheEntries = entries ∧ w.cache.Structured)
      events := by
  have halways := always_good (I := fun _ => True) (fun _ _ h => h) trivial
    (fun _ _ _ _ _ _ _ => trivial) hcareful
  intro pre hpre
  obtain ⟨w, hw, hgood, hentries, -⟩ := halways pre hpre
  exact ⟨w, hw, hentries, hgood.owned.structured⟩

/-- One connection fetches a file into the cache. -/
def fetchFile : List Event :=
  [.connect 0, .receive 0 getBytes (.get (getFile 1)) flushNothing, .readFile 0 (.data 3),
    .write 0 (.sent 100)]

theorem cache_structured_fetchFile :
    Meets smallConfig 2 (fun w event => w.Careful smallConfig event) fetchFile ∧
      Always smallConfig 2 (fun w => w.cache.httpCacheEntries = 2 ∧ w.cache.Structured)
        fetchFile :=
  ⟨meets_of_forall (by decide), cache_structured _ _ _ (meets_of_forall (by decide))⟩

/-- While the connection sends the entry the file changes, and the entry is refreshed for a second
connection; both disconnect. -/
def refreshShared : List Event :=
  fetchFile ++ [.receive 0 getBytes (.get (getFile 1)) flushNothing, .connect 1,
    .receive 1 getBytes (.get (getFile 2)) flushNothing, .disconnect 1, .disconnect 0]

/-- The entry is destroyed twice. -/
theorem cache_not_always_structured : ¬ ∀ cfg entries events, Always cfg entries
    (fun w => w.cache.httpCacheEntries = entries ∧ w.cache.Structured) events := by
  intro h
  obtain ⟨w, hw, -⟩ := h smallConfig 2 refreshShared refreshShared (List.prefix_refl _)
  have hnone : (World.run smallConfig 2 refreshShared).isNone = true := by decide
  rw [hw] at hnone
  cases hnone

/-! ## The assertions, the usage and the buffers -/

/-- What the server asserts of an entry, apart from its buffer when it is not ready. -/
def CacheEntry.Asserted (e : CacheEntry) : Prop :=
  if e.ready then e.buffer ≠ none else e.size = 0 ∧ e.hits = 0

theorem CacheEntry.Asserted.buffer {e : CacheEntry} (h : e.Asserted) (hready : e.ready = true) :
    e.buffer ≠ none := by
  rwa [CacheEntry.Asserted, if_pos hready] at h

theorem CacheEntry.Asserted.unused {e : CacheEntry} (h : e.Asserted) (hready : e.ready = false) :
    e.size = 0 ∧ e.hits = 0 := by
  rwa [CacheEntry.Asserted, if_neg (hready ▸ Bool.noConfusion)] at h

def Cache.Asserted (g : Cache) : Prop := ∀ a e, dataOf g.entry a = some e → e.Asserted

theorem Cache.Asserted.update {g g' : Cache} (h : g.Asserted) {a : Addr} {e : Option CacheEntry}
    (hdata : dataOf g'.entry = Function.update (dataOf g.entry) a e)
    (hnew : ∀ x, e = some x → x.Asserted) : g'.Asserted := by
  intro b f hf
  rw [hdata] at hf
  by_cases hb : b = a
  · subst hb
    rw [Function.update_self] at hf
    exact hnew f hf
  · rw [Function.update_of_ne hb] at hf
    exact h b f hf

theorem Cache.Asserted.congr {g g' : Cache} (h : g.Asserted)
    (hdata : dataOf g'.entry = dataOf g.entry) : g'.Asserted := by
  intro a e he
  exact h a e ((congrFun hdata a).symm.trans he)

theorem asserted_effect {k : Kind} {g g' : Cache} {s s' : HttpSock} (h : g.Asserted)
    (hempty : k ≠ .empty) (hrefresh : ∀ a v done, k ≠ .refresh a v done)
    (heffect : Effect k g s g' s') : g'.Asserted := by
  cases heffect with
  | quiet hdata => exact h.congr hdata
  | change => exact h
  | advance => exact h
  | release _ _ _ he hdata =>
    refine h.update hdata ?_
    rintro x ⟨⟩
    have hold := h _ _ he
    exact hold
  | finish => exact h
  | hit _ _ he hready hdata =>
    refine h.update hdata ?_
    rintro x ⟨⟩
    rw [CacheEntry.Asserted, if_pos hready]
    exact (h _ _ he).buffer hready
  | miss => exact h
  | refresh => exact absurd rfl (hrefresh _ _ _)
  | evict _ _ _ hdata => exact h.update hdata fun x hx => by cases hx
  | enter _ _ _ hdata =>
    refine h.update hdata ?_
    rintro x ⟨⟩
    exact ⟨rfl, rfl⟩
  | more _ _ _ hdata => exact h.congr hdata
  | complete _ _ _ _ hdata =>
    refine h.update hdata ?_
    rintro x ⟨⟩
    intro hnone
    exact hempty (if_pos hnone)
  | abandon _ _ hdata => exact h.congr hdata
  | drop _ _ _ _ _ hdata => exact h.update hdata fun x hx => by cases hx

/-- The steps after which the server's own assertions hold: an entry is never refreshed, and no
file ends before its first byte. -/
structure World.Steady (cfg : HttpConfig) (w : World) (event : Event) : Prop where
  separate : w.Separate cfg event
  unchanged : ∀ p ∈ w.transfer cfg event, w.cache.changed p.2 = none
  nonempty : ∀ p ∈ w.cacheRead cfg event, p.1.endsEmpty p.2 = false

instance (cfg : HttpConfig) (w : World) (event : Event) : Decidable (w.Steady cfg event) :=
  decidable_of_iff (w.Separate cfg event ∧
      (∀ p ∈ w.transfer cfg event, w.cache.changed p.2 = none) ∧
      ∀ p ∈ w.cacheRead cfg event, p.1.endsEmpty p.2 = false)
    ⟨fun h => ⟨h.1, h.2.1, h.2.2⟩, fun h => ⟨h.separate, h.unchanged, h.nonempty⟩⟩

theorem World.Steady.careful (h : w.Steady cfg event) : w.Careful cfg event where
  separate := h.separate
  unshared p hp a ha := by
    rw [h.unchanged p hp] at ha
    cases ha

/-- The pointer of a connection that sends an entry goes into the buffer of the entry. -/
def World.Intact (w : World) (s : HttpSock) : Prop :=
  ∃ k a e b n x, s.cache = some k ∧ k.entry = some a ∧ w.cache.entry a = some e ∧
    e.ready = true ∧ e.buffer = some ⟨b, 0⟩ ∧ k.buffer = some ⟨b, n⟩ ∧ w.cache.block b = some x ∧
    x.length = e.size ∧ n + k.size = e.size

structure World.Consistent (w : World) : Prop where
  notReady : ∀ a e, w.cache.entry a = some e → e.ready = false →
    e.size = 0 ∧ e.buffer = none ∧ e.hits = 0
  ready : ∀ a e, w.cache.entry a = some e → e.ready = true → e.buffer ≠ none
  usage : ∀ a e, w.cache.entry a = some e → e.usage = w.senders a
  buffer : ∀ c ∈ w.socks, (w.sock c).flagCache = true → w.Intact (w.sock c)

theorem World.Owned.consistent (h : Owned w) (hasserted : w.cache.Asserted) : w.Consistent where
  notReady a e he hready := by
    have hlive := dataOf_eq_some he
    obtain ⟨hsize, hhits⟩ := (hasserted a e.unlinked hlive).unused hready
    exact ⟨hsize, (h.entries a e.unlinked hlive).buffer_eq_none hready, hhits⟩
  ready a e he hready := (hasserted a e.unlinked (dataOf_eq_some he)).buffer hready
  usage a e he := h.usage a e.unlinked (dataOf_eq_some he)
  buffer c hc hflag := by
    obtain ⟨-, k, a, e', n, hk, hsend⟩ := (h.socks c hc).sending hflag
    have hlive := hsend.live
    have hbuffer := (hasserted a e' hlive).buffer hsend.ready
    obtain ⟨e, he, rfl⟩ := Option.map_eq_some_iff.mp hlive
    rcases (h.entries a _ hlive).bufferOk hsend.ready with ⟨hnone, -⟩ | ⟨b, x, hb, hx, hlen⟩
    · exact absurd hnone hbuffer
    · have hpointer : k.buffer = some ⟨b, n⟩ := by
        rw [hsend.buffer, hb, Option.map_some, Ptr.shift, Nat.zero_add]
      have hle := hsend.le
      have hsize := hsend.size
      exact ⟨k, a, e, b, n, x, hk, hsend.entry, he, hsend.ready, hb, hpointer, hx, hlen,
        by change n + k.size = e.unlinked.size; omega⟩

/-- **The consistency of the cache.** -/
theorem cache_consistent (cfg : HttpConfig) (entries : Nat) (events : List Event)
    (hsteady : Meets cfg entries (fun w event => w.Steady cfg event) events) :
    Always cfg entries World.Consistent events := by
  have halways := always_good (I := fun w => w.cache.Asserted) (fun _ _ h => h.careful) nofun (by
    intro w event w' hgood hI hsteady hstep
    refine (hstep.keep (I := fun w => w.cache.Asserted) hgood hI
      (refresh_unshared hsteady.careful) ?_ (fun _ => hI) (fun _ _ _ h _ _ => h)).2
    intro hc k g₁ s₁ g₂ s₂ hk _ hasserted heffect _
    refine asserted_effect (g := g₁) hasserted ?_ ?_ heffect
    · rintro rfl
      obtain ⟨p, hp, hempty⟩ := hk
      rw [hsteady.nonempty p hp] at hempty
      cases hempty
    · rintro a v done rfl
      obtain ⟨c', req, hreq, hchanged, -⟩ := hk
      rw [hsteady.unchanged (c', req) hreq] at hchanged
      cases hchanged) hsteady
  intro pre hpre
  obtain ⟨w, hw, hgood, -, hasserted⟩ := halways pre hpre
  exact ⟨w, hw, hgood.owned.consistent hasserted⟩

theorem cache_consistent_fetchFile :
    Meets smallConfig 2 (fun w event => w.Steady smallConfig event) fetchFile ∧
      Always smallConfig 2 World.Consistent fetchFile :=
  ⟨meets_of_forall (by decide), cache_consistent _ _ _ (meets_of_forall (by decide))⟩

/-- The file changes after it came into the cache, and is asked for again. -/
def refreshFile : List Event :=
  fetchFile ++ [.receive 0 getBytes (.get (getFile 2)) flushNothing]

/-- A refreshed entry keeps its size. -/
theorem cache_not_always_consistent :
    ¬ ∀ cfg entries events, Always cfg entries World.Consistent events := by
  intro h
  obtain ⟨w, hw, hconsistent⟩ := h smallConfig 2 refreshFile refreshFile (List.prefix_refl _)
  have hsize : (World.run smallConfig 2 refreshFile).all (fun w =>
      (w.cache.entry 0).any fun e => !e.ready && e.size = 3) = true := by decide
  rw [hw, Option.all_some, Option.any_eq_true] at hsize
  obtain ⟨e, he, hentry⟩ := hsize
  rw [Bool.and_eq_true, Bool.not_eq_true', decide_eq_true_iff] at hentry
  exact absurd ((hconsistent.notReady 0 e he hentry.1).1.symm.trans hentry.2) nofun

/-! ## Entries that are being filled -/

/-- An entry that is not ready is being filled, and a connection that fills an entry is not done
with its response. -/
structure World.Filled (w : World) : Prop where
  reader : ∀ a e, dataOf w.cache.entry a = some e → e.ready = false →
    ∃ c ∈ w.socks, (w.sock c).reading = true ∧ (w.sock c).entry = some a
  undone : ∀ c ∈ w.socks, (w.sock c).reading = true → (w.sock c).flagDone = false

/-- What a change of one connection has to keep. -/
theorem World.Filled.set {c : Nat} (hc : c ∈ w.socks) {g g' : Cache} {s s' : HttpSock}
    (h : World.Filled (w.set c g s))
    (hreader : ∀ a e', dataOf g'.entry a = some e' → e'.ready = false →
      (s'.reading = true ∧ s'.entry = some a) ∨
        (∃ e, dataOf g.entry a = some e ∧ e.ready = false) ∧
          ¬ (s.reading = true ∧ s.entry = some a))
    (hundone : s'.reading = true → s'.flagDone = false) : World.Filled (w.set c g' s') where
  reader a e' he' hready' := by
    rcases hreader a e' he' hready' with ⟨hreading, hentry⟩ | ⟨⟨e, he, hready⟩, hnot⟩
    · refine ⟨c, hc, ?_⟩
      rw [set_sock_self]
      exact ⟨hreading, hentry⟩
    · obtain ⟨d, hd, hread, hentry⟩ := h.reader a e he hready
      have hdc : d ≠ c := by
        rintro rfl
        rw [set_sock_self] at hread hentry
        exact hnot ⟨hread, hentry⟩
      rw [set_sock_of_ne w g s hdc] at hread hentry
      refine ⟨d, hd, ?_⟩
      rw [set_sock_of_ne w g' s' hdc]
      exact ⟨hread, hentry⟩
  undone d hd hread := by
    by_cases hdc : d = c
    · subst hdc
      rw [set_sock_self] at hread ⊢
      exact hundone hread
    · rw [set_sock_of_ne w g' s' hdc] at hread ⊢
      have hold := h.undone d hd
      rw [set_sock_of_ne w g s hdc] at hold
      exact hold hread

/-- An entry of the new cache that is not ready was there before and not ready. -/
def Waiting (g g' : Cache) : Prop :=
  ∀ a e', dataOf g'.entry a = some e' → e'.ready = false →
    ∃ e, dataOf g.entry a = some e ∧ e.ready = false

theorem Waiting.of_data {g g' : Cache} (hdata : dataOf g'.entry = dataOf g.entry) :
    Waiting g g' := fun a e' he' hready => ⟨e', (congrFun hdata a).symm.trans he', hready⟩

theorem Waiting.of_update {g g' : Cache} {a : Addr} {e f : CacheEntry}
    (hdata : dataOf g'.entry = Function.update (dataOf g.entry) a (some f))
    (he : dataOf g.entry a = some e) (hsame : f.ready = e.ready) : Waiting g g' := by
  intro b e' he' hready'
  rw [hdata] at he'
  rcases update_eq_some_iff.mp he' with ⟨rfl, hnew⟩ | ⟨-, hold⟩
  · rw [Option.some_inj] at hnew
    subst hnew
    exact ⟨e, he, hsame ▸ hready'⟩
  · exact ⟨e', hold, hready'⟩

section Filling

variable {c : Nat} {g g' : Cache} {s s' : HttpSock} {a : Addr}

/-- The connection goes on as before. -/
theorem World.Filled.keep (hc : c ∈ w.socks) (h : World.Filled (w.set c g s))
    (hold : Waiting g g') (hreading : s'.reading = s.reading) (hentry : s'.entry = s.entry)
    (hundone : s'.reading = true → s'.flagDone = true → s.flagDone = true) :
    World.Filled (w.set c g' s') := by
  refine h.set hc ?_ ?_
  · intro b e' he' hready'
    by_cases hmine : s.reading = true ∧ s.entry = some b
    · exact Or.inl ⟨hreading.trans hmine.1, hentry.trans hmine.2⟩
    · exact Or.inr ⟨hold b e' he' hready', hmine⟩
  · intro hread
    have hs := h.undone c hc
    rw [set_sock_self] at hs
    cases hdone : s'.flagDone with
    | false => rfl
    | true => exact absurd ((hs (hreading ▸ hread)).symm.trans (hundone hread hdone)) nofun

theorem World.Filled.idle (hc : c ∈ w.socks) (h : World.Filled (w.set c g s))
    (hold : Waiting g g') (hreading : s.reading = true → s.entry = none)
    (hreading' : s'.reading = false) : World.Filled (w.set c g' s') := by
  refine h.set hc ?_ (fun hread => absurd (hreading'.symm.trans hread) nofun)
  intro b e' he' hready'
  refine Or.inr ⟨hold b e' he' hready', ?_⟩
  rintro ⟨hread, hentry⟩
  exact absurd ((hreading hread).symm.trans hentry) nofun

/-- The connection begins to fill the entry `a`. -/
theorem World.Filled.starts (hc : c ∈ w.socks) (h : World.Filled (w.set c g s)) {f : CacheEntry}
    (hdata : dataOf g'.entry = Function.update (dataOf g.entry) a (some f))
    (hreading : s.reading = false) (hreading' : s'.reading = true) (hentry' : s'.entry = some a)
    (hundone : s'.flagDone = false) : World.Filled (w.set c g' s') := by
  refine h.set hc ?_ (fun _ => hundone)
  intro b e' he' hready'
  rw [hdata] at he'
  rcases update_eq_some_iff.mp he' with ⟨rfl, -⟩ | ⟨-, hold⟩
  · exact Or.inl ⟨hreading', hentry'⟩
  · refine Or.inr ⟨⟨e', hold, hready'⟩, ?_⟩
    exact fun hmine => absurd (hreading.symm.trans hmine.1) nofun

/-- The connection has been filling the entry `a`, which is ready now or gone. -/
theorem World.Filled.ends (hc : c ∈ w.socks) (h : World.Filled (w.set c g s))
    {f : Option CacheEntry} (hdata : dataOf g'.entry = Function.update (dataOf g.entry) a f)
    (hentry : s.entry = some a) (hready : ∀ x, f = some x → x.ready = true)
    (hundone : s'.reading = true → s'.flagDone = false) : World.Filled (w.set c g' s') := by
  refine h.set hc ?_ hundone
  intro b e' he' hready'
  rw [hdata] at he'
  rcases update_eq_some_iff.mp he' with ⟨rfl, hnew⟩ | ⟨hba, hold⟩
  · exact absurd (hready'.symm.trans (hready e' hnew)) nofun
  · refine Or.inr ⟨⟨e', hold, hready'⟩, ?_⟩
    rintro ⟨-, hmine⟩
    exact hba (Option.some_inj.mp (hmine.symm.trans hentry))

theorem filled_effect {k : Kind} (hc : c ∈ w.socks) (hok : SockOk g s)
    (h : World.Filled (w.set c g s)) (habandon : k ≠ .abandon) (hcut : k ≠ .cutOff)
    (hload : ∀ v, k ≠ .load v true) (hrefresh : ∀ a v, k ≠ .refresh a v true)
    (heffect : Effect k g s g' s') : World.Filled (w.set c g' s') := by
  have hundone : s.reading = true → s.flagDone = false := by
    have hold := h.undone c hc
    rwa [set_sock_self] at hold
  have hnot : s.reading = false → s.reading = true → s.entry = none :=
    fun hfalse htrue => absurd (hfalse.symm.trans htrue) Bool.false_ne_true
  cases heffect with
  | quiet hdata _ hlink _ hdone =>
    have hcache : s'.cache = s.cache := congrArg Link.cache hlink
    refine h.keep hc (.of_data hdata) (congrArg Link.reading hlink) ?_ hdone
    rw [HttpSock.entry, hcache]
    rfl
  | change hlink _ hdone =>
    have hcache : s'.cache = s.cache := congrArg Link.cache hlink
    refine h.keep hc (.of_data rfl) (congrArg Link.reading hlink) ?_ (fun _ hd => hdone ▸ hd)
    rw [HttpSock.entry, hcache]
    rfl
  | advance hflag _ _ hlink =>
    have hreading := (hok.sending hflag).1
    have hreading' : s'.reading = s.reading := congrArg Link.reading hlink
    exact h.idle hc (.of_data rfl) (hnot hreading) (hreading'.trans hreading)
  | release hflag _ _ he hdata _ hlink =>
    exact h.idle hc (.of_update hdata he rfl) (hnot (hok.sending hflag).1)
      (congrArg Link.reading hlink)
  | finish _ hlink =>
    refine h.idle hc (.of_data rfl) ?_ (congrArg Link.reading hlink)
    intro hread
    cases hentry : s.entry with
    | none => rfl
    | some a =>
      refine absurd (if_pos ?_) hcut
      rw [hread, hentry]
      rfl
  | hit _ hreading he _ hdata _ hlink =>
    exact h.idle hc (.of_update hdata he rfl) (hnot hreading) (congrArg Link.reading hlink)
  | miss _ hreading hlink =>
    exact h.idle hc (.of_data rfl) (hnot hreading) (congrArg Link.reading hlink)
  | refresh _ hreading he _ hdata _ _ hlink _ hdone =>
    have hcache : s'.cache = some _ := congrArg Link.cache hlink
    refine h.starts hc hdata hreading (congrArg Link.reading hlink) (entry_eq_of_cache hcache) ?_
    rw [hdone]
    cases hflag : s.flagDone with
    | false => rfl
    | true => exact absurd (congrArg _ hflag) (hrefresh _ _)
  | evict _ _ _ hdata =>
    refine h.keep hc ?_ rfl rfl (fun _ hd => hd)
    intro b e' he' hready'
    rw [hdata] at he'
    exact ⟨e', (update_none_eq_some_iff.mp he').2, hready'⟩
  | enter _ hreading he hdata _ hlink _ hdone =>
    have hcache : s'.cache = some _ := congrArg Link.cache hlink
    refine h.starts hc hdata hreading (congrArg Link.reading hlink) (entry_eq_of_cache hcache) ?_
    rw [hdone]
    cases hflag : s.flagDone with
    | false => rfl
    | true => exact absurd (congrArg _ hflag) (hload _)
  | more hreading hcache _ hdata _ _ _ _ hlink _ hdone =>
    have hcache' : s'.cache = some _ := congrArg Link.cache hlink
    refine h.keep hc (.of_data hdata) (congrArg Link.reading hlink) ?_ (fun _ hd => hdone ▸ hd)
    exact (entry_eq_of_cache hcache').trans (entry_eq_of_cache hcache).symm
  | complete hreading hcache hentry he hdata _ hlink _ hend =>
    refine h.ends hc hdata ((entry_eq_of_cache hcache).trans hentry) ?_ ?_
    · rintro x ⟨⟩
      rfl
    · intro hread
      rw [(hend hread).2]
      exact hundone hreading
  | abandon => exact absurd rfl habandon
  | drop _ hcache hentry _ _ hdata _ _ hlink =>
    refine h.ends hc hdata ((entry_eq_of_cache hcache).trans hentry) (fun _ ha => ?_) ?_
    · cases ha
    have hreading' : s'.reading = false := congrArg Link.reading hlink
    exact fun hread => absurd (hreading'.symm.trans hread) Bool.false_ne_true

end Filling

/-- The steps after which an entry cannot be left behind: also `HTTP_FLAG_DONE` of an earlier
response is not set when a file is sent, and no error comes after the first bytes of a file. -/
structure World.Unbroken (cfg : HttpConfig) (w : World) (event : Event) : Prop where
  careful : w.Careful cfg event
  undone : ∀ p ∈ w.transfer cfg event, (w.sock p.1).flagDone = false
  unbroken : ∀ p ∈ w.cacheRead cfg event, p.1.breaksOff p.2 = false

instance (cfg : HttpConfig) (w : World) (event : Event) : Decidable (w.Unbroken cfg event) :=
  decidable_of_iff (w.Careful cfg event ∧
      (∀ p ∈ w.transfer cfg event, (w.sock p.1).flagDone = false) ∧
      ∀ p ∈ w.cacheRead cfg event, p.1.breaksOff p.2 = false)
    ⟨fun h => ⟨h.1, h.2.1, h.2.2⟩, fun h => ⟨h.careful, h.undone, h.unbroken⟩⟩

/-- An entry that is not ready is filled by one connection, and it goes when the connection
disconnects. -/
structure World.Unstuck (cfg : HttpConfig) (w : World) : Prop where
  reader : ∀ a e, w.cache.entry a = some e → e.ready = false → ∃! c, c ∈ w.socks ∧
    (w.sock c).entry = some a ∧ (w.sock c).readSocket = .httpCacheRead
  removed : ∀ c ∈ w.socks, ∀ a, (w.sock c).entry = some a →
    (w.sock c).readSocket = .httpCacheRead → ∃ w', w.step cfg (.disconnect c) = some w' ∧
      w'.cache.entry a = none ∧ ∀ file, w'.cache.svzHashGet file ≠ some a

theorem World.Good.removed (h : Good w) {c : Nat} (hc : c ∈ w.socks) {a : Addr}
    (hentry : (w.sock c).entry = some a) (hread : (w.sock c).readSocket = .httpCacheRead) :
    ∃ w', w.step cfg (.disconnect c) = some w' ∧ w'.cache.entry a = none ∧
      ∀ file, w'.cache.svzHashGet file ≠ some a := by
  have howned : Owned (w.set c w.cache (w.sock c)) := (set_self w c).symm ▸ h.owned
  have hreading : (w.sock c).reading = true := decide_eq_true hread
  obtain ⟨g', s', hfree, heffects, -, -, hgone⟩ :=
    httpCacheDisconnect_effects plain_plain howned hc
  have hgone := hgone hreading a hentry
  obtain ⟨l, hl⟩ : ∃ l, Listed g' l := (noRefresh_plain.owned howned hc heffects).listed
  refine ⟨{ w with cache := g', socks := w.socks.erase c }, ?_, hgone, ?_⟩
  · unfold World.step
    simp only [if_pos hc, ((h.owned.socks c hc).filling hreading).1, hfree, Option.map_some]
  · intro file hget
    obtain ⟨e, he, -⟩ := hl.svzHashGet_eq_some_iff.mp hget
    exact absurd (hgone.symm.trans he) nofun

theorem World.Good.unstuck (h : Good w) (hfilled : w.Filled) : w.Unstuck cfg where
  reader a e he hready := by
    obtain ⟨c, hc, hreading, hentry⟩ := hfilled.reader a e.unlinked (dataOf_eq_some he) hready
    refine ⟨c, ⟨hc, hentry, of_decide_eq_true hreading⟩, ?_⟩
    rintro d ⟨hd, hentry', hread'⟩
    exact h.owned.eq_of_reading hc hd hreading (decide_eq_true hread') hentry hentry'
  removed c hc a hentry hread := h.removed hc hentry hread

theorem filled_step (hgood : Good w) (hfilled : w.Filled) (hunbroken : w.Unbroken cfg event)
    (hstep : Stepped cfg (w.kinds cfg event) event.conn w w') : w'.Filled := by
  generalize event.conn = c at hstep
  refine (hstep.keep hgood hfilled (refresh_unshared hunbroken.careful) ?_ ?_ ?_).2
  · intro hc k g₁ s₁ g₂ s₂ hk howned hI heffect _
    refine filled_effect hc (howned.sockOk hc) hI ?_ ?_ ?_ ?_ heffect
    · rintro rfl
      obtain ⟨p, hp, hbreaks⟩ := hk
      exact absurd ((hunbroken.unbroken p hp).symm.trans hbreaks) nofun
    · rintro rfl
      obtain ⟨d, hd, -, hreading, hdone⟩ := hk
      exact absurd ((hfilled.undone d hd hreading).symm.trans hdone) nofun
    · rintro v rfl
      obtain ⟨d, req, hreq, -, -, hdone⟩ := hk
      exact absurd ((hunbroken.undone (d, req) hreq).symm.trans (hdone rfl)) nofun
    · rintro a v rfl
      obtain ⟨d, req, hreq, -, -, hdone⟩ := hk
      exact absurd ((hunbroken.undone (d, req) hreq).symm.trans (hdone rfl)) nofun
  · intro hc
    have hsock : ∀ d ∈ w.socks,
        Function.update w.sock c (httpConnectSocket cfg) d = w.sock d := by
      intro d hd
      refine Function.update_of_ne ?_ _ _
      rintro rfl
      exact hc hd
    constructor
    · intro a e he hready
      obtain ⟨d, hd, hread, hentry⟩ := hfilled.reader a e he hready
      refine ⟨d, List.mem_cons_of_mem _ hd, ?_⟩
      change (Function.update w.sock c (httpConnectSocket cfg) d).reading = true ∧
        (Function.update w.sock c (httpConnectSocket cfg) d).entry = some a
      rw [hsock d hd]
      exact ⟨hread, hentry⟩
    · intro d hd
      change (Function.update w.sock c (httpConnectSocket cfg) d).reading = true →
        (Function.update w.sock c (httpConnectSocket cfg) d).flagDone = false
      rcases List.mem_cons.mp hd with rfl | hd
      · rw [Function.update_self]
        exact fun _ => rfl
      · rw [hsock d hd]
        exact hfilled.undone d hd
  · intro hc g' s' hI _ hreading'
    have hsock : ∀ d ∈ w.socks.erase c, (w.set c g' s').sock d = w.sock d := by
      intro d hd
      exact set_sock_of_ne w g' s' (hgood.owned.nodup.mem_erase_iff.mp hd).1
    constructor
    · intro a e he hready
      obtain ⟨d, hd, hread, hentry⟩ := hI.reader a e he hready
      have hdc : d ≠ c := by
        rintro rfl
        rw [set_sock_self] at hread
        exact absurd (hreading'.symm.trans hread) nofun
      have hmem := (List.mem_erase_of_ne hdc).mpr hd
      rw [hsock d hmem] at hread hentry
      exact ⟨d, hmem, hread, hentry⟩
    · intro d hd hread
      exact hfilled.undone d (List.mem_of_mem_erase hd) hread

/-- **No entry is stuck.** -/
theorem cache_filled (cfg : HttpConfig) (entries : Nat) (events : List Event)
    (hunbroken : Meets cfg entries (fun w event => w.Unbroken cfg event) events) :
    Always cfg entries (fun w => w.Unstuck cfg) events := by
  have halways := always_good (I := World.Filled) (fun _ _ h => h.careful) ⟨nofun, nofun⟩
    (fun _ _ _ hgood hI hC hstep => filled_step hgood hI hC hstep) hunbroken
  intro pre hpre
  obtain ⟨w, hw, hgood, -, hfilled⟩ := halways pre hpre
  exact ⟨w, hw, hgood.unstuck hfilled⟩

theorem cache_filled_fetchFile :
    Meets smallConfig 2 (fun w event => w.Unbroken smallConfig event) fetchFile ∧
      Always smallConfig 2 (fun w => w.Unstuck smallConfig) fetchFile :=
  ⟨meets_of_forall (by decide), cache_filled _ _ _ (meets_of_forall (by decide))⟩

/-- An error comes after the first byte of a file, and the connection is closed. -/
def breakOff : List Event :=
  [.connect 0, .receive 0 getBytes (.get (getFile 1)) flushNothing, .readFile 0 (.data 1),
    .readFile 0 .error, .disconnect 0]

/-- The entry stays, and there is no connection any more. -/
theorem cache_not_always_filled :
    ¬ ∀ cfg entries events, Always cfg entries (fun w => w.Unstuck cfg) events := by
  intro h
  obtain ⟨w, hw, hunstuck⟩ := h smallConfig 2 breakOff breakOff (List.prefix_refl _)
  have hleft : (World.run smallConfig 2 breakOff).all (fun w =>
      w.socks = [] && (w.cache.entry 0).any fun e => !e.ready) = true := by decide
  rw [hw, Option.all_some, Bool.and_eq_true, decide_eq_true_iff, Option.any_eq_true] at hleft
  obtain ⟨hsocks, e, he, hready⟩ := hleft
  obtain ⟨c, ⟨hc, -⟩, -⟩ := hunstuck.reader 0 e he (Bool.not_eq_true' _ ▸ hready)
  rw [hsocks] at hc
  cases hc

end Serveez.Transfer
