import Serveez.Http.Cache
import Serveez.Lib.DoublyLinked
import Serveez.Lib.Heap
import Mathlib.Data.List.Induction
import Mathlib.Data.List.Perm.Subperm

/-!
# The list and the table of the cache

`Listed g l` says that the cache `g` holds exactly the entries `l`, most recent first: they are
doubly linked in this order from `first` to `last`, each stands in the table under its file
name, the accesses to their files are ordered in time, and there are not too many of them.

* `httpUrgentCache_chain`, `httpCheckCache_spec`: a file that is looked up moves to the front.
* `httpCacheDestroyEntry_spec`: an entry is taken out.
* `httpInitCache_spec`: an entry comes in at the front; the one that has to make room is the
  last of the list that is ready and not in use.

What is not about links is compared with `unlinked`.
-/

namespace Serveez.Transfer

open Lib

/-- The fields of an entry apart from the links. -/
def CacheEntry.unlinked (e : CacheEntry) : CacheEntry := { e with next := none, prev := none }

theorem CacheEntry.fields_eq {e e' : CacheEntry} (h : e'.unlinked = e.unlinked) :
    e'.file = e.file ∧ e'.ready = e.ready ∧ e'.usage = e.usage ∧ e'.buffer = e.buffer ∧
      e'.size = e.size := by
  simp only [unlinked, CacheEntry.mk.injEq, true_and] at h
  exact ⟨h.2.2.1, h.2.2.2.2.2.2, h.2.2.2.2.1, h.1, h.2.1⟩

namespace Cache

/-- The links of the entries of a heap. -/
def nextOf (h : Addr → Option CacheEntry) (a : Addr) : Option Addr := (h a).bind CacheEntry.next

def prevOf (h : Addr → Option CacheEntry) (a : Addr) : Option Addr := (h a).bind CacheEntry.prev

/-- The entries of a heap without their links. -/
def dataOf (h : Addr → Option CacheEntry) (a : Addr) : Option CacheEntry :=
  (h a).map CacheEntry.unlinked

/-- The last access to the file of an entry. -/
def stamp (g : Cache) (a : Addr) : Nat := g.accessed ((dataOf g.entry a).elim [] CacheEntry.file)

/-- The entries `l` of a heap are linked in this order. -/
structure Chain (h : Addr → Option CacheEntry) (first last : Option Addr) (l : List Addr) :
    Prop where
  seg : Seg (nextOf h) (prevOf h) none l none
  nodup : l.Nodup
  live : ∀ a ∈ l, ∃ e, h a = some e
  first_eq : first = l.head?
  last_eq : last = l.getLast?

structure Listed (g : Cache) (l : List Addr) : Prop where
  chain : Chain g.entry g.first g.last l
  mem_of_live : ∀ a e, g.entry a = some e → a ∈ l
  keys : (g.httpCache.map Prod.fst).Nodup
  table : ∀ file a, (file, a) ∈ g.httpCache ↔ ∃ e, g.entry a = some e ∧ e.file = file
  length : g.httpCache.length = l.length
  room : l.length ≤ g.httpCacheEntries
  recent : l.Pairwise fun a b => g.stamp b < g.stamp a
  clock_le : ∀ file, g.accessed file ≤ g.clock
  fresh : ∀ a e, g.entry a = some e → a < g.nextEntry

variable {g : Cache} {l l₁ l₂ : List Addr} {a : Addr} {e : CacheEntry}

/-! ## Accesses -/

theorem modify_eq (h : g.entry a = some e) (f : CacheEntry → CacheEntry) :
    g.modify a f = some { g with entry := Function.update g.entry a (some (f e)) } := by
  rw [modify, h]
  rfl

theorem dataOf_eq_some {h : Addr → Option CacheEntry} (he : h a = some e) :
    dataOf h a = some e.unlinked := by
  rw [dataOf, he]
  rfl

theorem exists_of_dataOf {h h' : Addr → Option CacheEntry} (hd : dataOf h' a = dataOf h a)
    (he : h a = some e) : ∃ e', h' a = some e' ∧ e'.unlinked = e.unlinked := by
  rw [dataOf_eq_some he, dataOf, Option.map_eq_some_iff] at hd
  exact hd

theorem dataOf_update {h : Addr → Option CacheEntry} {e' : CacheEntry} (he : h a = some e)
    (hd : e'.unlinked = e.unlinked) : dataOf (Function.update h a (some e')) = dataOf h := by
  funext z
  by_cases hz : z = a
  · subst hz
    rw [dataOf_eq_some he, dataOf, Function.update_self, Option.map_some, hd]
  · rw [dataOf, dataOf, Function.update_of_ne hz]

theorem nextOf_update (h : Addr → Option CacheEntry) (a : Addr) (e : CacheEntry) (z : Addr) :
    nextOf (Function.update h a (some e)) z = if z = a then e.next else nextOf h z := by
  by_cases hz : z = a
  · subst hz
    rw [if_pos rfl, nextOf, Function.update_self, Option.bind_some]
  · rw [if_neg hz, nextOf, nextOf, Function.update_of_ne hz]

theorem prevOf_update (h : Addr → Option CacheEntry) (a : Addr) (e : CacheEntry) (z : Addr) :
    prevOf (Function.update h a (some e)) z = if z = a then e.prev else prevOf h z := by
  by_cases hz : z = a
  · subst hz
    rw [if_pos rfl, prevOf, Function.update_self, Option.bind_some]
  · rw [if_neg hz, prevOf, prevOf, Function.update_of_ne hz]

theorem nextOf_eq (h : Addr → Option CacheEntry) (he : h a = some e) : nextOf h a = e.next := by
  rw [nextOf, he, Option.bind_some]

theorem prevOf_eq (h : Addr → Option CacheEntry) (he : h a = some e) : prevOf h a = e.prev := by
  rw [prevOf, he, Option.bind_some]

/-! ## Splices -/

variable {first last : Option Addr} {file : FileName}

theorem Chain.next_eq {h : Addr → Option CacheEntry} (hc : Chain h first last (l₁ ++ a :: l₂))
    (he : h a = some e) : e.next = l₂.head? :=
  (nextOf_eq h he).symm.trans hc.seg.next_eq

theorem Chain.prev_eq {h : Addr → Option CacheEntry} (hc : Chain h first last (l₁ ++ a :: l₂))
    (he : h a = some e) : e.prev = l₁.getLast? :=
  (prevOf_eq h he).symm.trans hc.seg.prev_eq

theorem linkNext_spec (g : Cache) (p v : Option Addr)
    (hp : ∀ q, p = some q → ∃ e, g.entry q = some e) :
    ∃ h, g.linkNext p v = some { g with entry := h, first := if p = none then v else g.first } ∧
      dataOf h = dataOf g.entry ∧
      (∀ z, nextOf h z = if p = some z then v else nextOf g.entry z) ∧
      ∀ z, prevOf h z = prevOf g.entry z := by
  cases p with
  | none => exact ⟨g.entry, rfl, rfl, fun z => rfl, fun z => rfl⟩
  | some q =>
    obtain ⟨e, he⟩ := hp q rfl
    refine ⟨Function.update g.entry q (some { e with next := v }), ?_, dataOf_update he rfl, ?_, ?_⟩
    · exact modify_eq he _
    · intro z
      rw [nextOf_update]
      simp only [Option.some_inj, eq_comm]
    · intro z
      rw [prevOf_update]
      split
      · next hz => rw [hz, prevOf_eq _ he]
      · rfl

theorem linkPrev_spec (g : Cache) (n v : Option Addr)
    (hn : ∀ q, n = some q → ∃ e, g.entry q = some e) :
    ∃ h, g.linkPrev n v = some { g with entry := h, last := if n = none then v else g.last } ∧
      dataOf h = dataOf g.entry ∧
      (∀ z, nextOf h z = nextOf g.entry z) ∧
      ∀ z, prevOf h z = if n = some z then v else prevOf g.entry z := by
  cases n with
  | none => exact ⟨g.entry, rfl, rfl, fun z => rfl, fun z => rfl⟩
  | some q =>
    obtain ⟨e, he⟩ := hn q rfl
    refine ⟨Function.update g.entry q (some { e with prev := v }), ?_, dataOf_update he rfl, ?_, ?_⟩
    · exact modify_eq he _
    · intro z
      rw [nextOf_update]
      split
      · next hz => rw [hz, nextOf_eq _ he]
      · rfl
    · intro z
      rw [prevOf_update]
      simp only [Option.some_inj, eq_comm]

/-- After `unlink` the other entries are linked as before, without the one taken out. -/
theorem unlink_spec (hc : Chain g.entry g.first g.last (l₁ ++ a :: l₂))
    (he : g.entry a = some e) :
    ∃ h first last, g.unlink e = some { g with entry := h, first := first, last := last } ∧
      dataOf h = dataOf g.entry ∧ Chain h first last (l₁ ++ l₂) := by
  have hprev := hc.prev_eq he
  have hnext := hc.next_eq he
  have hlive : ∀ q ∈ l₁ ++ l₂, ∃ e, g.entry q = some e := by
    intro q hq
    refine hc.live q ?_
    rcases List.mem_append.mp hq with hq | hq
    · exact List.mem_append_left _ hq
    · exact List.mem_append_right _ (List.mem_cons_of_mem _ hq)
  obtain ⟨h₁, hstep₁, hdata₁, hnext₁, hprev₁⟩ := linkNext_spec g e.prev e.next (by
    intro q hq
    rw [hprev] at hq
    exact hlive q (List.mem_append_left _ (List.mem_of_getLast? hq)))
  obtain ⟨h₂, hstep₂, hdata₂, hnext₂, hprev₂⟩ := linkPrev_spec
    { g with entry := h₁, first := if e.prev = none then e.next else g.first } e.next e.prev (by
      intro q hq
      rw [hnext] at hq
      obtain ⟨e', he'⟩ := hlive q (List.mem_append_right _ (List.mem_of_head? hq))
      obtain ⟨e'', he'', -⟩ := exists_of_dataOf (congrFun hdata₁ q) he'
      exact ⟨e'', he''⟩)
  have hdata : dataOf h₂ = dataOf g.entry := hdata₂.trans hdata₁
  refine ⟨h₂, if e.prev = none then e.next else g.first, if e.next = none then e.prev else g.last,
    ?_, hdata, ?_⟩
  · rw [unlink, hstep₁]
    exact hstep₂
  constructor
  · refine hc.seg.unlink hc.nodup ?_ ?_
    · intro z _
      rw [hnext₂, hnext₁, hprev, hnext]
    · intro z _
      rw [hprev₂, hprev₁, hprev, hnext]
  · exact hc.nodup.sublist ((List.Sublist.refl l₁).append (List.sublist_cons_self a l₂))
  · intro q hq
    obtain ⟨e', he'⟩ := hlive q hq
    obtain ⟨e'', he'', -⟩ := exists_of_dataOf (congrFun hdata q) he'
    exact ⟨e'', he''⟩
  · rw [hprev, hnext, hc.first_eq]
    cases l₁ <;> simp
  · rw [hprev, hnext, hc.last_eq]
    cases l₂ with
    | nil => simp
    | cons b l₂ => simp [List.getLast?_append, List.getLast?_cons]

theorem Chain.push {h : Addr → Option CacheEntry} (hc : Chain g.entry g.first g.last l)
    (ha : a ∉ l) (he : ∃ e, h a = some e) (hdata : ∀ z ∈ l, dataOf h z = dataOf g.entry z)
    (hnext : ∀ z ∈ l, nextOf h z = nextOf g.entry z)
    (hprev : ∀ z ∈ l, prevOf h z = if g.first = some z then some a else prevOf g.entry z)
    (hnexta : nextOf h a = g.first) (hpreva : prevOf h a = none) (hfirst : first = some a)
    (hlast : last = if g.first = none then some a else g.last) : Chain h first last (a :: l) where
  seg := by
    rw [hc.first_eq] at hprev hnexta
    exact hc.seg.push hc.nodup hnext hprev hnexta hpreva
  nodup := List.nodup_cons.mpr ⟨ha, hc.nodup⟩
  live := by
    intro q hq
    rcases List.mem_cons.mp hq with rfl | hq
    · exact he
    · obtain ⟨e', he'⟩ := hc.live q hq
      obtain ⟨e'', he'', -⟩ := exists_of_dataOf (hdata q hq) he'
      exact ⟨e'', he''⟩
  first_eq := hfirst
  last_eq := by
    rw [hlast, hc.first_eq, hc.last_eq]
    cases l with
    | nil => rfl
    | cons b l => simp [List.getLast?_cons]

/-- The splices of `http_urgent_cache`: the entry is in front, the others keep their order. -/
theorem httpUrgentCache_chain (hc : Chain g.entry g.first g.last (l₁ ++ a :: l₂)) :
    ∃ h first last,
      g.httpUrgentCache a = some { g with entry := h, first := first, last := last } ∧
        dataOf h = dataOf g.entry ∧ Chain h first last (a :: (l₁ ++ l₂)) := by
  obtain ⟨e, he⟩ := hc.live a (by simp)
  have hprev := hc.prev_eq he
  have ha : a ∉ l₁ ++ l₂ := by
    have hnd := (List.nodup_middle).mp hc.nodup
    exact (List.nodup_cons.mp hnd).1
  rcases List.eq_nil_or_concat' l₁ with rfl | ⟨l₀, p, rfl⟩
  · refine ⟨g.entry, g.first, g.last, ?_, rfl, hc⟩
    rw [httpUrgentCache, he, Option.bind_eq_bind, Option.bind_some, hprev]
    rfl
  · obtain ⟨h₁, first, last, hunlink, hdata₁, hchain⟩ := unlink_spec hc he
    obtain ⟨f, rfl⟩ : ∃ f, first = some f := by
      rw [hchain.first_eq]
      cases l₀ <;> simp
    obtain ⟨h₂, hlink, hdata₂, hnext₂, hprev₂⟩ := linkPrev_spec
      { g with entry := h₁, first := some f, last := last } (some f) (some a) (by
        intro q hq
        rw [hchain.first_eq] at hq
        exact hchain.live q (List.mem_of_head? hq))
    have hdata : dataOf h₂ = dataOf g.entry := hdata₂.trans hdata₁
    obtain ⟨e₂, he₂, hunlinked⟩ := exists_of_dataOf (congrFun hdata a) he
    let e₃ : CacheEntry := { e₂ with next := some f, prev := none }
    have hdata₃ : dataOf (Function.update h₂ a (some e₃)) = dataOf h₂ := dataOf_update he₂ rfl
    refine ⟨Function.update h₂ a (some e₃), some a, last, ?_, hdata₃.trans hdata, ?_⟩
    · rw [httpUrgentCache, he, Option.bind_eq_bind, Option.bind_some, hprev,
        List.getLast?_concat]
      simp only [hunlink, Option.bind_eq_bind, Option.bind_some]
      rw [hlink, Option.bind_some, modify_eq he₂]
      rfl
    · have hne : ∀ z ∈ l₀ ++ [p] ++ l₂, z ≠ a := fun z hz hza => ha (hza ▸ hz)
      apply hchain.push (g := { g with entry := h₁, first := some f, last := last }) ha
      · exact ⟨e₃, Function.update_self _ _ _⟩
      · intro z hz
        exact congrFun (hdata₃.trans hdata₂) z
      · intro z hz
        rw [nextOf_update, if_neg (hne z hz), hnext₂]
      · intro z hz
        rw [prevOf_update, if_neg (hne z hz), hprev₂]
      · rw [nextOf_update, if_pos rfl]
      · rw [prevOf_update, if_pos rfl]
      · rfl
      · rw [if_neg nofun]

/-! ## The table -/

theorem Listed.eq_of_file_eq (h : Listed g l) {b : Addr} {f : CacheEntry}
    (he : g.entry a = some e) (hf : g.entry b = some f) (hfile : e.file = f.file) : a = b := by
  have ha := (h.table e.file a).mpr ⟨e, he, rfl⟩
  have hb := (h.table e.file b).mpr ⟨f, hf, hfile.symm⟩
  exact congrArg Prod.snd (List.inj_on_of_nodup_map h.keys ha hb rfl)

theorem Listed.svzHashGet_eq_some_iff (h : Listed g l) :
    g.svzHashGet file = some a ↔ ∃ e, g.entry a = some e ∧ e.file = file := by
  rw [← h.table, svzHashGet, Option.map_eq_some_iff]
  constructor
  · rintro ⟨p, hfind, rfl⟩
    have hkey : p.1 = file := by simpa using List.find?_some hfind
    have hmem := List.mem_of_find?_eq_some hfind
    rwa [← hkey]
  · intro hmem
    obtain ⟨p, hp⟩ : ∃ p, g.httpCache.find? (fun p => p.1 = file) = some p := by
      rw [← Option.isSome_iff_exists, List.find?_isSome]
      exact ⟨_, hmem, by simp⟩
    have hkey : p.1 = file := by simpa using List.find?_some hp
    refine ⟨p, hp, ?_⟩
    exact congrArg Prod.snd
      (List.inj_on_of_nodup_map h.keys (List.mem_of_find?_eq_some hp) hmem hkey)

theorem Listed.svzHashGet_eq_none_iff (h : Listed g l) :
    g.svzHashGet file = none ↔ ∀ a e, g.entry a = some e → e.file ≠ file := by
  rw [Option.eq_none_iff_forall_ne_some]
  constructor
  · intro hnone a e he hfile
    exact hnone a (h.svzHashGet_eq_some_iff.mpr ⟨e, he, hfile⟩)
  · intro hall a hget
    obtain ⟨e, he, hfile⟩ := h.svzHashGet_eq_some_iff.mp hget
    exact hall a e he hfile

theorem stamp_eq (g : Cache) (he : g.entry a = some e) : g.stamp a = g.accessed e.file := by
  rw [stamp, dataOf_eq_some he]
  rfl

theorem stamp_congr {g g' : Cache} (haccessed : g'.accessed = g.accessed)
    (hdata : dataOf g'.entry a = dataOf g.entry a) : g'.stamp a = g.stamp a := by
  rw [stamp, stamp, haccessed, hdata]

/-- The table after the key of an entry has gone. -/
theorem length_filter_keys {t : List (FileName × Addr)} (hkeys : (t.map Prod.fst).Nodup)
    (hmem : (file, a) ∈ t) :
    (t.filter fun p => p.1 ≠ file).length + 1 = t.length := by
  have hkey : file ∈ t.map Prod.fst := List.mem_map_of_mem hmem
  have hfilter : (t.filter fun p => p.1 ≠ file).map Prod.fst = (t.map Prod.fst).erase file := by
    rw [hkeys.erase_eq_filter, List.filter_map]
    congr 1
    apply List.filter_congr
    intro p _
    by_cases hp : p.1 = file <;> simp [hp]
  have hlen := congrArg List.length hfilter
  rw [List.length_map, List.length_erase_of_mem hkey, List.length_map] at hlen
  have hpos := List.length_pos_of_mem hmem
  omega

/-! ## The operations on a listed cache -/

/-- Changes of the heap that leave links and names alone. -/
theorem Listed.congr {g' : Cache} (h : Listed g l)
    (hentry : ∀ a, (g'.entry a).map (fun e => (e.next, e.prev, e.file)) =
      (g.entry a).map (fun e => (e.next, e.prev, e.file)))
    (hrest : g' = { g with entry := g'.entry, block := g'.block, nextBlock := g'.nextBlock }) :
    Listed g' l := by
  have hlive : ∀ a e', g'.entry a = some e' →
      ∃ e, g.entry a = some e ∧ e'.next = e.next ∧ e'.prev = e.prev ∧ e'.file = e.file := by
    intro a e' he'
    have heq := hentry a
    rw [he', Option.map_some, eq_comm, Option.map_eq_some_iff] at heq
    obtain ⟨e, he, hfields⟩ := heq
    simp only [Prod.mk.injEq] at hfields
    exact ⟨e, he, hfields.1.symm, hfields.2.1.symm, hfields.2.2.symm⟩
  have hlive' : ∀ a e, g.entry a = some e →
      ∃ e', g'.entry a = some e' ∧ e'.next = e.next ∧ e'.prev = e.prev ∧ e'.file = e.file := by
    intro a e he
    have heq := hentry a
    rw [he, Option.map_some, Option.map_eq_some_iff] at heq
    obtain ⟨e', he', hfields⟩ := heq
    simp only [Prod.mk.injEq] at hfields
    exact ⟨e', he', hfields⟩
  have hstamp : ∀ a, g'.stamp a = g.stamp a := by
    intro a
    cases he : g.entry a with
    | none =>
      have hnone : g'.entry a = none := by
        have heq := hentry a
        rwa [he, Option.map_none, Option.map_eq_none_iff] at heq
      rw [stamp, stamp, dataOf, dataOf, he, hnone, hrest]
    | some e =>
      obtain ⟨e', he', -, -, hfile⟩ := hlive' a e he
      rw [stamp_eq g he, stamp_eq g' he', hfile, hrest]
  constructor
  · constructor
    · refine h.chain.seg.congr ?_ ?_
      · intro a ha
        obtain ⟨e, he⟩ := h.chain.live a ha
        obtain ⟨e', he', hnext, -⟩ := hlive' a e he
        rw [nextOf_eq _ he, nextOf_eq _ he', hnext]
      · intro a ha
        obtain ⟨e, he⟩ := h.chain.live a ha
        obtain ⟨e', he', -, hprev, -⟩ := hlive' a e he
        rw [prevOf_eq _ he, prevOf_eq _ he', hprev]
    · exact h.chain.nodup
    · intro a ha
      obtain ⟨e, he⟩ := h.chain.live a ha
      obtain ⟨e', he', -⟩ := hlive' a e he
      exact ⟨e', he'⟩
    · rw [hrest]
      exact h.chain.first_eq
    · rw [hrest]
      exact h.chain.last_eq
  · intro a e' he'
    obtain ⟨e, he, -⟩ := hlive a e' he'
    exact h.mem_of_live a e he
  · rw [hrest]
    exact h.keys
  · intro file a
    have htable : g'.httpCache = g.httpCache := by rw [hrest]
    rw [htable, h.table]
    constructor
    · rintro ⟨e, he, hfile⟩
      obtain ⟨e', he', -, -, hfile'⟩ := hlive' a e he
      exact ⟨e', he', hfile'.trans hfile⟩
    · rintro ⟨e', he', hfile⟩
      obtain ⟨e, he, -, -, hfile'⟩ := hlive a e' he'
      exact ⟨e, he, hfile'.symm.trans hfile⟩
  · rw [hrest]
    exact h.length
  · rw [hrest]
    exact h.room
  · simp only [hstamp]
    exact h.recent
  · rw [hrest]
    exact h.clock_le
  · intro a e' he'
    obtain ⟨e, he, -⟩ := hlive a e' he'
    rw [hrest]
    exact h.fresh a e he

theorem exists_of_dataOf_eq {h h' : Addr → Option CacheEntry} (hd : dataOf h' = dataOf h) :
    (∃ e, h' a = some e) ↔ ∃ e, h a = some e := by
  constructor
  · rintro ⟨e, he⟩
    obtain ⟨e', he', -⟩ := exists_of_dataOf (congrFun hd.symm a) he
    exact ⟨e', he'⟩
  · rintro ⟨e, he⟩
    obtain ⟨e', he', -⟩ := exists_of_dataOf (congrFun hd a) he
    exact ⟨e', he'⟩

theorem file_eq_of_dataOf {h h' : Addr → Option CacheEntry} (hd : dataOf h' a = dataOf h a) :
    (∃ e, h' a = some e ∧ e.file = file) ↔ ∃ e, h a = some e ∧ e.file = file := by
  constructor
  · rintro ⟨e, he, hfile⟩
    obtain ⟨e', he', heq⟩ := exists_of_dataOf hd.symm he
    exact ⟨e', he', (CacheEntry.fields_eq heq).1.trans hfile⟩
  · rintro ⟨e, he, hfile⟩
    obtain ⟨e', he', heq⟩ := exists_of_dataOf hd he
    exact ⟨e', he', (CacheEntry.fields_eq heq).1.trans hfile⟩

theorem Listed.stamp_touched (h : Listed g l) {h' : Addr → Option CacheEntry}
    (hdata : dataOf h' = dataOf g.entry) (he : g.entry a = some e) {b : Addr} (hb : b ∈ l)
    (hne : b ≠ a) :
    stamp { g.touch e.file with entry := h', first := first, last := last } b = g.stamp b := by
  obtain ⟨f, hf⟩ := h.chain.live b hb
  obtain ⟨f', hf', heq⟩ := exists_of_dataOf (congrFun hdata b) hf
  have hfile : f'.file = f.file := (CacheEntry.fields_eq heq).1
  rw [stamp_eq g hf, stamp_eq _ hf', hfile]
  exact Function.update_of_ne (fun hsame => hne (h.eq_of_file_eq hf he hsame)) _ _

theorem Listed.touched (h : Listed g (l₁ ++ a :: l₂)) (he : g.entry a = some e)
    {h' : Addr → Option CacheEntry} (hdata : dataOf h' = dataOf g.entry)
    (hchain : Chain h' first last (a :: (l₁ ++ l₂))) :
    Listed { g.touch e.file with entry := h', first := first, last := last }
      (a :: (l₁ ++ l₂)) := by
  have hperm : (a :: (l₁ ++ l₂)).Perm (l₁ ++ a :: l₂) := List.perm_middle.symm
  have hmem : ∀ b, b ∈ l₁ ++ l₂ → b ∈ l₁ ++ a :: l₂ :=
    fun b hb => hperm.mem_iff.mp (List.mem_cons_of_mem _ hb)
  have hne : ∀ b ∈ l₁ ++ l₂, b ≠ a := by
    rintro b hb rfl
    exact (List.nodup_cons.mp hchain.nodup).1 hb
  constructor
  · exact hchain
  · intro b f hf
    obtain ⟨f', hf'⟩ := (exists_of_dataOf_eq hdata).mp ⟨f, hf⟩
    exact hperm.mem_iff.mpr (h.mem_of_live b f' hf')
  · exact h.keys
  · intro file b
    exact (h.table file b).trans (file_eq_of_dataOf (congrFun hdata b)).symm
  · exact h.length.trans hperm.length_eq.symm
  · exact hperm.length_eq ▸ h.room
  · rw [List.pairwise_cons]
    constructor
    · intro b hb
      obtain ⟨e', he', heq⟩ := exists_of_dataOf (congrFun hdata a) he
      have hfile : e'.file = e.file := (CacheEntry.fields_eq heq).1
      have hstamp := stamp_eq { g.touch e.file with entry := h', first := first, last := last } he'
      rw [h.stamp_touched hdata he (hmem b hb) (hne b hb), hstamp, hfile]
      have hself : (g.touch e.file).accessed e.file = g.clock + 1 := Function.update_self _ _ _
      exact Nat.lt_of_le_of_lt (h.clock_le _) (hself ▸ Nat.lt_succ_self _)
    · have hsub : (l₁ ++ l₂).Sublist (l₁ ++ a :: l₂) :=
        (List.Sublist.refl l₁).append (List.sublist_cons_self a l₂)
      refine (h.recent.sublist hsub).imp_of_mem ?_
      intro b c hb hc hlt
      rwa [h.stamp_touched hdata he (hmem b hb) (hne b hb),
        h.stamp_touched hdata he (hmem c hc) (hne c hc)]
  · intro file
    by_cases hfile : file = e.file
    · subst hfile
      exact Nat.le_of_eq (Function.update_self _ _ _)
    · have hold : (g.touch e.file).accessed file = g.accessed file :=
        Function.update_of_ne hfile _ _
      exact Nat.le_trans (Nat.le_of_eq hold) (Nat.le_succ_of_le (h.clock_le file))
  · intro b f hf
    obtain ⟨f', hf'⟩ := (exists_of_dataOf_eq hdata).mp ⟨f, hf⟩
    exact h.fresh b f' hf'

/-- What the cache remembers apart from links, the list and the times of accesses. -/
structure SameData (g g' : Cache) : Prop where
  data : dataOf g'.entry = dataOf g.entry
  block : g'.block = g.block
  nextBlock : g'.nextBlock = g.nextBlock
  nextEntry : g'.nextEntry = g.nextEntry
  table : g'.httpCache = g.httpCache
  entries : g'.httpCacheEntries = g.httpCacheEntries

/-- **A lookup.** It answers what is known of the file, and moves a known one to the front. -/
theorem Listed.httpCheckCache_spec (h : Listed g l) (file : FileName) (cache : HttpCache) :
    (g.httpCheckCache file cache = some (g, cache, .no) ∧ g.svzHashGet file = none) ∨
      ∃ a e g' l', g.entry a = some e ∧ e.file = file ∧ SameData g g' ∧ Listed g' l' ∧
        g.httpCheckCache file cache = some (g',
          if e.ready then (⟨e.buffer, e.size, some a⟩, .complete)
          else (cache, .incomplete)) := by
  unfold httpCheckCache
  cases hget : g.svzHashGet file with
  | none => exact Or.inl ⟨rfl, rfl⟩
  | some a =>
    refine Or.inr ?_
    obtain ⟨e, he, rfl⟩ := h.svzHashGet_eq_some_iff.mp hget
    obtain ⟨l₁, l₂, rfl⟩ := List.append_of_mem (h.mem_of_live a e he)
    have hchain : Chain (g.touch e.file).entry (g.touch e.file).first (g.touch e.file).last
      (l₁ ++ a :: l₂) := h.chain
    obtain ⟨h', first, last, hurgent, hdata, hchain'⟩ := httpUrgentCache_chain hchain
    obtain ⟨e', he', heq⟩ := exists_of_dataOf (congrFun hdata a) he
    obtain ⟨-, hready, -, hbuffer, hsize⟩ := CacheEntry.fields_eq heq
    refine ⟨a, e, { g.touch e.file with entry := h', first := first, last := last }, _, he, rfl,
      ⟨hdata, rfl, rfl, rfl, rfl, rfl⟩, h.touched he hdata hchain', ?_⟩
    simp only [hurgent, Option.bind_eq_bind, Option.bind_some, he', hready, hbuffer, hsize]
    split <;> rfl

/-- The blocks after a buffer has been freed. -/
def without (block : Nat → Option (List UInt8)) : Option Ptr → Nat → Option (List UInt8)
  | none => block
  | some p => Function.update block p.block none

/-- The pointer is `NULL` or the start of an allocated block. -/
def Freeable (g : Cache) (p : Option Ptr) : Prop :=
  ∀ q, p = some q → q.off = 0 ∧ ∃ x, g.block q.block = some x

theorem freeBlock_spec (g : Cache) (p : Option Ptr) (hp : g.Freeable p) :
    g.freeBlock p = some { g with block := without g.block p } := by
  cases p with
  | none => rfl
  | some q =>
    obtain ⟨hoff, x, hx⟩ := hp q rfl
    rw [freeBlock, if_pos ⟨hoff, by rw [hx]; rfl⟩]
    rfl

/-- The buffer that goes with an entry. -/
def CacheEntry.released (e : CacheEntry) : Option Ptr := if e.ready then e.buffer else none

theorem dataOf_put (h : Addr → Option CacheEntry) (a : Addr) (e : Option CacheEntry) :
    dataOf (Function.update h a e) =
      Function.update (dataOf h) a (e.map CacheEntry.unlinked) := by
  funext z
  by_cases hz : z = a
  · subst hz
    rw [dataOf, Function.update_self, Function.update_self]
  · rw [dataOf, Function.update_of_ne hz, Function.update_of_ne hz]
    rfl

theorem Listed.destroyed (h : Listed g (l₁ ++ a :: l₂)) (he : g.entry a = some e)
    {h' : Addr → Option CacheEntry} {block : Nat → Option (List UInt8)}
    (hdata : dataOf h' = dataOf g.entry) (hchain : Chain h' first last (l₁ ++ l₂)) :
    Listed { g with
      httpCache := g.httpCache.filter fun p => p.1 ≠ e.file
      entry := Function.update h' a none, first := first, last := last, block := block }
      (l₁ ++ l₂) := by
  have hsub : (l₁ ++ l₂).Sublist (l₁ ++ a :: l₂) :=
    (List.Sublist.refl l₁).append (List.sublist_cons_self a l₂)
  have hne : ∀ b ∈ l₁ ++ l₂, b ≠ a := by
    rintro b hb rfl
    exact (List.nodup_cons.mp (List.nodup_middle.mp h.chain.nodup)).1 hb
  have hlen : (l₁ ++ a :: l₂).length = (l₁ ++ l₂).length + 1 := by
    rw [List.length_append, List.length_cons, List.length_append, Nat.add_assoc]
  have hsame : ∀ b ∈ l₁ ++ l₂, Function.update h' a none b = h' b :=
    fun b hb => Function.update_of_ne (hne b hb) _ _
  have hfrom : ∀ b f, Function.update h' a none b = some f →
      b ≠ a ∧ ∃ f', g.entry b = some f' ∧ f'.file = f.file := by
    intro b f hf
    obtain ⟨hba, hf⟩ := update_none_eq_some_iff.mp hf
    exact ⟨hba, (file_eq_of_dataOf (congrFun hdata b)).mp ⟨f, hf, rfl⟩⟩
  constructor
  · refine ⟨?_, hchain.nodup, ?_, hchain.first_eq, hchain.last_eq⟩
    · refine hchain.seg.congr ?_ ?_
      · intro b hb
        exact congrArg (Option.bind · CacheEntry.next) (hsame b hb)
      · intro b hb
        exact congrArg (Option.bind · CacheEntry.prev) (hsame b hb)
    · intro b hb
      obtain ⟨f, hf⟩ := hchain.live b hb
      exact ⟨f, (hsame b hb).trans hf⟩
  · intro b f hf
    obtain ⟨hba, f', hf', -⟩ := hfrom b f hf
    have hb := h.mem_of_live b f' hf'
    simp only [List.mem_append, List.mem_cons, hba, false_or] at hb ⊢
    exact hb
  · exact h.keys.sublist (List.filter_sublist.map Prod.fst)
  · intro file b
    change (file, b) ∈ g.httpCache.filter (fun p => p.1 ≠ e.file) ↔ _
    rw [List.mem_filter, h.table]
    constructor
    · rintro ⟨⟨f, hf, rfl⟩, hfile⟩
      have hba : b ≠ a := by
        rintro rfl
        rw [he, Option.some_inj] at hf
        subst hf
        simp at hfile
      obtain ⟨f', hf', hfile'⟩ := (file_eq_of_dataOf (congrFun hdata b)).mpr ⟨f, hf, rfl⟩
      exact ⟨f', (Function.update_of_ne hba _ _).trans hf', hfile'⟩
    · rintro ⟨f, hf, rfl⟩
      obtain ⟨hba, f', hf', hfile⟩ := hfrom b f hf
      refine ⟨⟨f', hf', hfile⟩, decide_eq_true ?_⟩
      intro hsamefile
      exact hba (h.eq_of_file_eq hf' he (hfile.trans hsamefile))
  · have hkeys := length_filter_keys h.keys ((h.table e.file a).mpr ⟨e, he, rfl⟩)
    have hlength := h.length
    change (g.httpCache.filter fun p => p.1 ≠ e.file).length = _
    omega
  · exact Nat.le_trans hsub.length_le h.room
  · refine (h.recent.sublist hsub).imp_of_mem ?_
    intro b c hb hc hlt
    have hstamp : ∀ d ∈ l₁ ++ l₂, stamp { g with
        httpCache := g.httpCache.filter fun p => p.1 ≠ e.file
        entry := Function.update h' a none, first := first, last := last, block := block } d =
          g.stamp d := by
      intro d hd
      refine stamp_congr rfl (Eq.trans ?_ (congrFun hdata d))
      exact congrArg (Option.map CacheEntry.unlinked) (hsame d hd)
    rwa [hstamp b hb, hstamp c hc]
  · exact h.clock_le
  · intro b f hf
    obtain ⟨-, f', hf', -⟩ := hfrom b f hf
    exact h.fresh b f' hf'

/-- **An entry is destroyed.** It leaves the list and the table, and its buffer is freed. -/
theorem Listed.httpCacheDestroyEntry_spec (h : Listed g l) (he : g.entry a = some e)
    (hbuffer : g.Freeable (CacheEntry.released e)) :
    ∃ g', g.httpCacheDestroyEntry a = some g' ∧ Listed g' (l.erase a) ∧
      dataOf g'.entry = Function.update (dataOf g.entry) a none ∧
      g'.block = without g.block (CacheEntry.released e) ∧ g'.nextBlock = g.nextBlock ∧
      g'.nextEntry = g.nextEntry ∧ g'.httpCacheEntries = g.httpCacheEntries := by
  obtain ⟨l₁, l₂, rfl⟩ := List.append_of_mem (h.mem_of_live a e he)
  have hnot : a ∉ l₁ := by
    intro ha
    have hnd := List.nodup_cons.mp (List.nodup_middle.mp h.chain.nodup)
    exact hnd.1 (List.mem_append_left _ ha)
  obtain ⟨h', first, last, hunlink, hdata, hchain⟩ :=
    unlink_spec (g := g.svzHashDelete e.file) h.chain he
  refine ⟨{ g with
    httpCache := g.httpCache.filter fun p => p.1 ≠ e.file
    entry := Function.update h' a none, first := first, last := last
    block := without g.block (CacheEntry.released e) }, ?_, ?_, ?_, rfl, rfl, rfl, rfl⟩
  · rw [httpCacheDestroyEntry, he]
    simp only [Option.bind_eq_bind, Option.bind_some, hunlink]
    unfold CacheEntry.released at hbuffer ⊢
    split
    · next hready =>
      rw [if_pos hready] at hbuffer
      have hfree := freeBlock_spec { g.svzHashDelete e.file with
        entry := h', first := first, last := last } e.buffer hbuffer
      exact congrArg (Option.bind · fun g => some (g.freeEntry a)) hfree
    · rfl
  · rw [List.erase_append_right _ hnot, List.erase_cons_head]
    exact h.destroyed he hdata hchain
  · rw [dataOf_put, hdata, Option.map_none]
    rfl

/-- The heap after a new entry has been linked in front of the others. -/
theorem enterSlot_chain (hc : Chain g.entry g.first g.last l)
    (hfresh : ∀ a e, g.entry a = some e → a < g.nextEntry) (file : FileName) :
    ∃ h last, g.enterSlot file = some ({ g with
        entry := h, nextEntry := g.nextEntry + 1, first := some g.nextEntry, last := last
        httpCache := (file, g.nextEntry) :: g.httpCache.filter fun p => p.1 ≠ file
        clock := g.clock + 1, accessed := Function.update g.accessed file (g.clock + 1) },
        ⟨none, 0, some g.nextEntry⟩) ∧
      dataOf h = Function.update (dataOf g.entry) g.nextEntry (some (httpCacheCreateEntry file)) ∧
      Chain h (some g.nextEntry) last (g.nextEntry :: l) := by
  have hslot : ∀ z ∈ l, z ≠ g.nextEntry := by
    intro z hz
    obtain ⟨e, he⟩ := hc.live z hz
    exact Nat.ne_of_lt (hfresh z e he)
  let slot : CacheEntry := { httpCacheCreateEntry file with next := g.first }
  let g₁ : Cache := { g with
    entry := Function.update (Function.update g.entry g.nextEntry
      (some (httpCacheCreateEntry file))) g.nextEntry (some slot)
    nextEntry := g.nextEntry + 1
    httpCache := (file, g.nextEntry) :: g.httpCache.filter fun p => p.1 ≠ file
    clock := g.clock + 1, accessed := Function.update g.accessed file (g.clock + 1) }
  have hentry : g₁.entry = Function.update g.entry g.nextEntry (some slot) :=
    Function.update_idem _ _ _
  have hkeep : ∀ z ∈ l, g₁.entry z = g.entry z := by
    intro z hz
    rw [hentry, Function.update_of_ne (hslot z hz)]
  obtain ⟨h, hlink, hdata, hnext, hprev⟩ := linkPrev_spec g₁ g.first (some g.nextEntry) (by
    intro q hq
    rw [hc.first_eq] at hq
    obtain ⟨e, he⟩ := hc.live q (List.mem_of_head? hq)
    exact ⟨e, (hkeep q (List.mem_of_head? hq)).trans he⟩)
  have hslotEntry : g₁.entry g.nextEntry = some slot := by
    rw [hentry, Function.update_self]
  refine ⟨h, if g.first = none then some g.nextEntry else g.last, ?_, ?_, ?_⟩
  · have hcreate : Function.update g.entry g.nextEntry (some (httpCacheCreateEntry file))
        g.nextEntry = some (httpCacheCreateEntry file) := Function.update_self _ _ _
    unfold enterSlot
    simp only [svzHashPut, touch]
    rw [modify_eq hcreate]
    exact congrArg (Option.bind · fun g' => some ({ g' with first := some g.nextEntry },
      { httpCacheReset with entry := some g.nextEntry })) hlink
  · rw [hdata, hentry, dataOf_put, Option.map_some]
    rfl
  · apply hc.push (fun hmem => hslot _ hmem rfl)
    · exact (exists_of_dataOf_eq hdata).mpr ⟨slot, hslotEntry⟩
    · intro z hz
      rw [congrFun hdata z, dataOf, dataOf, hkeep z hz]
    · intro z hz
      rw [hnext, nextOf, nextOf, hkeep z hz]
    · intro z hz
      rw [hprev, prevOf, prevOf, hkeep z hz]
    · rw [hnext, nextOf_eq _ hslotEntry]
    · rw [hprev, prevOf_eq _ hslotEntry]
      split
      · next hself =>
        rw [hc.first_eq] at hself
        exact absurd rfl (hslot _ (List.mem_of_head? hself))
      · rfl
    · rfl
    · rfl

/-- **A new entry.** It is the first of the list, under the name of its file. -/
theorem Listed.enterSlot_spec (h : Listed g l) (hnew : g.svzHashGet file = none)
    (hroom : l.length < g.httpCacheEntries) :
    ∃ g', g.enterSlot file = some (g', ⟨none, 0, some g.nextEntry⟩) ∧
      Listed g' (g.nextEntry :: l) ∧
      dataOf g'.entry =
        Function.update (dataOf g.entry) g.nextEntry (some (httpCacheCreateEntry file)) ∧
      g'.block = g.block ∧ g'.nextBlock = g.nextBlock ∧
      g'.httpCacheEntries = g.httpCacheEntries := by
  obtain ⟨h', last, henter, hdata, hchain⟩ := enterSlot_chain h.chain h.fresh file
  refine ⟨_, henter, ?_, hdata, rfl, rfl, rfl⟩
  have hslot : ∀ a e, g.entry a = some e → a ≠ g.nextEntry :=
    fun a e he => Nat.ne_of_lt (h.fresh a e he)
  have hother := h.svzHashGet_eq_none_iff.mp hnew
  have hold : ∀ b, b ≠ g.nextEntry → dataOf h' b = dataOf g.entry b := by
    intro b hb
    rw [hdata, Function.update_of_ne hb]
  obtain ⟨slot, hslotEntry, hslotData⟩ : ∃ e, h' g.nextEntry = some e ∧
      e.unlinked = httpCacheCreateEntry file := by
    have hself := congrFun hdata g.nextEntry
    rw [Function.update_self, dataOf, Option.map_eq_some_iff] at hself
    exact hself
  have hfile : slot.file = file :=
    (CacheEntry.fields_eq (e := httpCacheCreateEntry file) hslotData).1
  have hfilter : (g.httpCache.filter fun p => p.1 ≠ file) = g.httpCache := by
    rw [List.filter_eq_self]
    intro p hp
    obtain ⟨e, he, hpfile⟩ := (h.table p.1 p.2).mp hp
    exact decide_eq_true (hpfile ▸ hother p.2 e he)
  have hfrom : ∀ b f, h' b = some f → b ≠ g.nextEntry → ∃ f', g.entry b = some f' := by
    intro b f hf hb
    obtain ⟨f', hf', -⟩ := exists_of_dataOf (hold b hb).symm hf
    exact ⟨f', hf'⟩
  constructor
  · exact hchain
  · intro b f hf
    by_cases hb : b = g.nextEntry
    · exact hb ▸ List.mem_cons_self
    · obtain ⟨f', hf'⟩ := hfrom b f hf hb
      exact List.mem_cons_of_mem _ (h.mem_of_live b f' hf')
  · change (((file, g.nextEntry) :: g.httpCache.filter fun p => p.1 ≠ file).map Prod.fst).Nodup
    rw [hfilter, List.map_cons, List.nodup_cons]
    refine ⟨?_, h.keys⟩
    intro hmem
    obtain ⟨p, hp, hkey⟩ := List.mem_map.mp hmem
    obtain ⟨e, he, hpfile⟩ := (h.table p.1 p.2).mp hp
    exact hother p.2 e he (hpfile.trans hkey)
  · intro key b
    change (key, b) ∈ (file, g.nextEntry) :: g.httpCache.filter (fun p => p.1 ≠ file) ↔ _
    rw [hfilter, List.mem_cons, h.table, Prod.mk.injEq]
    constructor
    · rintro (⟨rfl, rfl⟩ | ⟨e, he, rfl⟩)
      · exact ⟨slot, hslotEntry, hfile⟩
      · exact (file_eq_of_dataOf (hold b (hslot b e he))).mpr ⟨e, he, rfl⟩
    · rintro ⟨e, he, rfl⟩
      by_cases hb : b = g.nextEntry
      · subst hb
        have hsame : slot = e := Option.some_inj.mp (hslotEntry.symm.trans he)
        exact Or.inl ⟨hsame ▸ hfile, rfl⟩
      · exact Or.inr ((file_eq_of_dataOf (hold b hb)).mp ⟨e, he, rfl⟩)
  · change ((file, g.nextEntry) :: g.httpCache.filter fun p => p.1 ≠ file).length = _
    rw [hfilter, List.length_cons, List.length_cons, h.length]
  · exact hroom
  · have hstamp : ∀ b ∈ l, stamp { g with
        entry := h', nextEntry := g.nextEntry + 1, first := some g.nextEntry, last := last
        httpCache := (file, g.nextEntry) :: g.httpCache.filter fun p => p.1 ≠ file
        clock := g.clock + 1
        accessed := Function.update g.accessed file (g.clock + 1) } b = g.stamp b := by
      intro b hb
      obtain ⟨e, he⟩ := h.chain.live b hb
      obtain ⟨e', he', heq⟩ := exists_of_dataOf (hold b (hslot b e he)) he
      have hsame : e'.file = e.file := (CacheEntry.fields_eq heq).1
      refine (stamp_eq _ he').trans ?_
      rw [stamp_eq g he, hsame]
      exact Function.update_of_ne (hother b e he) _ _
    rw [List.pairwise_cons]
    constructor
    · intro b hb
      rw [hstamp b hb]
      refine lt_of_lt_of_eq (Nat.lt_succ_of_le (h.clock_le _)) (Eq.symm ?_)
      refine (stamp_eq _ hslotEntry).trans ?_
      rw [hfile]
      exact Function.update_self _ _ _
    · refine h.recent.imp_of_mem ?_
      intro b c hb hc hlt
      rwa [hstamp b hb, hstamp c hc]
  · intro key
    by_cases hkey : key = file
    · subst hkey
      exact Nat.le_of_eq (Function.update_self _ _ _)
    · exact Nat.le_trans (Nat.le_of_eq (Function.update_of_ne hkey _ _))
        (Nat.le_succ_of_le (h.clock_le key))
  · intro b f hf
    by_cases hb : b = g.nextEntry
    · exact hb ▸ Nat.lt_succ_self _
    · obtain ⟨f', hf'⟩ := hfrom b f hf hb
      exact Nat.lt_succ_of_lt (h.fresh b f' hf')

/-! ## Making room -/

/-- Nobody uses the entry. -/
def idle (g : Cache) (a : Addr) : Bool :=
  (dataOf g.entry a).elim false fun e => decide (e.usage = 0) && e.ready

theorem idle_eq (g : Cache) (he : g.entry a = some e) :
    g.idle a = true ↔ e.usage = 0 ∧ e.ready = true := by
  rw [idle, dataOf_eq_some he, Option.elim_some, Bool.and_eq_true, decide_eq_true_iff]
  rfl

/-- The walk from the end of a list backwards. -/
theorem findSlot_chain (hc : Chain g.entry first last (l₁ ++ l₂)) :
    ∀ fuel, l₁.length ≤ fuel → g.findSlot fuel l₁.getLast? = some (l₁.reverse.find? g.idle) := by
  induction l₁ using List.reverseRecOn generalizing l₂ with
  | nil =>
    intro fuel _
    cases fuel <;> rfl
  | append_singleton l₀ x ih =>
    intro fuel hfuel
    rw [List.length_append, List.length_singleton] at hfuel
    obtain ⟨e, he⟩ := hc.live x (by simp)
    have hc' : Chain g.entry first last (l₀ ++ x :: l₂) := by
      rwa [List.append_assoc, List.singleton_append] at hc
    cases fuel with
    | zero => exact absurd hfuel (Nat.not_succ_le_zero _)
    | succ fuel =>
      rw [List.getLast?_concat, findSlot, he, Option.bind_eq_bind, Option.bind_some,
        List.reverse_concat]
      by_cases hidle : e.usage = 0 ∧ e.ready = true
      · rw [if_pos hidle, List.find?_cons_of_pos ((idle_eq g he).mpr hidle)]
      · rw [if_neg hidle, List.find?_cons_of_neg (fun h => hidle ((idle_eq g he).mp h)),
          hc'.prev_eq he]
        exact ih hc' fuel (Nat.le_of_succ_le_succ hfuel)

/-- The list is never longer than the number of addresses handed out. -/
theorem Listed.length_le_nextEntry (h : Listed g l) : l.length ≤ g.nextEntry := by
  have hsub : l ⊆ List.range g.nextEntry := by
    intro a ha
    obtain ⟨e, he⟩ := h.chain.live a ha
    exact List.mem_range.mpr (h.fresh a e he)
  have hle := (List.subperm_of_subset h.chain.nodup hsub).length_le
  rwa [List.length_range] at hle

theorem Listed.findSlot_spec (h : Listed g l) :
    g.findSlot g.nextEntry g.last = some (l.reverse.find? g.idle) := by
  rw [h.chain.last_eq]
  have hc : Chain g.entry g.first g.last (l ++ []) := (List.append_nil l).symm ▸ h.chain
  exact findSlot_chain hc _ h.length_le_nextEntry

/-- The last idle entry of the list is the one that was accessed the longest time ago. -/
theorem Listed.find_idle_eq_some_iff (h : Listed g l) :
    l.reverse.find? g.idle = some a ↔
      a ∈ l ∧ g.idle a = true ∧ ∀ b ∈ l, g.idle b = true → b ≠ a → g.stamp a < g.stamp b := by
  have hrecent : l.reverse.Pairwise fun a b => g.stamp a < g.stamp b :=
    List.pairwise_reverse.mpr h.recent
  constructor
  · intro hfind
    obtain ⟨hidle, front, back, heq, hfront⟩ := List.find?_eq_some_iff_append.mp hfind
    refine ⟨List.mem_reverse.mp (List.mem_of_find?_eq_some hfind), hidle, ?_⟩
    intro b hb hbidle hne
    rw [heq, List.pairwise_append, List.pairwise_cons] at hrecent
    rw [← List.mem_reverse, heq, List.mem_append, List.mem_cons] at hb
    rcases hb with hb | rfl | hb
    · have hnot := hfront b hb
      rw [hbidle] at hnot
      exact absurd hnot (by decide)
    · exact absurd rfl hne
    · exact hrecent.2.1.1 b hb
  · rintro ⟨hmem, hidle, hleast⟩
    obtain ⟨b, hb⟩ : ∃ b, l.reverse.find? g.idle = some b := by
      rw [← Option.isSome_iff_exists, List.find?_isSome]
      exact ⟨a, List.mem_reverse.mpr hmem, hidle⟩
    -- the one that is found is not behind any other idle entry, so it is `a`
    obtain ⟨hbidle, front, back, heq, hfront⟩ := List.find?_eq_some_iff_append.mp hb
    by_cases hne : b = a
    · exact hne ▸ hb
    have hlt := hleast b (List.mem_reverse.mp (List.mem_of_find?_eq_some hb)) hbidle hne
    have hback : a ∈ back := by
      rw [← List.mem_reverse, heq, List.mem_append, List.mem_cons] at hmem
      rcases hmem with hm | hm | hm
      · have hnot := hfront a hm
        rw [hidle] at hnot
        exact absurd hnot (by decide)
      · exact absurd hm.symm hne
      · exact hm
    rw [heq, List.pairwise_append, List.pairwise_cons] at hrecent
    exact absurd (hrecent.2.1.1 a hback) (Nat.lt_asymm hlt)

/-- **A place in the cache.** As long as there is room a file gets a new entry. After that the
last idle entry has to go, and without one nothing happens. -/
theorem Listed.httpInitCache_spec (h : Listed g l) (hnew : g.svzHashGet file = none)
    (hblocks : ∀ a e, g.entry a = some e → g.Freeable e.buffer) :
    (g.httpCacheEntries ≤ l.length ∧ l.reverse.find? g.idle = none ∧
        g.httpInitCache file = some (g, httpCacheReset, false)) ∨
      ∃ g₁ g' l₁,
        (l.length < g.httpCacheEntries ∧ g₁ = g ∧ l₁ = l ∨
          g.httpCacheEntries ≤ l.length ∧ ∃ a, l.reverse.find? g.idle = some a ∧
            g.httpCacheDestroyEntry a = some g₁ ∧ l₁ = l.erase a) ∧
        Listed g₁ l₁ ∧ g₁.svzHashGet file = none ∧ l₁.length < g₁.httpCacheEntries ∧
        g₁.enterSlot file = some (g', ⟨none, 0, some g₁.nextEntry⟩) ∧
        g.httpInitCache file = some (g', ⟨none, 0, some g₁.nextEntry⟩, true) := by
  by_cases hroom : l.length < g.httpCacheEntries
  · refine Or.inr ?_
    obtain ⟨g', henter, -⟩ := h.enterSlot_spec hnew hroom
    refine ⟨g, g', l, Or.inl ⟨hroom, rfl, rfl⟩, h, hnew, hroom, henter, ?_⟩
    rw [httpInitCache, svzHashSize, h.length, if_pos hroom, henter]
    rfl
  have hfull : g.httpCacheEntries ≤ l.length := Nat.le_of_not_lt hroom
  cases hfind : l.reverse.find? g.idle with
  | none =>
    refine Or.inl ⟨hfull, rfl, ?_⟩
    rw [httpInitCache, svzHashSize, h.length, if_neg hroom, h.findSlot_spec, hfind]
    rfl
  | some a =>
    refine Or.inr ?_
    have hmem : a ∈ l := List.mem_reverse.mp (List.mem_of_find?_eq_some hfind)
    obtain ⟨e, he⟩ := h.chain.live a hmem
    obtain ⟨g₁, hdestroy, hlisted, hdata, -, -, -, hentries⟩ := h.httpCacheDestroyEntry_spec he (by
      intro b hb
      refine hblocks a e he b ?_
      unfold CacheEntry.released at hb
      split at hb
      · exact hb
      · cases hb)
    have hnew₁ : g₁.svzHashGet file = none := by
      rw [hlisted.svzHashGet_eq_none_iff]
      intro b f hf
      have hfrom := dataOf_eq_some hf
      rw [hdata] at hfrom
      obtain ⟨hba, hfrom⟩ := update_none_eq_some_iff.mp hfrom
      obtain ⟨f', hf', heq⟩ := Option.map_eq_some_iff.mp hfrom
      rw [← (CacheEntry.fields_eq heq).1]
      exact h.svzHashGet_eq_none_iff.mp hnew b f' hf'
    have hroom₁ : (l.erase a).length < g₁.httpCacheEntries := by
      rw [hentries, List.length_erase_of_mem hmem]
      have hpos := List.length_pos_of_mem hmem
      have hle := h.room
      omega
    obtain ⟨g', henter, -⟩ := hlisted.enterSlot_spec hnew₁ hroom₁
    refine ⟨g₁, g', l.erase a, Or.inr ⟨hfull, a, rfl, hdestroy, rfl⟩, hlisted, hnew₁, hroom₁,
      henter, ?_⟩
    rw [httpInitCache, svzHashSize, h.length, if_neg hroom, h.findSlot_spec, hfind]
    simp only [Option.bind_eq_bind, Option.bind_some, hdestroy, henter]

end Cache

end Serveez.Transfer
