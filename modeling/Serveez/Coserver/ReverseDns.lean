import Serveez.Coserver.Line
import Serveez.Lib.Block
import Serveez.Lib.Runs

/-!
# The cache of the reverse DNS coserver

The names are in an array `resolved` of `COSERVER_BUFSIZE` rows of `MAX_CACHE_ENTRIES` bytes, with
the addresses in an array `ip` beside it. A lookup that is not in the cache goes to the resolver of
the system, whose answer, of any length, is an input. The row after the last one is filled as long
as there are less than `MAX_CACHE_ENTRIES`, which is more than there are rows. The answer itself is
printed into a buffer of `COSERVER_BUFSIZE` bytes.

* `Represents`: what the arrays hold of the names that were entered.
* `reverseDnsHandleRequest_spec`: a lookup on the arrays does what it does on these names.
* `lookups_iff`: all accesses are in bounds and all answers right just when no name that the
  resolver gives fills the buffer of an answer and no more addresses have one than there are rows.
-/

namespace Serveez.Coserver.ReverseDns

open Lib

/-- `MAX_CACHE_ENTRIES` -/
def maxCacheEntries : Nat := 1024

/-- `MAX_IP_STRING_LENGTH` -/
def maxIpStringLength : Nat := 15

def nul : Char := '\x00'

/-- `h_name` of a host. -/
structure HostName where
  text : Text
  ends : nul ∉ text

/-- `reverse_dns_cache_t`; the rows of `resolved` stand one behind the other. -/
structure ReverseDnsCache where
  entries : Nat
  ip : Nat → UInt32
  resolved : Nat → Char

/-- Where a row begins. -/
def row (n : Nat) : Nat := n * maxCacheEntries

/-- The string at some place, if it ends within `room` bytes. -/
def readString (cells : Nat → Char) : Nat → Nat → Option Text
  | _, 0 => none
  | start, room + 1 =>
    if cells start = nul then some []
    else (readString cells (start + 1) room).map (cells start :: ·)

/-- A text and its terminator are written to some place. -/
def writeString (cells : Nat → Char) (start : Nat) (text : Text) : Nat → Char := fun i =>
  if start ≤ i then ((text ++ [nul])[i - start]?).getD (cells i) else cells i

/-- `strcpy` to a row, if it stays inside of it. -/
def copyToRow (c : ReverseDnsCache) (n : Nat) (name : Text) : Option ReverseDnsCache :=
  if n < bufSize ∧ name.length < maxCacheEntries then
    some { c with resolved := writeString c.resolved (row n) name }
  else none

/-- The string in a row. -/
def readRow (c : ReverseDnsCache) (n : Nat) : Option Text :=
  if n < bufSize then readString c.resolved (row n) maxCacheEntries else none

/-- The loop over the addresses, from the entry `n` on. -/
def findIp (c : ReverseDnsCache) (addr : UInt32) : Nat → Nat → Option (Option Nat)
  | _, 0 => some none
  | n, rest + 1 =>
    if n < maxCacheEntries then
      if c.ip n = addr then some (some n) else findIp c addr (n + 1) rest
    else none

/-- A new entry, unless there are too many. -/
def enter (c : ReverseDnsCache) (addr : UInt32) (name : Text) : Option ReverseDnsCache :=
  if c.entries < maxCacheEntries then
    (copyToRow c c.entries name).map fun c =>
      { c with ip := Function.update c.ip c.entries addr, entries := c.entries + 1 }
  else some c

/-- `sprintf` to the buffer of the answer. -/
def answerWith (name : Text) : Option Text := if name.length < bufSize then some name else none

/-- White space of `sscanf`. -/
def IsSpace (c : Char) : Prop := c = ' ' ∨ '\t' ≤ c ∧ c ≤ '\r'

instance (c : Char) : Decidable (IsSpace c) := inferInstanceAs (Decidable (_ ∨ _))

/-- `sscanf` with a width: the first word of a text, cut to so many characters. -/
def scanWord (width : Nat) (text : Text) : Option Text :=
  let word := (text.dropWhile (IsSpace ·)).takeWhile fun c => ¬ IsSpace c
  if word = [] then none else some (word.take width)

/-- A request: `unset` is in the variable for the address if the text is none, `host` the answer
of `gethostbyaddr`. -/
structure Lookup where
  inbuf : Text
  unset : UInt32
  host : Option HostName

/-- The address that a request is about; `pton` is `svz_pton`. -/
def Lookup.address (pton : Text → Option UInt32) (l : Lookup) : Option UInt32 :=
  (scanWord maxIpStringLength l.inbuf).map fun ip => (pton ip).getD l.unset

/-- `reverse_dns_handle_request`, without a result if an access leaves an array. -/
def reverseDnsHandleRequest (pton : Text → Option UInt32) (c : ReverseDnsCache) (l : Lookup) :
    Option (ReverseDnsCache × Option Text) :=
  match l.address pton with
  | none => some (c, none)
  | some addr =>
    (findIp c addr 0 c.entries).bind fun
      | some n => (readRow c n).bind fun name => (answerWith name).map fun name => (c, some name)
      | none =>
        match l.host with
        | none => some (c, none)
        | some host =>
          (enter c addr host.text).bind fun c =>
          (answerWith host.text).map fun name => (c, some name)

/-! ## What a lookup should answer -/

/-- The addresses that the resolver has given a name for, with the names. -/
abbrev Known : Type := List (UInt32 × HostName)

def Known.find (known : Known) (addr : UInt32) : Option HostName :=
  (List.find? (·.1 = addr) known).map Prod.snd

/-- The name that was entered for the address, or the one that the resolver gives now. -/
def expected (pton : Text → Option UInt32) (known : Known) (l : Lookup) : Option Text :=
  (l.address pton).bind fun addr => ((known.find addr).or l.host).map HostName.text

def learn (pton : Text → Option UInt32) (known : Known) (l : Lookup) : Known :=
  match l.address pton, l.host with
  | some addr, some host =>
    if known.find addr = none ∧ known.length < maxCacheEntries then known ++ [(addr, host)]
    else known
  | _, _ => known

/-- `answers` has what each lookup answered and what it should have answered. -/
structure Lookups where
  cache : ReverseDnsCache
  known : Known
  answers : List (Option Text × Option Text)

def lookupStep (pton : Text → Option UInt32) (s : Lookups) (l : Lookup) : Option Lookups :=
  (reverseDnsHandleRequest pton s.cache l).map fun r =>
    { cache := r.1
      known := learn pton s.known l
      answers := s.answers ++ [(r.2, expected pton s.known l)] }

/-- Behind `reverse_dns_init`, with whatever is in the arrays. -/
def startLookups (ip : Nat → UInt32) (resolved : Nat → Char) : Lookups :=
  ⟨⟨0, ip, resolved⟩, [], []⟩

/-- The state after some lookups, if all accesses were in bounds. -/
def lookupRun (pton : Text → Option UInt32) (s : Lookups) (lookups : List Lookup) :
    Option Lookups :=
  lookups.foldl (fun s l => s.bind (lookupStep pton · l)) (some s)

/-- All accesses were in bounds, and all answers right. -/
def Right (s : Option Lookups) : Prop := ∃ r, s = some r ∧ ∀ a ∈ r.answers, a.1 = a.2

/-- A name that the resolver has to give fits the buffer of an answer, and there is a row for it. -/
def Fits (pton : Text → Option UInt32) (known : Known) (l : Lookup) : Prop :=
  ∀ addr, l.address pton = some addr → known.find addr = none → ∀ host, l.host = some host →
    host.text.length < bufSize ∧ known.length < bufSize

/-! ## Strings in memory -/

theorem readString_congr {cells cells' : Nat → Char} {start room : Nat}
    (h : ∀ i, start ≤ i → i < start + room → cells i = cells' i) :
    readString cells start room = readString cells' start room := by
  induction room generalizing start with
  | zero => rfl
  | succ room ih =>
    rw [readString, readString, h start (Nat.le_refl _) (by omega),
      ih (fun i hi hlt => h i (by omega) (by omega))]

theorem readString_of_text {cells : Nat → Char} {start room : Nat} {text : Text}
    (hnul : nul ∉ text) (hroom : text.length < room)
    (h : ∀ k, k ≤ text.length → cells (start + k) = ((text ++ [nul])[k]?).getD nul) :
    readString cells start room = some text := by
  induction text generalizing start room with
  | nil =>
    obtain ⟨room, rfl⟩ := Nat.exists_eq_succ_of_ne_zero (Nat.ne_of_gt hroom)
    have hfirst : cells start = nul := h 0 (Nat.le_refl _)
    rw [readString, if_pos hfirst]
  | cons c text ih =>
    obtain ⟨room, rfl⟩ := Nat.exists_eq_succ_of_ne_zero (Nat.ne_of_gt (Nat.zero_lt_of_lt hroom))
    have hfirst : cells start = c := h 0 (Nat.zero_le _)
    have hne : c ≠ nul := fun hsame => hnul (hsame ▸ List.mem_cons_self)
    rw [readString, hfirst, if_neg hne, ih (fun hmem => hnul (List.mem_cons_of_mem _ hmem))
      (Nat.lt_of_succ_lt_succ hroom)]
    · rfl
    · intro k hk
      have hcell := h (k + 1) (Nat.succ_le_succ hk)
      rw [List.cons_append, List.getElem?_cons_succ] at hcell
      rw [← hcell]
      congr 1
      omega

theorem readString_writeString (cells : Nat → Char) (start : Nat) {text : Text} {room : Nat}
    (hnul : nul ∉ text) (hroom : text.length < room) :
    readString (writeString cells start text) start room = some text := by
  refine readString_of_text hnul hroom (fun k hk => ?_)
  unfold writeString
  rw [if_pos (Nat.le_add_right _ _), Nat.add_sub_cancel_left]
  have hlt : k < (text ++ [nul]).length := by
    rw [List.length_append, List.length_singleton]
    omega
  rw [List.getElem?_eq_getElem hlt]
  rfl

/-- A row does not reach into those before it. -/
theorem readString_writeString_of_le (cells : Nat → Char) {start other room : Nat}
    (h : other + room ≤ start) (text : Text) :
    readString (writeString cells start text) other room = readString cells other room := by
  refine readString_congr (fun i _ hlt => ?_)
  unfold writeString
  rw [if_neg (by omega)]

/-! ## The arrays -/

/-- The arrays hold the names that were entered. -/
structure Represents (c : ReverseDnsCache) (known : Known) : Prop where
  entries : c.entries = known.length
  rows : known.length ≤ bufSize
  entry : ∀ n p, known[n]? = some p →
    c.ip n = p.1 ∧ readString c.resolved (row n) maxCacheEntries = some p.2.text
  short : ∀ p ∈ known, p.2.text.length < bufSize

theorem represents_start (ip : Nat → UInt32) (resolved : Nat → Char) :
    Represents (startLookups ip resolved).cache [] :=
  ⟨rfl, Nat.zero_le _, fun _ _ h => absurd h.symm (Option.some_ne_none _),
    fun _ h => absurd h List.not_mem_nil⟩

variable {pton : Text → Option UInt32} {c c' : ReverseDnsCache} {known : Known} {addr : UInt32}
  {host : HostName} {l : Lookup}

/-- The loop finds the entry of an address. -/
theorem findIp_spec (h : Represents c known) (addr : UInt32) (front rest : Known)
    (hsplit : known = front ++ rest) :
    (∃ n p, known[n]? = some p ∧ rest.find? (·.1 = addr) = some p ∧
      findIp c addr front.length rest.length = some (some n)) ∨
    (rest.find? (·.1 = addr) = none ∧ findIp c addr front.length rest.length = some none) := by
  induction rest generalizing front with
  | nil => exact Or.inr ⟨rfl, rfl⟩
  | cons p rest ih =>
    have hget : known[front.length]? = some p := by
      rw [hsplit, getElem?_middle]
    have hrows := h.rows
    have hlt : front.length < maxCacheEntries := by
      obtain ⟨hlt, -⟩ := List.getElem?_eq_some_iff.mp hget
      unfold bufSize at hrows
      unfold maxCacheEntries
      omega
    rw [List.length_cons, findIp, if_pos hlt, (h.entry _ _ hget).1]
    by_cases haddr : p.1 = addr
    · refine Or.inl ⟨front.length, p, hget, ?_, if_pos haddr⟩
      exact List.find?_cons_of_pos (decide_eq_true haddr)
    · rw [if_neg haddr, List.find?_cons_of_neg (by simpa using haddr)]
      have hnext := ih (front ++ [p]) (by rw [hsplit, List.append_assoc, List.singleton_append])
      rw [List.length_append, List.length_singleton] at hnext
      exact hnext

theorem enter_represents (addr : UInt32) (h : Represents c known)
    (hlong : host.text.length < bufSize) (hrows : known.length < bufSize) :
    ∃ c', enter c addr host.text = some c' ∧ Represents c' (known ++ [(addr, host)]) := by
  have hentries : c.entries < maxCacheEntries := by
    rw [h.entries]
    exact Nat.lt_trans hrows (by decide)
  have hcopy : c.entries < bufSize ∧ host.text.length < maxCacheEntries :=
    ⟨h.entries ▸ hrows, Nat.lt_trans hlong (by decide)⟩
  refine ⟨{
      entries := c.entries + 1
      ip := Function.update c.ip c.entries addr
      resolved := writeString c.resolved (row c.entries) host.text }, ?_, ?_, ?_, ?_, ?_⟩
  · unfold enter copyToRow
    rw [if_pos hentries, if_pos hcopy]
    rfl
  · rw [List.length_append, List.length_singleton, ← h.entries]
  · rw [List.length_append, List.length_singleton]
    exact hrows
  · intro n p hp
    dsimp only
    rw [List.getElem?_append] at hp
    split at hp
    · next hlt =>
      obtain ⟨hip, hrow⟩ := h.entry n p hp
      have hle : row n + maxCacheEntries ≤ row c.entries := by
        unfold row
        rw [← Nat.succ_mul]
        exact Nat.mul_le_mul_right _ (h.entries ▸ hlt)
      rw [Function.update_of_ne (Nat.ne_of_lt (h.entries ▸ hlt)),
        readString_writeString_of_le _ hle]
      exact ⟨hip, hrow⟩
    · next hge =>
      obtain ⟨hlt, hown⟩ := List.getElem?_eq_some_iff.mp hp
      rw [List.length_singleton] at hlt
      obtain rfl : n = c.entries := by
        rw [h.entries]
        omega
      obtain rfl : (addr, host) = p := by
        rw [← hown]
        simp
      rw [Function.update_self, readString_writeString _ _ host.ends hcopy.2]
      exact ⟨rfl, rfl⟩
  · intro p hp
    rcases List.mem_append.mp hp with hp | hp
    · exact h.short p hp
    · obtain rfl := List.mem_singleton.mp hp
      exact hlong

/-! ## A lookup -/

theorem findIp_of_find (h : Represents c known) {p : UInt32 × HostName}
    (hfind : known.find? (·.1 = addr) = some p) :
    ∃ n, known[n]? = some p ∧ findIp c addr 0 c.entries = some (some n) := by
  rw [h.entries]
  rcases findIp_spec h addr [] known rfl with ⟨n, q, hget, hq, hloop⟩ | ⟨hnone, -⟩
  · obtain rfl : q = p := Option.some.inj (hq.symm.trans hfind)
    exact ⟨n, hget, hloop⟩
  · exact absurd (hnone.symm.trans hfind) (Option.some_ne_none p).symm

theorem findIp_of_find_none (h : Represents c known)
    (hfind : known.find? (·.1 = addr) = none) : findIp c addr 0 c.entries = some none := by
  rw [h.entries]
  rcases findIp_spec h addr [] known rfl with ⟨n, q, -, hq, -⟩ | ⟨-, hloop⟩
  · exact absurd (hq.symm.trans hfind) (Option.some_ne_none q)
  · exact hloop

/-- The entry of an address is in bounds and fits the buffer of the answer. -/
theorem readRow_of_get (h : Represents c known) {n : Nat} {p : UInt32 × HostName}
    (hget : known[n]? = some p) :
    (readRow c n).bind answerWith = some p.2.text := by
  obtain ⟨hlt, hown⟩ := List.getElem?_eq_some_iff.mp hget
  unfold readRow answerWith
  rw [if_pos (Nat.lt_of_lt_of_le hlt h.rows), (h.entry n p hget).2, Option.bind_some,
    if_pos (h.short p (List.mem_of_getElem? hget))]

/-- An access out of bounds is the only way to have no result. -/
theorem fits_of_lookup (h : Represents c known) {r : ReverseDnsCache × Option Text}
    (hr : reverseDnsHandleRequest pton c l = some r) : Fits pton known l := by
  intro addr haddr hmiss host hhost
  have hfind : known.find? (·.1 = addr) = none := Option.map_eq_none_iff.mp hmiss
  have hrun : ((enter c addr host.text).bind fun c =>
      (answerWith host.text).map fun name => (c, some name)) = some r := by
    rw [← hr, reverseDnsHandleRequest, haddr, hhost]
    dsimp only
    rw [findIp_of_find_none h hfind]
    rfl
  obtain ⟨c', henter, hanswer⟩ := Option.bind_eq_some_iff.mp hrun
  obtain ⟨name, hname, -⟩ := Option.map_eq_some_iff.mp hanswer
  refine ⟨(Option.ite_none_right_eq_some.mp hname).1, ?_⟩
  -- there is room for an address, so the row for it is one of the array
  have hentries : c.entries < maxCacheEntries := by
    rw [h.entries]
    exact Nat.lt_of_le_of_lt h.rows (by decide)
  rw [enter, if_pos hentries] at henter
  obtain ⟨c₁, hcopy, -⟩ := Option.map_eq_some_iff.mp henter
  rw [← h.entries]
  exact (Option.ite_none_right_eq_some.mp hcopy).1.1

/-- A lookup on the arrays does what it does on the names. -/
theorem reverseDnsHandleRequest_spec (h : Represents c known) (hfits : Fits pton known l) :
    ∃ c', reverseDnsHandleRequest pton c l = some (c', expected pton known l) ∧
      Represents c' (learn pton known l) := by
  unfold reverseDnsHandleRequest expected learn
  cases haddr : l.address pton with
  | none => exact ⟨c, rfl, h⟩
  | some addr =>
    cases hfind : known.find? (·.1 = addr) with
    | some p =>
      have hhit : known.find addr = some p.2 := congrArg (Option.map Prod.snd) hfind
      obtain ⟨n, hget, hloop⟩ := findIp_of_find h hfind
      refine ⟨c, ?_, ?_⟩
      · have hrow := readRow_of_get h hget
        obtain ⟨name, hname, hanswer⟩ := Option.bind_eq_some_iff.mp hrow
        dsimp only
        rw [hloop, Option.bind_some]
        dsimp only
        rw [hname, Option.bind_some, hanswer, Option.bind_some, hhit]
        rfl
      · cases l.host with
        | none => exact h
        | some host =>
          dsimp only
          rw [if_neg (fun hnew => Option.some_ne_none _ (hhit.symm.trans hnew.1))]
          exact h
    | none =>
      have hmiss : known.find addr = none := congrArg (Option.map Prod.snd) hfind
      dsimp only
      rw [findIp_of_find_none h hfind, Option.bind_some, Option.bind_some, hmiss]
      cases hhost : l.host with
      | none => exact ⟨c, rfl, h⟩
      | some host =>
        obtain ⟨hlong, hrows⟩ := hfits addr haddr hmiss host hhost
        obtain ⟨c', henter, hrep⟩ := enter_represents addr h hlong hrows
        refine ⟨c', ?_, ?_⟩
        · dsimp only
          rw [henter, Option.bind_some, answerWith, if_pos hlong]
          rfl
        · dsimp only
          rw [if_pos ⟨hmiss, Nat.lt_trans hrows (by decide)⟩]
          exact hrep

/-! ## All lookups -/

theorem lookupStep_right {s : Lookups} (h : Represents s.cache s.known)
    (hfits : Fits pton s.known l) :
    ∃ s', lookupStep pton s l = some s' ∧ Represents s'.cache s'.known ∧
      s'.answers = s.answers ++ [(expected pton s.known l, expected pton s.known l)] := by
  obtain ⟨c', hrun, hrep⟩ := reverseDnsHandleRequest_spec h hfits
  refine ⟨⟨c', learn pton s.known l, s.answers ++ [(expected pton s.known l, _)]⟩, ?_, hrep, rfl⟩
  rw [lookupStep, hrun]
  rfl

/-- Every lookup that there can be is in bounds and right just if all names that the resolver has to
give fit. -/
theorem lookups_iff (pton : Text → Option UInt32) (ip : Nat → UInt32) (resolved : Nat → Char)
    (lookups : List Lookup) :
    (∀ pre, pre <+: lookups → Right (lookupRun pton (startLookups ip resolved) pre)) ↔
      ∀ pre l, pre ++ [l] <+: lookups → ∀ s,
        lookupRun pton (startLookups ip resolved) pre = some s → Fits pton s.known l := by
  apply forall_prefix_iff_of_aux (fun (s : Option Lookups) l => s.bind (lookupStep pton · l))
    (fun s => ∀ t, s = some t → Represents t.cache t.known) Right
    (fun s l => ∀ t, s = some t → Fits pton t.known l)
  · rintro t ⟨⟩
    exact represents_start ip resolved
  · exact ⟨_, rfl, fun a ha => absurd ha List.not_mem_nil⟩
  · rintro pre l - hJ - ⟨s', hs', -⟩ t ht
    rw [ht, Option.bind_some] at hs'
    obtain ⟨r, hr, -⟩ := Option.map_eq_some_iff.mp hs'
    exact fits_of_lookup (hJ t ht) hr
  · rintro pre l - hJ ⟨t, ht, hright⟩ hC
    obtain ⟨s', hs', hrep, hanswers⟩ := lookupStep_right (hJ t ht) (hC t ht)
    rw [ht, Option.bind_some, hs']
    refine ⟨?_, s', rfl, ?_⟩
    · rintro r ⟨⟩
      exact hrep
    · intro a ha
      rw [hanswers] at ha
      rcases List.mem_append.mp ha with hold | hnew
      · exact hright a hold
      · rw [List.mem_singleton.mp hnew]

/-- A name that is as long as a row. -/
def rowName : HostName := ⟨List.replicate maxCacheEntries 'a', by
  intro hmem
  exact absurd (List.eq_of_mem_replicate hmem) (by decide)⟩

theorem not_right_of_long {s : Lookups} {name : HostName} (h : Represents s.cache [])
    (haddr : l.address pton = some addr) (hhost : l.host = some name)
    (hlong : bufSize ≤ name.text.length) : ¬ Right (lookupRun pton s [l]) := by
  rintro ⟨s', hs', -⟩
  obtain ⟨r, hr, -⟩ := Option.map_eq_some_iff.mp hs'
  exact absurd (fits_of_lookup h hr addr haddr rfl name hhost).1 (Nat.not_lt.mpr hlong)

theorem rowName_not_right :
    ¬ Right (lookupRun (fun _ => some 0x04030201) (startLookups (fun _ => 0) (fun _ => nul))
      [⟨"1.2.3.4\n".toList, 0, some rowName⟩]) := by
  have haddr : Lookup.address (fun _ => some 0x04030201)
      ⟨"1.2.3.4\n".toList, 0, some rowName⟩ = some 0x04030201 := by decide
  have hlength : rowName.text.length = maxCacheEntries := List.length_replicate
  refine not_right_of_long (represents_start _ _) haddr rfl ?_
  rw [hlength]
  decide

end Serveez.Coserver.ReverseDns
