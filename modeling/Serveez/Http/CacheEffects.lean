import Serveez.Http.CacheList
import Serveez.Http.Transfer

/-!
# What a callback can do to the cache

A callback of a connection works on the cache and on its own socket. `Effect k g s g' s'` lists
the ways in which the two change; of the socket only its `link` to the cache counts: the
`http_cache_t`, whether `HTTP_FLAG_CACHE` is set, and whether it is filling an entry.

The kind `k` of a change is `plain` apart from those after which the cache or an entry of it can
be left in a bad state.
-/

namespace Serveez.Transfer

open Cache

/-- The socket is filling an entry of the cache. -/
def HttpSock.reading (s : HttpSock) : Bool := s.readSocket = .httpCacheRead

/-- What ties a socket to the cache. -/
structure Link where
  cache : Option HttpCache
  flagCache : Bool
  reading : Bool
  disconnectedSocket : DisconnectedSocket

def HttpSock.link (s : HttpSock) : Link :=
  ⟨s.cache, s.flagCache, s.reading, s.disconnectedSocket⟩

/-- The entry a socket points to. -/
def HttpSock.entry (s : HttpSock) : Option Addr := s.cache.bind HttpCache.entry

/-- The socket is sending the entry. -/
def HttpSock.sends (s : HttpSock) (a : Addr) : Bool := s.flagCache && s.entry = some a

/-- `sendfile` is used as long as the socket reads nothing. -/
structure HttpSock.Mode (s : HttpSock) : Prop where
  null : s.flagSendfile = true → s.readSocket = .null
  sendFile : s.writeSocket = .httpSendFile → s.flagSendfile = true

/-- A file that is read into the cache ends before its first byte. -/
def HttpSock.endsEmpty (s : HttpSock) : ReadResult → Bool
  | .data _ => s.cache.any (fun k => k.size = 0) &&
      s.fileDesc.any fun file => file.content.length ≤ file.pos
  | .error => false

/-- A file that is read into the cache cannot be read after its first byte. -/
def HttpSock.breaksOff (s : HttpSock) (r : ReadResult) : Bool :=
  s.cache.any (fun k => 0 < k.size) && (s.fileDesc = none || r = .error)

/-- What a socket reads: the open file and how much of it is missing. -/
def HttpSock.source (s : HttpSock) : Option OpenFile × Int := (s.fileDesc, s.filelength)

/-- A file as a request finds it on the disk. -/
structure Version where
  file : FileName
  date : Int
  content : List UInt8

/-- The whole file is to be read. -/
def Version.source (v : Version) : Option OpenFile × Int :=
  (some ⟨v.content, 0⟩, toInt v.content.length)

inductive Kind
  | plain
  /-- The file gets an entry; `done` tells whether `HTTP_FLAG_DONE` is still set from an earlier
  response. -/
  | load (v : Version) (done : Bool)
  /-- The file has been found changed on the disk. -/
  | refresh (a : Addr) (v : Version) (done : Bool)
  /-- The file has ended before its first byte. -/
  | empty
  /-- An error after the first byte. -/
  | abandon
  /-- The response is over while the file is still being read. -/
  | cutOff
  /-- The open file changes on the disk. -/
  | change

/-- The memory after a change that leaves the buffers alone. -/
structure SameBlocks (g g' : Cache) : Prop where
  block : g'.block = g.block
  nextBlock : g'.nextBlock = g.nextBlock

inductive Effect : Kind → Cache → HttpSock → Cache → HttpSock → Prop
  /-- The cache may be reordered; links stay. -/
  | quiet {g s g' s'} (hdata : dataOf g'.entry = dataOf g.entry) (hblocks : SameBlocks g g')
      (hlink : s'.link = s.link) (hwriter : s'.writeSocket = .httpCacheWrite → s'.flagCache = true)
      (hdone : s'.reading = true → s'.flagDone = true → s.flagDone = true)
      (hkilled : s.killed = true → s'.killed = true)
      (hsource : s.reading = true → s'.source = s.source) : Effect .plain g s g' s'
  /-- Another content of the open file. -/
  | change {g s s'} (hlink : s'.link = s.link) (hwriter : s'.writeSocket = s.writeSocket)
      (hdone : s'.flagDone = s.flagDone) (hkilled : s'.killed = s.killed) :
      Effect .change g s g s'
  /-- Some of a cached file has been sent. -/
  | advance {g s s' k n} (hflag : s.flagCache = true) (hcache : s.cache = some k)
      (hn : n ≤ k.size)
      (hlink : s'.link = { s.link with cache := some (k.advance n) }) :
      Effect .plain g s g s'
  /-- The end of a response from the cache. -/
  | release {g s g' s' k a e} (hflag : s.flagCache = true) (hcache : s.cache = some k)
      (hentry : k.entry = some a) (he : dataOf g.entry a = some e)
      (hdata : dataOf g'.entry =
        Function.update (dataOf g.entry) a (some { e with usage := e.usage - 1 }))
      (hblocks : SameBlocks g g')
      (hlink : s'.link = ⟨none, false, false, s.disconnectedSocket⟩)
      (hwriter : s'.writeSocket ≠ .httpCacheWrite) : Effect .plain g s g' s'
  /-- The end of any other response. -/
  | finish {g s s'} (hflag : s.flagCache = false)
      (hlink : s'.link = ⟨none, false, false, s.disconnectedSocket⟩)
      (hwriter : s'.writeSocket ≠ .httpCacheWrite) :
      Effect (if s.reading && s.entry.isSome then .cutOff else .plain) g s g s'
  /-- The file is in the cache. -/
  | hit {g s g' s' a e} (hflag : s.flagCache = false) (hreading : s.reading = false)
      (he : dataOf g.entry a = some e) (hready : e.ready = true)
      (hdata : dataOf g'.entry = Function.update (dataOf g.entry) a
        (some { e with hits := e.hits + 1, usage := e.usage + 1 }))
      (hblocks : SameBlocks g g')
      (hlink : s'.link = ⟨some ⟨e.buffer, e.size, some a⟩, true, false, s.disconnectedSocket⟩) :
      Effect .plain g s g' s'
  /-- The file is not delivered from the cache. -/
  | miss {g s s'} (hflag : s.flagCache = false) (hreading : s.reading = false)
      (hlink : s'.link = ⟨some httpCacheReset, false, false, s.disconnectedSocket⟩)
      (hwriter : s'.writeSocket ≠ .httpCacheWrite) : Effect .plain g s g s'
  /-- The file has changed since it came into the cache, and is read again. -/
  | refresh {g s g' s' a e v} (hflag : s.flagCache = false) (hreading : s.reading = false)
      (he : dataOf g.entry a = some e) (hready : e.ready = true)
      (hdata : dataOf g'.entry = Function.update (dataOf g.entry) a
        (some { e with buffer := none, ready := false, hits := 0, usage := 0, date := v.date }))
      (hblock : g'.block = without g.block e.buffer) (hnext : g'.nextBlock = g.nextBlock)
      (hlink : s'.link = ⟨some ⟨none, 0, some a⟩, false, true, .httpCacheDisconnect⟩)
      (hwriter : s'.writeSocket ≠ .httpCacheWrite) (hdone : s'.flagDone = s.flagDone)
      (hfile : e.file = v.file) (hsource : s'.source = v.source) :
      Effect (.refresh a v s.flagDone) g s g' s'
  /-- An idle entry makes room. -/
  | evict {g s g' a e} (he : dataOf g.entry a = some e) (hready : e.ready = true)
      (husage : e.usage = 0) (hdata : dataOf g'.entry = Function.update (dataOf g.entry) a none)
      (hblock : g'.block = without g.block e.buffer) (hnext : g'.nextBlock = g.nextBlock) :
      Effect .plain g s g' s
  /-- The file gets a new entry. -/
  | enter {g s g' s' a v} (hflag : s.flagCache = false) (hreading : s.reading = false)
      (he : dataOf g.entry a = none)
      (hdata : dataOf g'.entry = Function.update (dataOf g.entry) a
        (some { httpCacheCreateEntry v.file with date := v.date })) (hblocks : SameBlocks g g')
      (hlink : s'.link = ⟨some ⟨none, 0, some a⟩, false, true, .httpCacheDisconnect⟩)
      (hwriter : s'.writeSocket ≠ .httpCacheWrite) (hdone : s'.flagDone = s.flagDone)
      (hsource : s'.source = v.source) : Effect (.load v s.flagDone) g s g' s'
  /-- More of the file has been read. -/
  | more {g s g' s' k old} {bytes : List UInt8} {file : OpenFile} {n : Nat}
      (hreading : s.reading = true) (hcache : s.cache = some k)
      (hkilled : s.killed = false)
      (hdata : dataOf g'.entry = dataOf g.entry)
      (hold : ∀ p, k.buffer = some p → g.block p.block = some old)
      (hnone : k.buffer = none → old = [])
      (hblock : g'.block = Function.update (without g.block k.buffer) g.nextBlock
        (some (old ++ bytes)))
      (hnext : g'.nextBlock = g.nextBlock + 1)
      (hlink : s'.link = { s.link with
        cache := some { k with
          buffer := some ⟨g.nextBlock, 0⟩, size := k.size + bytes.length } })
      (hwriter : s'.writeSocket = s.writeSocket) (hdone : s'.flagDone = s.flagDone)
      (hfile : s.fileDesc = some file) (hbytes : bytes = (file.content.drop file.pos).take n)
      (hsource : s'.source = (s.readChunk file bytes).source) : Effect .plain g s g' s'
  /-- The file has been read, and the entry is ready. -/
  | complete {g s g' s' k a e} {file : OpenFile} (hreading : s.reading = true)
      (hcache : s.cache = some k)
      (hentry : k.entry = some a) (he : dataOf g.entry a = some e)
      (hdata : dataOf g'.entry = Function.update (dataOf g.entry) a
        (some { e with size := k.size, buffer := k.buffer, ready := true }))
      (hblocks : SameBlocks g g')
      (hlink : s'.link = { s.link with cache := some httpCacheReset, reading := s'.reading })
      (hwriter : s'.writeSocket = s.writeSocket)
      (hend : s'.reading = true → s'.killed = true ∧ s'.flagDone = s.flagDone)
      (hfile : s.fileDesc = some file)
      (hwhole : s.filelength ≤ 0 ∨ file.content.length ≤ file.pos) :
      Effect (if k.buffer = none then .empty else .plain) g s g' s'
  /-- The file cannot be read further. -/
  | abandon {g s g' s' k} (hreading : s.reading = true) (hcache : s.cache = some k)
      (hdata : dataOf g'.entry = dataOf g.entry) (hblock : g'.block = without g.block k.buffer)
      (hnext : g'.nextBlock = g.nextBlock)
      (hlink : s'.link = { s.link with cache := some httpCacheReset })
      (hwriter : s'.writeSocket = s.writeSocket) (hdone : s'.flagDone = s.flagDone)
      (hkilled : s'.killed = true) : Effect .abandon g s g' s'
  /-- The entry that has not been completed is destroyed. -/
  | drop {g s g' s' k a e} (hreading : s.reading = true) (hcache : s.cache = some k)
      (hentry : k.entry = some a) (he : dataOf g.entry a = some e) (hready : e.ready = false)
      (hdata : dataOf g'.entry = Function.update (dataOf g.entry) a none)
      (hblock : g'.block = without g.block k.buffer) (hnext : g'.nextBlock = g.nextBlock)
      (hlink : s'.link = ⟨some httpCacheReset, false, false, s.disconnectedSocket⟩)
      (hwriter : s'.writeSocket ≠ .httpCacheWrite) : Effect .plain g s g' s'

/-- A sequence of changes of the kinds in `K`. -/
inductive Effects (K : Kind → Prop) : Cache → HttpSock → Cache → HttpSock → Prop
  | refl (g s) : Effects K g s g s
  | tail {g s g₁ s₁ g' s' k} (hpath : Effects K g s g₁ s₁) (hk : K k)
      (heffect : Effect k g₁ s₁ g' s') (hlisted : ∃ l, Listed g' l) (hmode : s'.Mode)
      (hentries : g'.httpCacheEntries = g₁.httpCacheEntries) : Effects K g s g' s'

theorem Effects.trans {K : Kind → Prop} {g g₁ g' : Cache} {s s₁ s' : HttpSock}
    (h₁ : Effects K g s g₁ s₁) (h₂ : Effects K g₁ s₁ g' s') : Effects K g s g' s' := by
  induction h₂ with
  | refl => exact h₁
  | tail _ hk heffect hlisted hmode hentries ih => exact ih.tail hk heffect hlisted hmode hentries

theorem Effects.mono {K K' : Kind → Prop} {g g' : Cache} {s s' : HttpSock}
    (h : Effects K g s g' s') (hK : ∀ k, K k → K' k) : Effects K' g s g' s' := by
  induction h with
  | refl => exact .refl _ _
  | tail _ hk heffect hlisted hmode hentries ih =>
    exact ih.tail (hK _ hk) heffect hlisted hmode hentries

theorem Effects.mode {K : Kind → Prop} {g g' : Cache} {s s' : HttpSock}
    (h : Effects K g s g' s') (hmode : s.Mode) : s'.Mode := by
  cases h with
  | refl => exact hmode
  | tail _ _ _ _ hmode' => exact hmode'

theorem Effects.httpCacheEntries {K : Kind → Prop} {g g' : Cache} {s s' : HttpSock}
    (h : Effects K g s g' s') : g'.httpCacheEntries = g.httpCacheEntries := by
  induction h with
  | refl => rfl
  | tail _ _ _ _ _ hentries ih => exact hentries.trans ih

end Serveez.Transfer
