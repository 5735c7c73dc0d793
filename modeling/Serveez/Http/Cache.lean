import Mathlib.Logic.Function.Basic

/-!
# The file cache of `http-cache.c`

The cache entries are blocks of memory: `entry` maps the address of an allocated entry to its
fields, and `block` the address of an allocated buffer to its bytes. The operations go through
the pointers as the source does. Reading or writing an entry or a buffer that has been freed,
following `NULL` and freeing a block twice have no result, so that a run ends there. Addresses
are not used again, and a stale pointer stays one.

The table `http_cache` is the list of its keys with their values, in any order: what a table
answers is what the finite map of its operations answers. `clock` and `accessed` only record at
which access a file was looked up or entered last; the operations never read them.
-/

namespace Serveez.Transfer

/-- The address of a cache entry. -/
abbrev Addr := Nat

/-- The name of a file, byte by byte. -/
abbrev FileName := List UInt8

/-- A pointer into a buffer. -/
structure Ptr where
  block : Nat
  off : Nat

/-- `http_cache_entry_t`; an overflow of the `int` `hits` is not modelled. -/
structure CacheEntry where
  next : Option Addr
  prev : Option Addr
  buffer : Option Ptr
  size : Nat
  file : FileName
  date : Int
  usage : Int
  hits : Nat
  ready : Bool

/-- `http_cache_t`, what a connection that reads or sends a cached file knows about it. -/
structure HttpCache where
  buffer : Option Ptr
  size : Nat
  entry : Option Addr

/-- The global variables of the cache, and the memory it uses. -/
structure Cache where
  entry : Addr → Option CacheEntry
  nextEntry : Addr
  block : Nat → Option (List UInt8)
  nextBlock : Nat
  httpCache : List (FileName × Addr)
  httpCacheEntries : Nat
  first : Option Addr
  last : Option Addr
  clock : Nat
  accessed : FileName → Nat

/-- What `http_check_cache` answers; `inhibit` stands for a request that does not ask. -/
inductive CacheStatus
  | complete
  | incomplete
  | no
  | inhibit
deriving DecidableEq

namespace Cache

/-! ## Memory -/

/-- An access to the fields of an entry. -/
def modify (g : Cache) (a : Addr) (f : CacheEntry → CacheEntry) : Option Cache :=
  (g.entry a).map fun e => { g with entry := Function.update g.entry a (some (f e)) }

/-- `svz_free` of an entry. -/
def freeEntry (g : Cache) (a : Addr) : Cache :=
  { g with entry := Function.update g.entry a none }

/-- `svz_free` of a buffer. Only the start of an allocated block can be freed, and `NULL`. -/
def freeBlock (g : Cache) : Option Ptr → Option Cache
  | none => some g
  | some p =>
    if p.off = 0 ∧ (g.block p.block).isSome then
      some { g with block := Function.update g.block p.block none }
    else none

/-- The bytes from a pointer on. -/
def bytesAt (g : Cache) (p : Ptr) : Option (List UInt8) :=
  (g.block p.block).map (List.drop p.off)

/-- `svz_realloc` followed by the copy of `bytes` behind what has been there. The block is a
new one. -/
def extend (g : Cache) (p : Option Ptr) (bytes : List UInt8) : Option (Cache × Ptr) := do
  let old ← match p with
    | none => some []
    | some q => g.block q.block
  let g ← g.freeBlock p
  some ({ g with
    block := Function.update g.block g.nextBlock (some (old ++ bytes))
    nextBlock := g.nextBlock + 1 }, ⟨g.nextBlock, 0⟩)

/-! ## The table -/

def svzHashGet (g : Cache) (file : FileName) : Option Addr :=
  (g.httpCache.find? fun p => p.1 = file).map Prod.snd

def svzHashDelete (g : Cache) (file : FileName) : Cache :=
  { g with httpCache := g.httpCache.filter fun p => p.1 ≠ file }

def svzHashPut (g : Cache) (file : FileName) (a : Addr) : Cache :=
  { g with httpCache := (file, a) :: g.httpCache.filter fun p => p.1 ≠ file }

def svzHashSize (g : Cache) : Nat := g.httpCache.length

/-- Records an access to the entry of a file. -/
def touch (g : Cache) (file : FileName) : Cache :=
  { g with clock := g.clock + 1, accessed := Function.update g.accessed file (g.clock + 1) }

/-! ## The operations -/

/-- `v` comes after the entry `p`, or at the front of the list. -/
def linkNext (g : Cache) (p v : Option Addr) : Option Cache :=
  match p with
  | some prev => g.modify prev fun e => { e with next := v }
  | none => some { g with first := v }

/-- `v` comes before the entry `n`, or at the end of the list. -/
def linkPrev (g : Cache) (n v : Option Addr) : Option Cache :=
  match n with
  | some next => g.modify next fun e => { e with prev := v }
  | none => some { g with last := v }

/-- The neighbours of an entry are linked around it. -/
def unlink (g : Cache) (e : CacheEntry) : Option Cache := do
  let g ← g.linkNext e.prev e.next
  g.linkPrev e.next e.prev

def httpUrgentCache (g : Cache) (cache : Addr) : Option Cache := do
  let e ← g.entry cache
  match e.prev with
  | none => some g
  | some _ => do
    let g ← g.unlink e
    let first ← g.first
    let g ← g.linkPrev (some first) (some cache)
    let g ← g.modify cache fun c => { c with next := some first, prev := none }
    some { g with first := some cache }

def httpCheckCache (g : Cache) (file : FileName) (cache : HttpCache) :
    Option (Cache × HttpCache × CacheStatus) :=
  match g.svzHashGet file with
  | none => some (g, cache, .no)
  | some cachefile => do
    -- this entry is the most recent from now on, ready or not
    let g ← (g.touch file).httpUrgentCache cachefile
    let e ← g.entry cachefile
    if e.ready then
      some (g, ⟨e.buffer, e.size, some cachefile⟩, .complete)
    else some (g, cache, .incomplete)

/-- The new entry, all of it zero. -/
def httpCacheCreateEntry (file : FileName) : CacheEntry :=
  ⟨none, none, none, 0, file, 0, 0, 0, false⟩

def httpCacheDestroyEntry (g : Cache) (cache : Addr) : Option Cache := do
  let e ← g.entry cache
  let g ← (g.svzHashDelete e.file).unlink e
  let g ← if e.ready then g.freeBlock e.buffer else some g
  some (g.freeEntry cache)

/-- `http_cache_reset`. -/
def httpCacheReset : HttpCache := ⟨none, 0, none⟩

/-- The search for an entry that nobody uses, from the least recent one on. A walk that takes
more steps than there are entries goes in circles. -/
def findSlot (g : Cache) : Nat → Option Addr → Option (Option Addr)
  | _, none => some none
  | 0, some _ => none
  | fuel + 1, some entry => do
    let e ← g.entry entry
    if e.usage = 0 ∧ e.ready then some (some entry) else g.findSlot fuel e.prev

/-- The second half of `http_init_cache`: a new entry in front of all others. -/
def enterSlot (g : Cache) (file : FileName) : Option (Cache × HttpCache) := do
  let slot := g.nextEntry
  let g := { g with
    entry := Function.update g.entry slot (some (httpCacheCreateEntry file))
    nextEntry := slot + 1 }
  let g := (g.svzHashPut file slot).touch file
  let g ← g.modify slot fun e => { e with next := g.first }
  let g ← g.linkPrev g.first (some slot)
  some ({ g with first := some slot }, { httpCacheReset with entry := some slot })

/-- The answer of `http_init_cache` is `false` where the source's is -1. -/
def httpInitCache (g : Cache) (file : FileName) : Option (Cache × HttpCache × Bool) := do
  if g.svzHashSize < g.httpCacheEntries then
    let (g, cache) ← g.enterSlot file
    some (g, cache, true)
  else
    let slot ← g.findSlot g.nextEntry g.last
    match slot with
    | none => some (g, httpCacheReset, false)
    | some slot => do
      let g ← g.httpCacheDestroyEntry slot
      let (g, cache) ← g.enterSlot file
      some (g, cache, true)

def httpRefreshCache (g : Cache) (cache : HttpCache) : Option (Cache × HttpCache) := do
  let a ← cache.entry
  let e ← g.entry a
  let g ← g.freeBlock e.buffer
  let g ← g.modify a fun e => { e with buffer := none, ready := false, hits := 0, usage := 0 }
  some (g, { cache with size := 0, buffer := none })

/-- `http_alloc_cache`. -/
def httpAllocCache (entries : Nat) : Cache where
  entry _ := none
  nextEntry := 0
  block _ := none
  nextBlock := 0
  httpCache := []
  httpCacheEntries := entries
  first := none
  last := none
  clock := 0
  accessed _ := 0

end Cache

end Serveez.Transfer
