import Serveez.Lib.Buckets
import Mathlib.Algebra.Group.Nat.Defs
import Mathlib.Algebra.Group.Int.Defs

/-!
# The hash table of `hash.c`

A table owns an array of `buckets` buckets; a bucket is an array of entries. The
number of buckets is a power of two, and an entry belongs to the bucket that the low
bits of its code select. `rehash` doubles or halves the number of buckets in place.

Pointers are modelled by what they point to: a `const char *` key by the bytes that
can be read behind it, a `void *` value by an `Option`, with `none` for `NULL`.
`svz_malloc` and `svz_realloc` end the process when they run out of memory, so there
is no failure path here. The counter `fill` is a `size_t` that the code also moves
downwards, so it is kept as a machine word; `buckets` and `keys` are plain numbers. A
shrink can leave `fill` below zero, and then every put into an empty bucket may double
the table: its size is not bounded by the number of entries. The `destroy` callback is used by
`svz_hash_destroy` only and left out.
-/

namespace Serveez.Hash

open Lib

/-- The bytes behind a `const char *`. -/
abbrev Bytes := List UInt8

/-- The three functions `svz_hash_configure` can set. As in the source, `equals`
answers zero for equal keys. -/
structure Callbacks where
  equals : Bytes → Bytes → Int
  code : Bytes → UInt64
  keylen : Bytes → Nat

/-! ## The default callbacks -/

/-- The loop of `hash_code`; a `char` is signed and is extended to the word size. -/
def hashCodeLoop (code : UInt64) : Bytes → UInt64
  | [] => code
  | c :: p => if c = 0 then code else hashCodeLoop ((code <<< 1) ^^^ c.toInt8.toInt64.toUInt64) p

def hashCode (key : Bytes) : UInt64 := hashCodeLoop 0 key

/-- Reading a string past its last byte gives the terminating NUL. -/
def hashEqual : Bytes → Bytes → Int
  | [], [] => 0
  | [], c2 :: _ => if c2 = 0 then 0 else -1
  | c1 :: _, [] => if c1 = 0 then 0 else -1
  | c1 :: p1, c2 :: p2 =>
    if c1 ≠ 0 ∧ c2 ≠ 0 then
      if c1 ≠ c2 then -1 else hashEqual p1 p2
    else if c1 = 0 ∧ c2 = 0 then 0 else -1

/-- The length of the string and its terminating NUL. -/
def hashKeyLength : Bytes → Nat
  | [] => 1
  | c :: p => if c = 0 then 1 else hashKeyLength p + 1

def defaultCallbacks : Callbacks := ⟨hashEqual, hashCode, hashKeyLength⟩

/-! ## Tables -/

structure SvzHashEntry (V : Type) where
  code : UInt64
  key : Bytes
  value : Option V
deriving DecidableEq

structure SvzHash (V : Type) where
  buckets : Nat
  fill : UInt64
  keys : Nat
  callbacks : Callbacks
  table : List (List (SvzHashEntry V))

variable {V : Type}

/-- `SVZ_HASH_MIN_SIZE` -/
def minSize : Nat := 4

/-- `HASH_SHRINK_LIMIT` -/
def hashShrinkLimit (hash : SvzHash V) : Nat := hash.buckets >>> 2

/-- `HASH_EXPAND_LIMIT` -/
def hashExpandLimit (hash : SvzHash V) : Nat := (hash.buckets >>> 1) + (hash.buckets >>> 2)

/-- `HASH_BUCKET` -/
def hashBucket (code : UInt64) (buckets : Nat) : Nat := code.toNat &&& (buckets - 1)

/-- The loop of `svz_hash_create` that rounds the size down to a power of two. It
does not end for the size zero, where every amount of fuel runs out. -/
def binarySize : Nat → Nat → Nat → Option Nat
  | 0, _, _ => none
  | fuel + 1, n, size => if n = 1 then some size else binarySize fuel (n >>> 1) (size <<< 1)

def svzHashCreate (size : Nat) : Option (SvzHash V) := do
  let size ← binarySize size size 1
  let size := if size < minSize then minSize else size
  return { buckets := size, fill := 0, keys := 0, callbacks := defaultCallbacks,
           table := List.replicate size [] }

def svzHashConfigure (hash : SvzHash V) (keylen : Option (Bytes → Nat))
    (code : Option (Bytes → UInt64)) (equals : Option (Bytes → Bytes → Int)) : SvzHash V :=
  { hash with callbacks :=
      { keylen := keylen.getD hash.callbacks.keylen
        code := code.getD hash.callbacks.code
        equals := equals.getD hash.callbacks.equals } }

/-! ## Rehashing -/

inductive RehashType
  | expand
  | shrink

/-- Append an entry to bucket `i` and count the bucket if it was empty. -/
def pushEntry (hash : SvzHash V) (i : Nat) (x : SvzHashEntry V) : SvzHash V :=
  let next := bucket hash.table i
  { hash with
    table := hash.table.set i (next ++ [x])
    fill := if next.length + 1 = 1 then hash.fill + 1 else hash.fill }

/-- Remove entry `e` of bucket `n`, moving the last entry into its place. -/
def dropEntry (hash : SvzHash V) (n e : Nat) : SvzHash V :=
  let b := bucket hash.table n
  { hash with
    table := hash.table.set n (swapRemove b e)
    fill := if b.length - 1 = 0 then hash.fill - 1 else hash.fill }

/-- The loop over the entries of bucket `n` when the table expands. A relocated entry
leaves `e` where it is, so every round takes one entry off the `size - e` still to
see and the number of entries is enough fuel. -/
def expandBucket (n : Nat) : Nat → Nat → SvzHash V → SvzHash V
  | 0, _, hash => hash
  | fuel + 1, e, hash =>
    match (bucket hash.table n)[e]? with
    | none => hash
    | some x =>
      if n ≠ hashBucket x.code hash.buckets then
        expandBucket n fuel e (dropEntry (pushEntry hash (hashBucket x.code hash.buckets) x) n e)
      else
        expandBucket n fuel (e + 1) hash

def expandTable (hash : SvzHash V) : SvzHash V :=
  { hash with
    buckets := hash.buckets <<< 1
    table := hash.table ++ List.replicate hash.buckets [] }

/-- One of the upper buckets when the table shrinks. The counter goes down whether or
not the bucket had entries. -/
def shrinkBucket (hash : SvzHash V) (n : Nat) : SvzHash V :=
  let hash' := (bucket hash.table n).foldl
    (fun hash x => pushEntry hash (hashBucket x.code hash.buckets) x) hash
  { hash' with
    table := hash'.table.set n []
    fill := hash'.fill - 1 }

def rehash (hash : SvzHash V) : RehashType → SvzHash V
  | .expand =>
    let hash := expandTable hash
    (List.range (hash.buckets >>> 1)).foldl
      (fun hash n => expandBucket n (bucket hash.table n).length 0 hash) hash
  | .shrink =>
    if hash.buckets > minSize then
      let hash := { hash with buckets := hash.buckets >>> 1 }
      let hash := (List.range' hash.buckets hash.buckets).foldl shrinkBucket hash
      { hash with table := hash.table.take hash.buckets }
    else hash

/-! ## The operations -/

/-- The test of the search loops. -/
def entryMatches (c : Callbacks) (code : UInt64) (key : Bytes) (x : SvzHashEntry V) : Bool :=
  x.code == code && c.equals x.key key == 0

/-- The first matching entry of the bucket the key belongs to, with its index. -/
def findEntry (hash : SvzHash V) (key : Bytes) : Option (Nat × SvzHashEntry V) := do
  let code := hash.callbacks.code key
  let b := bucket hash.table (hashBucket code hash.buckets)
  let e ← b.findIdx? (entryMatches hash.callbacks code key)
  let x ← b[e]?
  return (e, x)

/-- The copy of a key that the table owns. -/
def copyKey (c : Callbacks) (key : Bytes) : Bytes := key.take (c.keylen key)

def svzHashPut (hash : SvzHash V) (key : Bytes) (value : Option V) : SvzHash V × Option V :=
  let code := hash.callbacks.code key
  let i := hashBucket code hash.buckets
  let b := bucket hash.table i
  match findEntry hash key with
  | some (e, x) => ({ hash with table := hash.table.set i (b.set e { x with value := value }) },
      x.value)
  | none =>
    let entry := { code := code, key := copyKey hash.callbacks key, value := value }
    let hash := { pushEntry hash i entry with keys := hash.keys + 1 }
    if b.length + 1 = 1 ∧ hash.fill.toNat > hashExpandLimit hash then
      (rehash hash .expand, none)
    else (hash, none)

def svzHashDelete (hash : SvzHash V) (key : Bytes) : SvzHash V × Option V :=
  let i := hashBucket (hash.callbacks.code key) hash.buckets
  let b := bucket hash.table i
  match findEntry hash key with
  | some (n, x) =>
    let hash := dropEntry hash i n
    let hash := if b.length - 1 = 0 ∧ hash.fill.toNat < hashShrinkLimit hash then
      rehash hash .shrink else hash
    ({ hash with keys := hash.keys - 1 }, x.value)
  | none => (hash, none)

def svzHashGet (hash : SvzHash V) (key : Bytes) : Option V :=
  match findEntry hash key with
  | some (_, x) => x.value
  | none => none

def svzHashExists (hash : SvzHash V) (key : Bytes) : Int :=
  match findEntry hash key with
  | some _ => -1
  | none => 0

/-- The number of keys; `NULL` counts as an empty table. -/
def svzHashSize (hash : Option (SvzHash V)) : Nat :=
  match hash with
  | none => 0
  | some hash => hash.keys

/-- The two loops of `svz_hash_foreach` over the buckets not yet visited; `i` counts
the entries seen and ends the walk once it reaches the number of keys. -/
def foreachBuckets {σ : Type} (func : Bytes → Option V → σ → σ) (keys : Nat) :
    List (List (SvzHashEntry V)) → Nat → σ → σ
  | [], _, closure => closure
  | b :: rest, i, closure =>
    if i < keys then
      foreachBuckets func keys rest (i + b.length)
        (b.foldl (fun closure x => func x.key x.value closure) closure)
    else closure

def svzHashForeach {σ : Type} (func : Bytes → Option V → σ → σ) (hash : SvzHash V)
    (closure : σ) : σ :=
  foreachBuckets func hash.keys (hash.table.take hash.buckets) 0 closure

/-! ## Runs -/

/-- The operations that change a table. -/
inductive Op (V : Type)
  | put (key : Bytes) (value : Option V)
  | delete (key : Bytes)

def Op.apply (hash : SvzHash V) : Op V → SvzHash V × Option V
  | .put key value => svzHashPut hash key value
  | .delete key => svzHashDelete hash key

/-- The table after a sequence of operations. -/
def run (hash : SvzHash V) (ops : List (Op V)) : SvzHash V :=
  ops.foldl (fun hash op => (op.apply hash).1) hash

/-- The answers of a sequence of operations, in order. -/
def answers (hash : SvzHash V) : List (Op V) → List (Option V)
  | [] => []
  | op :: ops => (op.apply hash).2 :: answers (op.apply hash).1 ops

end Serveez.Hash
