import Mathlib.Logic.Function.Basic

/-!
# Byte buffers in memory

A buffer is an address with a fill and a size, and the bytes are in memory, so that two
buffers can refer to the same block. `Buffer.Fits` says that a buffer describes its block.

* `contents_append`, `contents_moveFront`: what bytes put behind the filled part, or taken
  from the front, do to the contents.
* `contents_store_of_ne`: a store leaves the contents of the other blocks.
* `Carries.give`, `Carries.take`: a stream through a buffer stays in order when bytes are
  put behind and taken from the front.
-/

namespace Serveez.Lib

/-- The bytes of the block at each address. A released block has none. -/
abbrev Memory := Nat → List UInt8

structure Buffer where
  addr : Nat
  fill : Nat
  size : Nat
deriving DecidableEq

namespace Buffer

/-- The filled part of a buffer. -/
def contents (b : Buffer) (mem : Memory) : List UInt8 := (mem b.addr).take b.fill

/-- The memory with `bytes` copied to the offset `off` of the block at `addr`. -/
def store (mem : Memory) (addr off : Nat) (bytes : List UInt8) : Memory :=
  Function.update mem addr
    ((mem addr).take off ++ bytes ++ (mem addr).drop (off + bytes.length))

/-- The memory with `bytes` behind the filled part of a buffer. -/
def append (b : Buffer) (mem : Memory) (bytes : List UInt8) : Memory :=
  store mem b.addr b.fill bytes

/-- The buffer with `n` more bytes. -/
def grow (b : Buffer) (n : Nat) : Buffer := { b with fill := b.fill + n }

/-- `memmove` of the bytes behind the first `n` to the front. -/
def moveFront (b : Buffer) (mem : Memory) (n : Nat) : Memory :=
  store mem b.addr 0 ((b.contents mem).drop n)

/-- The buffer with `n` bytes less. -/
def shrink (b : Buffer) (n : Nat) : Buffer := { b with fill := b.fill - n }

/-- The memory with a new block at `addr`. -/
def alloc (mem : Memory) (addr size : Nat) : Memory :=
  Function.update mem addr (List.replicate size 0)

/-- The memory without the block at `addr`. -/
def release (mem : Memory) (addr : Nat) : Memory := Function.update mem addr []

/-- The memory with the block of a buffer moved to `addr`, where it has `size` bytes. -/
def realloc (b : Buffer) (mem : Memory) (addr size : Nat) : Memory :=
  Function.update (release mem b.addr) addr
    ((mem b.addr).take size ++ List.replicate (size - (mem b.addr).length) 0)

/-- The buffer at its new address. -/
def moved (b : Buffer) (addr size : Nat) : Buffer := { b with addr := addr, size := size }

@[simp] theorem grow_addr (b : Buffer) (n : Nat) : (b.grow n).addr = b.addr := rfl
@[simp] theorem grow_fill (b : Buffer) (n : Nat) : (b.grow n).fill = b.fill + n := rfl
@[simp] theorem grow_size (b : Buffer) (n : Nat) : (b.grow n).size = b.size := rfl
@[simp] theorem shrink_addr (b : Buffer) (n : Nat) : (b.shrink n).addr = b.addr := rfl
@[simp] theorem shrink_fill (b : Buffer) (n : Nat) : (b.shrink n).fill = b.fill - n := rfl
@[simp] theorem shrink_size (b : Buffer) (n : Nat) : (b.shrink n).size = b.size := rfl

/-- A buffer whose block has its size and whose fill is within it. -/
structure Fits (b : Buffer) (mem : Memory) : Prop where
  fill_le : b.fill ≤ b.size
  length_eq : (mem b.addr).length = b.size

@[simp] theorem moved_addr (b : Buffer) (addr size : Nat) : (b.moved addr size).addr = addr := rfl
@[simp] theorem moved_fill (b : Buffer) (addr size : Nat) : (b.moved addr size).fill = b.fill := rfl
@[simp] theorem moved_size (b : Buffer) (addr size : Nat) : (b.moved addr size).size = size := rfl

variable {b c : Buffer} {mem : Memory} {bytes : List UInt8} {n : Nat}

theorem Fits.length_contents (h : b.Fits mem) : (b.contents mem).length = b.fill := by
  have hle := h.fill_le
  have hlen := h.length_eq
  simp only [contents, List.length_take]
  omega

@[simp] theorem store_self (mem : Memory) (addr off : Nat) (bytes : List UInt8) :
    store mem addr off bytes addr =
      (mem addr).take off ++ bytes ++ (mem addr).drop (off + bytes.length) := by
  simp only [store, Function.update_self]

theorem store_of_ne (mem : Memory) {addr other : Nat} (off : Nat) (bytes : List UInt8)
    (h : other ≠ addr) : store mem addr off bytes other = mem other := by
  simp only [store, Function.update_of_ne h]

theorem length_store (mem : Memory) (addr : Nat) {off : Nat}
    (h : off + bytes.length ≤ (mem addr).length) :
    (store mem addr off bytes addr).length = (mem addr).length := by
  simp only [store_self, List.length_append, List.length_take, List.length_drop]
  omega

theorem contents_store_of_ne (mem : Memory) {addr : Nat} (off : Nat) (bytes : List UInt8)
    (h : c.addr ≠ addr) : c.contents (store mem addr off bytes) = c.contents mem := by
  simp only [contents, store_of_ne mem off bytes h]

theorem Fits.store_of_ne (h : c.Fits mem) {addr : Nat} (off : Nat) (bytes : List UInt8)
    (hne : c.addr ≠ addr) : c.Fits (store mem addr off bytes) where
  fill_le := h.fill_le
  length_eq := by rw [Buffer.store_of_ne mem off bytes hne, h.length_eq]

/-! ## Bytes behind the filled part -/

theorem contents_append (h : b.Fits mem) (bytes : List UInt8) :
    (b.grow bytes.length).contents (b.append mem bytes) = b.contents mem ++ bytes := by
  have hlen := h.length_contents
  have htake : ((mem b.addr).take b.fill ++ bytes).length = b.fill + bytes.length := by
    rw [List.length_append, show ((mem b.addr).take b.fill).length = b.fill from hlen]
  simp only [contents, append, grow_addr, grow_fill, store_self]
  exact List.take_left' htake

theorem Fits.append (h : b.Fits mem) (hroom : b.fill + bytes.length ≤ b.size) :
    (b.grow bytes.length).Fits (b.append mem bytes) where
  fill_le := hroom
  length_eq := by
    have hlen := h.length_eq
    rw [grow_addr, Buffer.append, length_store mem b.addr (by omega), hlen, grow_size]

/-! ## Bytes from the front -/

theorem contents_moveFront (h : b.Fits mem) (n : Nat) :
    (b.shrink n).contents (b.moveFront mem n) = (b.contents mem).drop n := by
  have hlen := h.length_contents
  have hdrop : ((b.contents mem).drop n).length = b.fill - n := by
    rw [List.length_drop, hlen]
  rw [contents, shrink_addr, shrink_fill, moveFront, store_self, List.take_zero, List.nil_append]
  exact List.take_left' hdrop

theorem Fits.moveFront (h : b.Fits mem) (n : Nat) : (b.shrink n).Fits (b.moveFront mem n) where
  fill_le := Nat.le_trans (Nat.sub_le _ _) h.fill_le
  length_eq := by
    have hlen := h.length_contents
    have hle := h.fill_le
    have hblock := h.length_eq
    have hoff : 0 + ((b.contents mem).drop n).length ≤ (mem b.addr).length := by
      rw [List.length_drop, hlen]
      omega
    rw [shrink_addr, Buffer.moveFront, length_store mem b.addr hoff, hblock, shrink_size]

/-! ## Moved blocks -/

theorem contents_realloc (h : b.Fits mem) {addr size : Nat} (hsize : b.size ≤ size) :
    (b.moved addr size).contents (b.realloc mem addr size) = b.contents mem := by
  have hlen := h.length_eq
  have hall : (mem b.addr).take size = mem b.addr := List.take_of_length_le (by omega)
  have hfill : b.fill ≤ (mem b.addr).length := by rw [hlen]; exact h.fill_le
  simp only [contents, realloc, moved_addr, moved_fill, Function.update_self, hall]
  exact List.take_append_of_le_length hfill

theorem Fits.realloc (h : b.Fits mem) {addr size : Nat} (hsize : b.size ≤ size) :
    (b.moved addr size).Fits (b.realloc mem addr size) where
  fill_le := Nat.le_trans h.fill_le hsize
  length_eq := by
    have hlen := h.length_eq
    simp only [Buffer.realloc, moved_addr, moved_size, Function.update_self, List.length_append,
      List.length_take, List.length_replicate]
    omega

theorem realloc_of_ne (mem : Memory) {addr size other : Nat} (h : other ≠ b.addr)
    (h' : other ≠ addr) : b.realloc mem addr size other = mem other := by
  simp only [realloc, release, Function.update_of_ne h', Function.update_of_ne h]

/-! ## Streams -/

/-- A buffer that `come` went into and `gone` has left. -/
structure Carries (b : Buffer) (mem : Memory) (gone come : List UInt8) : Prop extends
    Fits b mem where
  stream : gone ++ b.contents mem = come

variable {gone come : List UInt8}

theorem Carries.store_of_ne (h : c.Carries mem gone come) {addr : Nat} (off : Nat)
    (bytes : List UInt8) (hne : c.addr ≠ addr) :
    c.Carries (store mem addr off bytes) gone come where
  toFits := h.toFits.store_of_ne off bytes hne
  stream := by rw [contents_store_of_ne mem off bytes hne, h.stream]

theorem Carries.realloc (h : b.Carries mem gone come) {addr size : Nat}
    (hsize : b.size ≤ size) :
    (b.moved addr size).Carries (b.realloc mem addr size) gone come where
  toFits := h.toFits.realloc hsize
  stream := by rw [contents_realloc h.toFits hsize, h.stream]

theorem Carries.realloc_of_ne (h : c.Carries mem gone come) {addr size : Nat}
    (hne : c.addr ≠ b.addr) (hne' : c.addr ≠ addr) :
    c.Carries (b.realloc mem addr size) gone come where
  fill_le := h.fill_le
  length_eq := by rw [Buffer.realloc_of_ne mem hne hne', h.length_eq]
  stream := by rw [contents, Buffer.realloc_of_ne mem hne hne', ← contents, h.stream]

theorem Carries.give (h : b.Carries mem gone come) (hroom : b.fill + bytes.length ≤ b.size) :
    (b.grow bytes.length).Carries (b.append mem bytes) gone (come ++ bytes) where
  toFits := h.toFits.append hroom
  stream := by rw [contents_append h.toFits, ← List.append_assoc, h.stream]

theorem Carries.take (h : b.Carries mem gone come) (hn : n ≤ b.fill) :
    (b.shrink n).Carries (b.moveFront mem n) (gone ++ (mem b.addr).take n) come where
  toFits := h.toFits.moveFront n
  stream := by
    have hfront : (mem b.addr).take n = (b.contents mem).take n := by
      rw [contents, List.take_take, Nat.min_eq_left hn]
    rw [contents_moveFront h.toFits, hfront, List.append_assoc, List.take_append_drop, h.stream]

end Buffer

end Serveez.Lib
