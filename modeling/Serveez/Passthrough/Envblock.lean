import Serveez.Lib.Runs
import Mathlib.Data.List.Nodup

/-!
# Environment blocks

`svz_envblock_add` looks for an entry to replace by comparing the new text up to its `=` with
the beginning of each entry: an entry whose name goes on behind the new name compares equal.

* `svzEnvblockAdd_ofTexts`, `svzEnvblockDefault_create`: the array operations of the two
  functions, said once as operations on the list of entries.
* `svzEnvblockAdd_null`: an addition to a block with a null pointer among its entries, which
  `svz_strdup` makes of an empty string of the environment.

A text is the list of its characters without the terminating zero.
-/

namespace Serveez.Env

open Lib

abbrev Text := List Char

def vsnprintfBufSize : Nat := 2048

/-! ## The array and its strings -/

/-- A cell of the array `entry`; `uninit` has been allocated and not yet written. -/
inductive Cell
  | uninit
  | null
  | str (s : Text)

/-- `svz_envblock_t`. A null pointer `entry` is the array without cells. -/
structure Envblock where
  entry : List Cell
  size : Nat

def svzEnvblockCreate : Envblock := ⟨[], 0⟩

def svzRealloc (cells : List Cell) (n : Nat) : List Cell :=
  cells.take n ++ List.replicate (n - cells.length) .uninit

/-- A write to a cell; outside of the array it is a fault. -/
def store (cells : List Cell) (n : Nat) (c : Cell) : Option (List Cell) :=
  if n < cells.length then some (cells.set n c) else none

/-- What `vsnprintf` leaves in a buffer of `VSNPRINTF_BUF_SIZE` bytes. -/
def vsnprintf (s : Text) : Text := s.take (vsnprintfBufSize - 1)

def strchr (s : Text) (c : Char) : Option Nat := s.findIdx? (· = c)

/-- `!memcmp (buffer, entry, len)` for a `len` inside of `buffer`. The terminating zero of a
shorter `entry` differs from the character of `buffer` there. -/
def memEq (buffer entry : Text) (len : Nat) : Bool := buffer.take len = entry.take len

/-- The loop that checks for a duplicate entry: `n` is the next cell, of which `k` are left. -/
def findDuplicate (buffer : Text) (len : Nat) (cells : List Cell) :
    Nat → Nat → Option (Option Nat)
  | _, 0 => some none
  | n, k + 1 =>
    match cells[n]? with
    | some (.str s) =>
      if memEq buffer s len then some (some n) else findDuplicate buffer len cells (n + 1) k
    | _ => none

/-- `svz_envblock_add` with the text that the format and its arguments make. Without a `=`
the length is the difference of a null pointer and the buffer. -/
def svzEnvblockAdd (env : Envblock) (formatted : Text) : Option Envblock := do
  let buffer := vsnprintf formatted
  let len ← strchr buffer '='
  match ← findDuplicate buffer len env.entry 0 env.size with
  | some n =>
    let entry ← store env.entry n (.str buffer)
    some { env with entry := entry }
  | none =>
    let size := env.size + 1
    let entry := svzRealloc env.entry (size + 1)
    let entry ← store entry (size - 1) (.str buffer)
    let entry ← store entry size .null
    some ⟨entry, size⟩

/-- `svz_strdup` -/
def svzStrdup (s : Text) : Cell := if s = [] then .null else .str s

/-- `envblock_free` -/
def envblockFree (_ : Envblock) : Envblock := ⟨[], 0⟩

def defaultLoop : Envblock → List Text → Option Envblock
  | env, [] => some env
  | env, s :: rest => do
    let size := env.size + 1
    let entry ← store (svzRealloc env.entry (size + 1)) (size - 1) (svzStrdup s)
    defaultLoop ⟨entry, size⟩ rest

/-- `svz_envblock_default`. Without any variable the terminator is written through the null
pointer. -/
def svzEnvblockDefault (environment : List Text) (env : Envblock) : Option Envblock := do
  let env := if env.size ≠ 0 then envblockFree env else env
  let env ← defaultLoop env environment
  let entry ← store env.entry env.size .null
  some { env with entry := entry }

/-- `svz_envblock_get` on a Unix system, in the working directory `dir`. -/
def svzEnvblockGet (dir : Text) (env : Envblock) : Option Envblock :=
  svzEnvblockAdd env ("PWD=".toList ++ dir)

/-! ## Blocks as lists of entries -/

/-- The block with the given entries. One without entries has no array. -/
def ofTexts (l : List Text) : Envblock :=
  ⟨if l = [] then [] else l.map .str ++ [.null], l.length⟩

/-- The new entry replaces the first one that begins with its name. -/
def putText (l : List Text) (name buffer : Text) : List Text :=
  match l.findIdx? (fun s => name.isPrefixOf s) with
  | some n => l.set n buffer
  | none => l ++ [buffer]

variable {len : Nat} {l : List Text} {n : Nat}

theorem ofTexts_of_ne_nil (hl : l ≠ []) :
    ofTexts l = ⟨l.map .str ++ [.null], l.length⟩ := by
  rw [ofTexts, if_neg hl]

theorem ofTexts_size (l : List Text) : (ofTexts l).size = l.length := rfl

theorem mem_entry_ofTexts {s : Text} (h : s ∈ l) :
    Cell.str s ∈ (ofTexts l).entry.take (ofTexts l).size := by
  have hl : l ≠ [] := List.ne_nil_of_mem h
  rw [ofTexts_of_ne_nil hl, List.take_left' (by simp)]
  exact List.mem_map_of_mem h

theorem memEq_eq_isPrefixOf {buffer entry : Text} (hlen : len ≤ buffer.length) :
    memEq buffer entry len = (buffer.take len).isPrefixOf entry := by
  rw [memEq, Bool.eq_iff_iff, decide_eq_true_iff, List.isPrefixOf_iff_prefix,
    List.prefix_iff_eq_take, List.length_take, Nat.min_eq_left hlen]

theorem strchr_lt {s : Text} {c : Char} (h : strchr s c = some len) :
    len < s.length := by
  rw [strchr, List.findIdx?_eq_some_iff_getElem] at h
  exact h.1

/-- The loop comes to an entry of the front, or goes on behind it. -/
theorem findDuplicate_front {buffer : Text} (hlen : len ≤ buffer.length) (front : List Text)
    {cells tail : List Cell} {n k : Nat} (hcells : cells.drop n = front.map .str ++ tail)
    (hk : front.length ≤ k) :
    findDuplicate buffer len cells n k =
      match front.findIdx? (fun s => (buffer.take len).isPrefixOf s) with
      | some m => some (some (n + m))
      | none => findDuplicate buffer len cells (n + front.length) (k - front.length) := by
  induction front generalizing n k with
  | nil => rfl
  | cons s front ih =>
    obtain ⟨k, rfl⟩ := Nat.exists_eq_succ_of_ne_zero (show k ≠ 0 by rintro rfl; simp at hk)
    have hget : cells[n]? = some (.str s) := by
      rw [← List.head?_drop, hcells]
      rfl
    have hnext : cells.drop (n + 1) = front.map .str ++ tail := by
      rw [← List.tail_drop, hcells]
      rfl
    rw [findDuplicate, hget]
    simp only [memEq_eq_isPrefixOf hlen]
    rw [ih hnext (by simpa using hk), List.findIdx?_cons]
    cases (buffer.take len).isPrefixOf s with
    | true => rfl
    | false =>
      simp only [Bool.false_eq_true, if_false]
      cases front.findIdx? (fun s => (buffer.take len).isPrefixOf s) with
      | some m =>
        rw [Option.map_some]
        simp only [Nat.add_assoc, Nat.add_comm 1 m]
      | none =>
        simp only [Option.map_none, List.length_cons, Nat.succ_eq_add_one,
          Nat.add_sub_add_right, Nat.add_assoc, Nat.add_comm 1]

theorem findDuplicate_ofTexts {buffer : Text} (hlen : len ≤ buffer.length) (l : List Text) :
    findDuplicate buffer len (ofTexts l).entry 0 l.length =
      some (l.findIdx? (fun s => (buffer.take len).isPrefixOf s)) := by
  have hcells : ∃ tail, (ofTexts l).entry.drop 0 = l.map .str ++ tail := by
    by_cases hl : l = []
    · exact ⟨[], by rw [hl]; rfl⟩
    · exact ⟨[.null], by rw [ofTexts_of_ne_nil hl, List.drop_zero]⟩
  obtain ⟨tail, hcells⟩ := hcells
  rw [findDuplicate_front hlen l hcells (Nat.le_refl _), Nat.sub_self]
  cases l.findIdx? (fun s => (buffer.take len).isPrefixOf s) with
  | some m => simp only [Nat.zero_add]
  | none => rfl

theorem set_ofTexts_entry (hn : n < l.length) (s : Text) :
    ((ofTexts l).entry.set n (.str s)) = (ofTexts (l.set n s)).entry := by
  have hl : l ≠ [] := List.ne_nil_of_length_pos (by omega)
  have hl' : l.set n s ≠ [] := List.ne_nil_of_length_pos (by simpa using by omega)
  rw [ofTexts_of_ne_nil hl, ofTexts_of_ne_nil hl']
  simp only [List.map_set]
  exact List.set_append_left _ _ (by simpa using hn)

/-- Growing by one: the cell of the terminator gets the string. -/
theorem store_svzRealloc {cells : List Cell} (hlow : n ≤ cells.length)
    (hhigh : cells.length ≤ n + 1) (c : Cell) :
    store (svzRealloc cells (n + 2)) n c = some (cells.take n ++ [c, .uninit]) := by
  have hlen : (svzRealloc cells (n + 2)).length = n + 2 := by
    simp only [svzRealloc, List.length_append, List.length_take, List.length_replicate]
    omega
  have hsplit : ∃ u, svzRealloc cells (n + 2) = cells.take n ++ [u, .uninit] := by
    rw [svzRealloc, List.take_of_length_le (by omega)]
    obtain h | h : cells.length = n ∨ cells.length = n + 1 := by omega
    · refine ⟨.uninit, ?_⟩
      rw [h, List.take_of_length_le (by omega), Nat.add_sub_cancel_left]
      rfl
    · refine ⟨cells[n], ?_⟩
      have hrest : n + 2 - cells.length = 1 := by omega
      have hlast : cells.drop n = [cells[n]] := by
        rw [List.drop_eq_getElem_cons (by omega), List.drop_of_length_le (by omega)]
      conv => lhs; rw [hrest, ← List.take_append_drop n cells, hlast, List.append_assoc]
      rfl
  obtain ⟨u, hu⟩ := hsplit
  rw [store, if_pos (by omega), hu, List.set_append_right _ _ (List.length_take_le _ _),
    List.length_take, Nat.min_eq_left hlow, Nat.sub_self]
  rfl

theorem store_terminator (cells : List Cell) (hn : n = cells.length + 1) (c u d : Cell) :
    store (cells ++ [c, u]) n d = some (cells ++ [c, d]) := by
  subst hn
  rw [store, if_pos (by simp), List.set_append_right _ _ (by simp), Nat.add_sub_cancel_left]
  rfl

theorem take_ofTexts_entry (l : List Text) : (ofTexts l).entry.take l.length = l.map .str := by
  by_cases hl : l = []
  · subst hl
    rfl
  · rw [ofTexts_of_ne_nil hl, List.take_left' (by simp)]

theorem length_ofTexts_entry (l : List Text) :
    l.length ≤ (ofTexts l).entry.length ∧ (ofTexts l).entry.length ≤ l.length + 1 := by
  by_cases hl : l = []
  · subst hl
    exact ⟨Nat.le_refl _, Nat.zero_le _⟩
  · rw [ofTexts_of_ne_nil hl]
    simp

theorem svzEnvblockAdd_ofTexts (l : List Text) {formatted : Text}
    (h : strchr (vsnprintf formatted) '=' = some len) :
    svzEnvblockAdd (ofTexts l) formatted =
      some (ofTexts (putText l ((vsnprintf formatted).take len) (vsnprintf formatted))) := by
  have hlen := strchr_lt h
  have hdup := findDuplicate_ofTexts (Nat.le_of_lt hlen) l
  simp only [svzEnvblockAdd, h, ofTexts_size, hdup, Option.bind_eq_bind, Option.bind_some, putText]
  cases hfind : l.findIdx? (fun s => ((vsnprintf formatted).take len).isPrefixOf s) with
  | some n =>
    have hn : n < l.length := (List.findIdx?_eq_some_iff_getElem.mp hfind).1
    have hn' : n < (ofTexts l).entry.length := Nat.lt_of_lt_of_le hn (length_ofTexts_entry l).1
    simp only
    rw [store, if_pos hn', set_ofTexts_entry hn]
    simp only [Option.bind_some, ofTexts, List.length_set]
  | none =>
    obtain ⟨hlow, hhigh⟩ := length_ofTexts_entry l
    simp only [Nat.add_sub_cancel]
    rw [store_svzRealloc hlow hhigh, Option.bind_some, take_ofTexts_entry,
      store_terminator _ (by simp), Option.bind_some, ofTexts_of_ne_nil (by simp)]
    simp

/-- With a null pointer among the entries an addition replaces one in front of it, or compares
the null pointer. -/
theorem svzEnvblockAdd_null (front : List Text) (rest : List Cell) {size : Nat}
    (hsize : front.length < size) {formatted : Text}
    (h : strchr (vsnprintf formatted) '=' = some len) :
    svzEnvblockAdd ⟨front.map .str ++ .null :: rest, size⟩ formatted =
      if ∃ s ∈ front, (vsnprintf formatted).take len <+: s then
        some ⟨(putText front ((vsnprintf formatted).take len) (vsnprintf formatted)).map .str ++
          .null :: rest, size⟩
      else none := by
  have hlen := strchr_lt h
  have hdup := findDuplicate_front (Nat.le_of_lt hlen) front
    (List.drop_zero (l := front.map Cell.str ++ .null :: rest)) (Nat.le_of_lt hsize)
  simp only [svzEnvblockAdd, h, hdup, Option.bind_eq_bind, Option.bind_some, putText]
  cases hfind : front.findIdx? (fun s => ((vsnprintf formatted).take len).isPrefixOf s) with
  | some n =>
    obtain ⟨hn, hpos, -⟩ := List.findIdx?_eq_some_iff_getElem.mp hfind
    rw [if_pos ⟨front[n], List.getElem_mem hn, List.isPrefixOf_iff_prefix.mp hpos⟩]
    have hn' : 0 + n < (front.map Cell.str ++ .null :: rest).length := by
      rw [List.length_append, List.length_map]
      omega
    simp only [Option.bind_some]
    rw [store, if_pos hn', Nat.zero_add, List.set_append_left _ _ (by simpa using hn),
      Option.bind_some, List.map_set]
  | none =>
    obtain ⟨k, hk⟩ := Nat.exists_eq_succ_of_ne_zero (Nat.sub_ne_zero_of_lt hsize)
    have hnull : (front.map Cell.str ++ .null :: rest)[0 + front.length]? = some .null := by
      rw [Nat.zero_add, List.getElem?_append_right (by simp), List.length_map, Nat.sub_self]
      rfl
    rw [if_neg, hk, findDuplicate, hnull]
    · rfl
    · rintro ⟨s, hs, hpre⟩
      have hnot := List.findIdx?_eq_none_iff.mp hfind s hs
      rw [List.isPrefixOf_iff_prefix.mpr hpre] at hnot
      cases hnot

theorem defaultLoop_eq (rest : List Text) (cells : List Cell) :
    defaultLoop ⟨cells ++ [.uninit], cells.length⟩ rest =
      some ⟨cells ++ rest.map svzStrdup ++ [.uninit], (cells ++ rest.map svzStrdup).length⟩ := by
  induction rest generalizing cells with
  | nil => simp [defaultLoop]
  | cons s rest ih =>
    have hstore : store (svzRealloc (cells ++ [.uninit]) (cells.length + 2)) cells.length
        (svzStrdup s) = some (cells ++ [svzStrdup s] ++ [.uninit]) := by
      rw [store_svzRealloc (by simp) (by simp), List.take_left' rfl, List.append_assoc]
      rfl
    have hnext := ih (cells ++ [svzStrdup s])
    rw [List.length_append, List.length_singleton] at hnext
    simp only [defaultLoop, Nat.add_sub_cancel, hstore, Option.bind_eq_bind, Option.bind_some]
    rw [hnext, List.append_assoc cells, List.singleton_append, List.map_cons]

/-- The block of the environment, which has to have a variable. -/
theorem svzEnvblockDefault_create (environment : List Text) :
    svzEnvblockDefault environment svzEnvblockCreate =
      if environment = [] then none
      else some ⟨environment.map svzStrdup ++ [.null], environment.length⟩ := by
  cases environment with
  | nil => rfl
  | cons s rest =>
    have hfirst : store (svzRealloc [] 2) 0 (svzStrdup s) = some ([svzStrdup s] ++ [.uninit]) := rfl
    have hloop := defaultLoop_eq rest [svzStrdup s]
    have hterm : ∀ cells : List Cell,
        store (cells ++ [.uninit]) cells.length .null = some (cells ++ [.null]) := by
      intro cells
      rw [store, if_pos (by simp), List.set_append_right _ _ (Nat.le_refl _), Nat.sub_self]
      rfl
    simp only [svzEnvblockDefault, svzEnvblockCreate, ne_eq, not_true_eq_false, if_false,
      defaultLoop, Nat.zero_add, Nat.reduceAdd, Nat.sub_self, hfirst, Option.bind_eq_bind,
      Option.bind_some]
    change ((defaultLoop ⟨[svzStrdup s] ++ [.uninit], [svzStrdup s].length⟩ rest).bind _) = _
    rw [hloop, Option.bind_some, if_neg (by simp)]
    simp only [hterm, Option.bind_some]
    simp

theorem map_svzStrdup (hl : [] ∉ l) : l.map svzStrdup = l.map .str := by
  apply List.map_congr_left
  intro s hs
  have hne : s ≠ [] := by
    rintro rfl
    exact hl hs
  rw [svzStrdup, if_neg hne]

end Serveez.Env
