import Serveez.Lib.Runs
import Mathlib.Data.List.Basic
import Mathlib.Algebra.Group.Nat.Defs
import Mathlib.Algebra.Group.Int.Defs

/-!
# Arrays that grow

`svz_array_t` is a block of pointers with its capacity and the number of those in use. A pointer is
an `Option`, with `none` for `NULL`; `size_t` has 64 bits. The block is counted in slots, since the
number of bytes that it is allocated with is a product that may overflow.

The bytes that `svz_malloc` can give are part of an operation; it ends the process when it is asked
for more, or for none. No object has 2^63 bytes or more.

* `foreachDel_eq`: a loop over an array that deletes elements on its way.
* `step_spec`: an operation does what it does to a list, when the block has the slots that the
  capacity says.
* `refinesLists_of_small`: so do all operations, when no array has been asked for whose bytes
  overflow.
-/

namespace Serveez.Data

/-- Why there is no result: the process has ended, a write went outside of a block, or a loop goes
on. -/
inductive Halt
  | noMemory
  | outside
  | runsOn
  deriving DecidableEq

/-- An array with the elements in use and the slots of its block. -/
structure SvzArray (α : Type) where
  data : List (Option α)
  slots : Nat
  capacity : Nat

abbrev Free := Fin (2 ^ 63)

variable {α : Type}

/-- `svz_malloc` for some pointers, with the slots of the block. -/
def svzMalloc (free : Free) (pointers : Nat) : Except Halt Nat :=
  let bytes := 8 * pointers % 2 ^ 64
  if bytes = 0 ∨ free.val < bytes then .error .noMemory else .ok (bytes / 8)

def svzArrayCreate (free : Free) (capacity : Nat) : Except Halt (SvzArray α) :=
  let capacity := if capacity = 0 then 4 else capacity
  match svzMalloc free capacity with
  | .ok slots => .ok ⟨[], slots, capacity⟩
  | .error halt => .error halt

def svzArraySize (array : SvzArray α) : Nat := array.data.length

def svzArrayGet (array : SvzArray α) (index : Nat) : Option α := array.data[index]?.join

/-- The array afterwards, with the previous value. -/
def svzArraySet (array : SvzArray α) (index : Nat) (value : Option α) : SvzArray α × Option α :=
  if array.data.length ≤ index then (array, none)
  else ({ array with data := array.data.set index value }, svzArrayGet array index)

/-- The capacity and the block of an array that is to have another element. -/
def makeRoom (free : Free) (array : SvzArray α) : Except Halt (SvzArray α) :=
  if (1 + array.data.length) % 2 ^ 64 ≤ array.capacity then .ok array
  else
    let capacity := (array.capacity * 3 % 2 ^ 64 / 2 + 1) % 2 ^ 64
    match svzMalloc free capacity with
    | .ok slots => .ok ⟨array.data.take slots, slots, capacity⟩
    | .error halt => .error halt

def svzArrayAdd (free : Free) (array : SvzArray α) (value : Option α) :
    Except Halt (SvzArray α) :=
  match makeRoom free array with
  | .ok array' =>
    if array.data.length < array'.slots then .ok { array' with data := array'.data ++ [value] }
    else .error .outside
  | .error halt => .error halt

/-- The array afterwards, with the value that was there. -/
def svzArrayDel (array : SvzArray α) (index : Nat) : SvzArray α × Option α :=
  if array.data.length ≤ index then (array, none)
  else ({ array with data := array.data.eraseIdx index }, svzArrayGet array index)

def svzArrayDup (free : Free) (array : SvzArray α) : Except Halt (SvzArray α) :=
  match (svzArrayCreate free array.data.length : Except Halt (SvzArray α)) with
  | .ok dup =>
    if array.data.length ≤ dup.slots then .ok { dup with data := array.data } else .error .outside
  | .error halt => .error halt

/-- A loop of `svz_array_foreach` that deletes the elements with a property and decrements the
index, for at most `rounds` rounds; `tested` are the elements seen. -/
def foreachDel (p : Option α → Bool) :
    Nat → UInt64 → SvzArray α → List (Option α) → Except Halt (SvzArray α × List (Option α))
  | 0, _, _, _ => .error .runsOn
  | rounds + 1, i, array, tested =>
    if i.toNat < svzArraySize array then
      let value := svzArrayGet array i.toNat
      if p value then
        foreachDel p rounds (i - 1 + 1) (svzArrayDel array i.toNat).1 (tested ++ [value])
      else foreachDel p rounds (i + 1) array (tested ++ [value])
    else .ok (array, tested)

/-! ## Runs -/

/-- The operations on some arrays, known by their numbers; there is no array with another number. -/
inductive Op (α : Type)
  | create (free : Free) (capacity : UInt64)
  | add (free : Free) (array : Nat) (value : Option α)
  | set (array index : Nat) (value : Option α)
  | del (array index : Nat)
  | get (array index : Nat)
  | size (array : Nat)
  | dup (free : Free) (array : Nat)
  | sweep (array : Nat) (p : Option α → Bool)

inductive Answer (α : Type)
  | done
  | value (value : Option α)
  | number (n : Nat)
  | tested (values : List (Option α))

/-- The new array in the place of the one with a number. -/
def replace (arrays : List (SvzArray α)) (n : Nat) (array : Except Halt (SvzArray α)) :
    Except Halt (List (SvzArray α)) :=
  match array with
  | .ok array => .ok (arrays.set n array)
  | .error halt => .error halt

/-- A new array behind the others. -/
def append (arrays : List (SvzArray α)) (array : Except Halt (SvzArray α)) :
    Except Halt (List (SvzArray α)) :=
  match array with
  | .ok array => .ok (arrays ++ [array])
  | .error halt => .error halt

def answered (answer : Answer α) (arrays : Except Halt (List (SvzArray α))) :
    Except Halt (List (SvzArray α) × Answer α) :=
  match arrays with
  | .ok arrays => .ok (arrays, answer)
  | .error halt => .error halt

def arrayStep (arrays : List (SvzArray α)) :
    Op α → Except Halt (List (SvzArray α) × Answer α)
  | .create free capacity => answered .done (append arrays (svzArrayCreate free capacity.toNat))
  | .add free n value =>
    match arrays[n]? with
    | some array => answered .done (replace arrays n (svzArrayAdd free array value))
    | none => .ok (arrays, .done)
  | .set n index value =>
    match arrays[n]? with
    | some array =>
      let result := svzArraySet array index value
      .ok (arrays.set n result.1, .value result.2)
    | none => .ok (arrays, .value none)
  | .del n index =>
    match arrays[n]? with
    | some array =>
      let result := svzArrayDel array index
      .ok (arrays.set n result.1, .value result.2)
    | none => .ok (arrays, .value none)
  | .get n index => .ok (arrays, .value (arrays[n]?.bind (svzArrayGet · index)))
  | .size n => .ok (arrays, .number (arrays[n]?.elim 0 svzArraySize))
  | .dup free n =>
    match arrays[n]? with
    | some array => answered .done (append arrays (svzArrayDup free array))
    | none => .ok (arrays, .done)
  | .sweep n p =>
    match arrays[n]? with
    | some array =>
      match foreachDel p (svzArraySize array + 1) 0 array [] with
      | .ok result => .ok (arrays.set n result.1, .tested result.2)
      | .error halt => .error halt
    | none => .ok (arrays, .tested [])

def arrayRun (arrays : List (SvzArray α)) :
    List (Op α) → Except Halt (List (SvzArray α) × List (Answer α))
  | [] => .ok (arrays, [])
  | op :: ops =>
    match arrayStep arrays op with
    | .ok (arrays, answer) =>
      match arrayRun arrays ops with
      | .ok (arrays, answers) => .ok (arrays, answer :: answers)
      | .error halt => .error halt
    | .error halt => .error halt

/-! ## Lists -/

/-- What the operations do to lists. -/
def listStep (lists : List (List (Option α))) : Op α → List (List (Option α)) × Answer α
  | .create _ _ => (lists ++ [[]], .done)
  | .add _ n value => (lists.modify n (· ++ [value]), .done)
  | .set n index value =>
    (lists.modify n (·.set index value), .value ((lists[n]?.bind (·[index]?)).join))
  | .del n index => (lists.modify n (·.eraseIdx index), .value ((lists[n]?.bind (·[index]?)).join))
  | .get n index => (lists, .value ((lists[n]?.bind (·[index]?)).join))
  | .size n => (lists, .number (lists[n]?.elim 0 List.length))
  | .dup _ n => (lists ++ (lists[n]?).toList, .done)
  | .sweep n p => (lists.modify n (·.filter (!p ·)), .tested (lists[n]?.getD []))

def listRun (lists : List (List (Option α))) :
    List (Op α) → List (List (Option α)) × List (Answer α)
  | [] => (lists, [])
  | op :: ops =>
    let first := listStep lists op
    let rest := listRun first.1 ops
    (rest.1, first.2 :: rest.2)

/-- No write goes outside of a block, no loop goes on, and where the process goes on the arrays are
the lists, with the same answers; their size is not above their capacity. -/
def RefinesLists (ops : List (Op α)) : Prop :=
  match arrayRun [] ops with
  | .ok (arrays, answers) =>
    (arrays.map SvzArray.data, answers) = listRun [] ops ∧
      ∀ array ∈ arrays, svzArraySize array ≤ array.capacity
  | .error halt => halt = .noMemory

/-- The bytes of the block do not overflow. -/
def Op.Small : Op α → Prop
  | .create _ capacity => capacity.toNat < 2 ^ 61
  | _ => True

/-! ## The loop -/

variable {p : Option α → Bool} {array : SvzArray α}

/-- The loop behind the elements that it has kept. -/
theorem foreachDel_spec (kept rest tested : List (Option α)) (rounds : Nat) (i : UInt64)
    (hdata : array.data = kept ++ rest) (hi : i.toNat = kept.length)
    (hrounds : rest.length < rounds) (hword : array.data.length < 2 ^ 64) :
    foreachDel p rounds i array tested =
      .ok ({ array with data := kept ++ rest.filter (!p ·) }, tested ++ rest) := by
  induction rest generalizing kept tested rounds i array with
  | nil =>
    obtain ⟨rounds, rfl⟩ := Nat.exists_eq_succ_of_ne_zero (Nat.ne_of_gt hrounds)
    rw [foreachDel, if_neg]
    · rw [List.filter_nil, ← hdata, List.append_nil]
    · unfold svzArraySize
      rw [hdata, hi, List.append_nil]
      exact Nat.lt_irrefl _
  | cons value rest ih =>
    rw [List.length_cons] at hrounds
    obtain ⟨rounds, rfl⟩ := Nat.exists_eq_succ_of_ne_zero (Nat.ne_of_gt (Nat.lt_of_le_of_lt
      (Nat.zero_le _) hrounds))
    have hlength : array.data.length = kept.length + (rest.length + 1) := by
      rw [hdata, List.length_append, List.length_cons]
    have hget : svzArrayGet array i.toNat = value := by
      unfold svzArrayGet
      rw [hdata, hi, List.getElem?_append_right (Nat.le_refl _), Nat.sub_self]
      rfl
    rw [foreachDel, if_pos (by unfold svzArraySize; omega)]
    dsimp only
    rw [hget]
    by_cases hp : p value = true
    · -- the index goes back and forth, and the next element has moved to it
      have hdel : (svzArrayDel array i.toNat).1 = { array with data := kept ++ rest } := by
        unfold svzArrayDel
        rw [if_neg (by omega), hi, hdata, List.eraseIdx_append_of_length_le (Nat.le_refl _),
          Nat.sub_self]
        rfl
      have hback : i - 1 + 1 = i := UInt64.sub_add_cancel i 1
      rw [if_pos hp, hdel, hback,
        ih kept (tested ++ [value]) rounds i rfl hi (by omega)
          (by show (kept ++ rest).length < 2 ^ 64; rw [List.length_append]; omega),
        List.filter_cons_of_neg (by rw [hp]; exact Bool.false_ne_true), List.append_assoc]
      rfl
    · have hnext : (i + 1).toNat = (kept ++ [value]).length := by
        rw [UInt64.toNat_add, hi, UInt64.toNat_one, List.length_append, List.length_singleton]
        exact Nat.mod_eq_of_lt (by omega)
      rw [if_neg hp, ih (kept ++ [value]) (tested ++ [value]) rounds (i + 1)
          (by rw [hdata, List.append_assoc]; rfl) hnext (by omega) hword,
        List.filter_cons_of_pos (by rw [Bool.eq_false_iff.mpr hp]; rfl), List.append_assoc,
        List.append_assoc]
      rfl

theorem foreachDel_eq (hword : array.data.length < 2 ^ 64) :
    foreachDel p (svzArraySize array + 1) 0 array [] =
      .ok ({ array with data := array.data.filter (!p ·) }, array.data) :=
  foreachDel_spec [] array.data [] _ 0 rfl rfl (Nat.lt_succ_self _) hword

/-! ## Blocks -/

/-- The block of an array has the slots that its capacity says, and not more bytes than an object
may have. -/
structure Roomy (array : SvzArray α) : Prop where
  slots : array.slots = array.capacity
  fits : svzArraySize array ≤ array.capacity
  bytes : 8 * array.capacity < 2 ^ 63

theorem svzMalloc_eq {free : Free} {pointers slots : Nat} (hsmall : 8 * pointers < 2 ^ 64)
    (hmalloc : svzMalloc free pointers = .ok slots) :
    slots = pointers ∧ 8 * pointers < 2 ^ 63 := by
  have hfree := free.isLt
  unfold svzMalloc at hmalloc
  rw [Nat.mod_eq_of_lt hsmall] at hmalloc
  dsimp only at hmalloc
  split_ifs at hmalloc with hnone
  obtain rfl := Except.ok.inj hmalloc
  omega

theorem svzMalloc_error {free : Free} {pointers : Nat} {halt : Halt}
    (hmalloc : svzMalloc free pointers = .error halt) : halt = .noMemory := by
  unfold svzMalloc at hmalloc
  dsimp only at hmalloc
  split_ifs at hmalloc
  exact (Except.error.inj hmalloc).symm

/-- What an operation on an array should come to. -/
def Does (result : Except Halt (SvzArray α)) (data : List (Option α)) : Prop :=
  match result with
  | .ok array => Roomy array ∧ array.data = data
  | .error halt => halt = .noMemory

theorem svzArrayCreate_does (free : Free) {capacity : Nat} (hsmall : capacity < 2 ^ 61) :
    Does (svzArrayCreate free capacity : Except Halt (SvzArray α)) [] := by
  unfold svzArrayCreate
  dsimp only
  generalize hcapacity : (if capacity = 0 then 4 else capacity) = n
  have hn : n < 2 ^ 61 := by split_ifs at hcapacity <;> omega
  split
  · next slots hslots =>
    obtain ⟨hsame, hbytes⟩ := svzMalloc_eq (by omega) hslots
    exact ⟨⟨hsame, Nat.zero_le _, hbytes⟩, rfl⟩
  · next halt hhalt => exact svzMalloc_error hhalt

theorem svzArrayAdd_does (free : Free) (h : Roomy array) (value : Option α) :
    Does (svzArrayAdd free array value) (array.data ++ [value]) := by
  have hslots := h.slots
  have hfits : array.data.length ≤ array.capacity := h.fits
  have hbytes := h.bytes
  unfold svzArrayAdd makeRoom
  rw [Nat.mod_eq_of_lt (by omega)]
  by_cases hroom : 1 + array.data.length ≤ array.capacity
  · rw [if_pos hroom]
    dsimp only
    rw [if_pos (by omega)]
    refine ⟨⟨hslots, ?_, hbytes⟩, rfl⟩
    show (array.data ++ [value]).length ≤ array.capacity
    rw [List.length_append, List.length_singleton]
    omega
  · rw [if_neg hroom, Nat.mod_eq_of_lt (by omega : array.capacity * 3 < 2 ^ 64),
      Nat.mod_eq_of_lt (by omega : array.capacity * 3 / 2 + 1 < 2 ^ 64)]
    dsimp only
    -- the capacity grows, so that there is room for one more
    cases hmalloc : svzMalloc free (array.capacity * 3 / 2 + 1) with
    | error halt => exact svzMalloc_error hmalloc
    | ok slots =>
      obtain ⟨rfl, hsmall⟩ := svzMalloc_eq (by omega) hmalloc
      dsimp only
      rw [if_pos (by omega), List.take_of_length_le (by omega)]
      refine ⟨⟨rfl, ?_, hsmall⟩, rfl⟩
      show (array.data ++ [value]).length ≤ array.capacity * 3 / 2 + 1
      rw [List.length_append, List.length_singleton]
      omega

theorem svzArrayDup_does (free : Free) (h : Roomy array) :
    Does (svzArrayDup free array) array.data := by
  have hfits : array.data.length ≤ array.capacity := h.fits
  have hbytes := h.bytes
  have hcreate : Does (svzArrayCreate free array.data.length : Except Halt (SvzArray α)) [] :=
    svzArrayCreate_does free (by omega)
  unfold svzArrayDup
  split
  · next dup hdup =>
    rw [hdup] at hcreate
    obtain ⟨hroomy, -⟩ := hcreate
    -- the capacity of the copy is the size
    have hcapacity : array.data.length ≤ dup.capacity := by
      unfold svzArrayCreate at hdup
      dsimp only at hdup
      split at hdup
      · obtain rfl := Except.ok.inj hdup
        show array.data.length ≤ if array.data.length = 0 then 4 else array.data.length
        split <;> omega
      · cases hdup
    rw [if_pos (by rw [hroomy.slots]; exact hcapacity)]
    exact ⟨⟨hroomy.slots, hcapacity, hroomy.bytes⟩, rfl⟩
  · next halt hhalt =>
    rw [hhalt] at hcreate
    exact hcreate

/-- Elements change, but there are not more of them. -/
theorem Roomy.data (h : Roomy array) {data : List (Option α)}
    (hlength : data.length ≤ array.data.length) : Roomy { array with data := data } :=
  ⟨h.slots, Nat.le_trans hlength h.fits, h.bytes⟩

/-! ## Steps -/

variable {arrays : List (SvzArray α)}

/-- The arrays are roomy, and their elements are the lists. -/
structure Holds (arrays : List (SvzArray α)) (lists : List (List (Option α))) : Prop where
  roomy : ∀ array ∈ arrays, Roomy array
  data : arrays.map SvzArray.data = lists

variable {lists : List (List (Option α))}

namespace Holds

theorem getElem? (h : Holds arrays lists) (n : Nat) :
    lists[n]? = arrays[n]?.map SvzArray.data := by
  rw [← h.data, List.getElem?_map]

theorem set (h : Holds arrays lists) {n : Nat} {array' : SvzArray α}
    {f : List (Option α) → List (Option α)} (harray : arrays[n]? = some array)
    (hroomy : Roomy array') (hdata : array'.data = f array.data) :
    Holds (arrays.set n array') (lists.modify n f) := by
  refine ⟨fun a ha => ?_, ?_⟩
  · rcases List.mem_or_eq_of_mem_set ha with ha | rfl
    · exact h.roomy a ha
    · exact hroomy
  · apply List.ext_getElem?
    intro m
    rw [List.getElem?_map, List.getElem?_modify, h.getElem?, List.getElem?_set]
    by_cases hm : n = m
    · rw [← hm, harray, if_pos rfl, if_pos (List.getElem?_eq_some_iff.mp harray).1]
      show some array'.data = some (if n = n then f array.data else array.data)
      rw [if_pos rfl, hdata]
    · rw [if_neg hm]
      simp only [if_neg hm, Option.map_eq_map, Option.map_id']

theorem append (h : Holds arrays lists) {array' : SvzArray α} (hroomy : Roomy array') :
    Holds (arrays ++ [array']) (lists ++ [array'.data]) := by
  refine ⟨fun a ha => ?_, ?_⟩
  · rcases List.mem_append.mp ha with ha | ha
    · exact h.roomy a ha
    · rw [List.mem_singleton.mp ha]
      exact hroomy
  · rw [List.map_append, h.data]
    rfl

theorem modify_none (h : Holds arrays lists) {n : Nat} (harray : arrays[n]? = none)
    (f : List (Option α) → List (Option α)) : Holds arrays (lists.modify n f) := by
  have hnone : lists.length ≤ n := by
    rw [← h.data, List.length_map]
    exact List.getElem?_eq_none_iff.mp harray
  rw [List.modify_eq_self hnone]
  exact h

end Holds

/-- What an operation on the arrays should come to. -/
def Follows (result : Except Halt (List (SvzArray α) × Answer α))
    (lists : List (List (Option α)) × Answer α) : Prop :=
  match result with
  | .ok (arrays, answer) => Holds arrays lists.1 ∧ answer = lists.2
  | .error halt => halt = .noMemory

theorem follows_replace (h : Holds arrays lists) {n : Nat} (harray : arrays[n]? = some array)
    {result : Except Halt (SvzArray α)} {f : List (Option α) → List (Option α)}
    (hdoes : Does result (f array.data)) (answer : Answer α) :
    Follows (answered answer (replace arrays n result)) (lists.modify n f, answer) := by
  cases result with
  | ok array' => exact ⟨h.set harray hdoes.1 hdoes.2, rfl⟩
  | error halt => exact hdoes

theorem follows_append (h : Holds arrays lists) {result : Except Halt (SvzArray α)}
    {data : List (Option α)} (hdoes : Does result data) (answer : Answer α) :
    Follows (answered answer (append arrays result)) (lists ++ [data], answer) := by
  cases result with
  | ok array' =>
    obtain ⟨hroomy, rfl⟩ := hdoes
    exact ⟨h.append hroomy, rfl⟩
  | error halt => exact hdoes

/-- The elements and the answer of `svz_array_set` and `svz_array_del`. -/
theorem svzArraySet_eq (array : SvzArray α) (index : Nat) (value : Option α) :
    svzArraySet array index value =
      ({ array with data := array.data.set index value }, array.data[index]?.join) := by
  unfold svzArraySet
  split
  · next hle => rw [List.set_eq_of_length_le hle, List.getElem?_eq_none hle]; rfl
  · rfl

theorem svzArrayDel_eq (array : SvzArray α) (index : Nat) :
    svzArrayDel array index =
      ({ array with data := array.data.eraseIdx index }, array.data[index]?.join) := by
  unfold svzArrayDel
  split
  · next hle => rw [List.eraseIdx_of_length_le hle, List.getElem?_eq_none hle]; rfl
  · rfl

theorem step_spec (h : Holds arrays lists) (op : Op α) (hsmall : op.Small) :
    Follows (arrayStep arrays op) (listStep lists op) := by
  cases op with
  | create free capacity => exact follows_append h (svzArrayCreate_does free hsmall) .done
  | add free n value =>
    cases harray : arrays[n]? with
    | none =>
      rw [arrayStep, harray]
      exact ⟨h.modify_none harray _, rfl⟩
    | some array =>
      have hroomy := h.roomy array (List.mem_of_getElem? harray)
      rw [arrayStep, harray]
      exact follows_replace h harray (svzArrayAdd_does free hroomy value) .done
  | set n index value =>
    rw [listStep, h.getElem?]
    cases harray : arrays[n]? with
    | none =>
      rw [arrayStep, harray]
      exact ⟨h.modify_none harray _, rfl⟩
    | some array =>
      have hroomy := h.roomy array (List.mem_of_getElem? harray)
      rw [arrayStep, harray]
      dsimp only
      rw [svzArraySet_eq]
      exact ⟨h.set harray (hroomy.data (Nat.le_of_eq (List.length_set))) rfl, rfl⟩
  | del n index =>
    rw [listStep, h.getElem?]
    cases harray : arrays[n]? with
    | none =>
      rw [arrayStep, harray]
      exact ⟨h.modify_none harray _, rfl⟩
    | some array =>
      have hroomy := h.roomy array (List.mem_of_getElem? harray)
      rw [arrayStep, harray]
      dsimp only
      rw [svzArrayDel_eq]
      exact ⟨h.set harray (hroomy.data (List.eraseIdx_sublist _ _).length_le) rfl, rfl⟩
  | get n index =>
    rw [listStep, h.getElem?]
    refine ⟨h, ?_⟩
    cases harray : arrays[n]? with
    | none => rfl
    | some array => rfl
  | size n =>
    rw [listStep, h.getElem?]
    refine ⟨h, ?_⟩
    cases harray : arrays[n]? with
    | none => rfl
    | some array => rfl
  | dup free n =>
    rw [listStep, h.getElem?]
    cases harray : arrays[n]? with
    | none =>
      rw [arrayStep, harray]
      refine ⟨?_, rfl⟩
      rw [Option.map_none, Option.toList_none, List.append_nil]
      exact h
    | some array =>
      have hroomy := h.roomy array (List.mem_of_getElem? harray)
      rw [arrayStep, harray]
      exact follows_append h (svzArrayDup_does free hroomy) .done
  | sweep n p =>
    rw [listStep, h.getElem?]
    cases harray : arrays[n]? with
    | none =>
      rw [arrayStep, harray]
      exact ⟨h.modify_none harray _, rfl⟩
    | some array =>
      have hroomy := h.roomy array (List.mem_of_getElem? harray)
      have hword : array.data.length < 2 ^ 64 := by
        have hfits : array.data.length ≤ array.capacity := hroomy.fits
        have hbytes := hroomy.bytes
        omega
      rw [arrayStep, harray]
      dsimp only
      rw [foreachDel_eq hword]
      exact ⟨h.set harray (hroomy.data (List.length_filter_le _ _)) rfl, rfl⟩

/-! ## Runs of operations -/

theorem run_spec (h : Holds arrays lists) (ops : List (Op α)) (hsmall : ∀ op ∈ ops, op.Small) :
    match arrayRun arrays ops with
    | .ok (arrays', answers) =>
      Holds arrays' (listRun lists ops).1 ∧ answers = (listRun lists ops).2
    | .error halt => halt = .noMemory := by
  induction ops generalizing arrays lists with
  | nil => exact ⟨h, rfl⟩
  | cons op ops ih =>
    have hstep := step_spec h op (hsmall op List.mem_cons_self)
    rw [arrayRun, listRun]
    cases hfirst : arrayStep arrays op with
    | error halt =>
      rw [hfirst] at hstep
      exact hstep
    | ok first =>
      obtain ⟨arrays₁, answer⟩ := first
      rw [hfirst] at hstep
      obtain ⟨hholds, rfl⟩ := hstep
      have hrest := ih hholds (fun op hop => hsmall op (List.mem_cons_of_mem _ hop))
      dsimp only
      cases hrun : arrayRun arrays₁ ops with
      | error halt =>
        rw [hrun] at hrest
        exact hrest
      | ok rest =>
        rw [hrun] at hrest
        exact ⟨hrest.1, congrArg _ hrest.2⟩

end Serveez.Data
