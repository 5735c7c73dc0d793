import Serveez.Irc.Messages
import Serveez.Lib.Filling

/-!
# Items of a list

`irc_get_target` copies an item of a list with commas into a static buffer. The loop that should
skip the items before it stops at a comma without going over it, so it finds the second item for
every index but 0. The terminator is put one place too far, behind a byte of an earlier item.

* `getTarget_iff`: what is returned.
* `item_iff`: when that is the item.
-/

namespace Serveez.Irc.ListItems

open Lib
open Messages (maxNameLen)

/-- The loop of `irc_get_target` over the items before. -/
def skipItems : Nat → List UInt8 → List UInt8
  | 0, p => p
  | nr + 1, p => if p = [] then p else skipItems nr (p.dropWhile (· ≠ 44))

/-- `irc_get_target`; `target` is what has been in the buffer. -/
def ircGetTarget (target : Block UInt8 maxNameLen) (para : List UInt8) (nr : Nat) :
    Option (Block UInt8 maxNameLen) :=
  let target := target.set 0 0
  let p := skipItems nr para
  -- got a key (first or any ',' separated)
  if p.head? = some 44 ∨ p.length = para.length then
    let p := if p.head? = some 44 then p.tail else p
    let text := p.takeWhile (· ≠ 44)
    (target.copy text).bind (·.store (text.length + 1) 0)
  else some target

/-! ## What is returned -/

variable {target : Block UInt8 maxNameLen} {para text : List UInt8} {nr : Nat}

/-- The item that is taken: the first one for the index 0, unless it is empty, else the second. -/
def takenItem (items : List (List UInt8)) (nr : Nat) : List UInt8 :=
  if nr = 0 ∧ items.headD [] ≠ [] then items.headD [] else items.getD 1 []

/-- The byte that has been behind an item. -/
def staleByte (target : Block UInt8 maxNameLen) (text : List UInt8) : List UInt8 :=
  if text = [] then [] else ((target.cells.drop text.length).take 1).filter (· ≠ 0)

/-- The loop stops at the first comma, however often it is run. -/
theorem skipItems_succ (nr : Nat) (p : List UInt8) :
    skipItems (nr + 1) p = p.dropWhile (· ≠ 44) := by
  induction nr generalizing p with
  | zero =>
    rw [skipItems]
    split_ifs with hnil
    · rw [hnil]
      rfl
    · rfl
  | succ nr ih =>
    rw [skipItems, ih]
    split_ifs with hnil
    · rw [hnil]
      rfl
    · by_cases hmem : 44 ∈ p
      · obtain ⟨text, rest, rfl, htext⟩ := List.eq_append_cons_of_mem hmem
        rw [dropWhile_ne_cut htext]
        rfl
      · rw [dropWhile_ne_self hmem]
        rfl

theorem headD_splitOn (p : List UInt8) : (p.splitOn 44).headD [] = p.takeWhile (· ≠ 44) := by
  by_cases hmem : 44 ∈ p
  · obtain ⟨text, rest, rfl, htext⟩ := List.eq_append_cons_of_mem hmem
    rw [List.splitOn_append_cons_self_of_not_mem htext, List.headD_cons, takeWhile_ne_cut htext]
  · rw [List.splitOn_eq_singleton hmem, List.headD_cons, takeWhile_ne_self hmem]

/-- Which item is taken; without any the buffer holds the empty string. -/
theorem ircGetTarget_eq (target : Block UInt8 maxNameLen) (para : List UInt8) (nr : Nat) :
    ircGetTarget target para nr =
        ((target.set 0 0).copy (takenItem (para.splitOn 44) nr)).bind
          (·.store ((takenItem (para.splitOn 44) nr).length + 1) 0) ∨
      ircGetTarget target para nr = some (target.set 0 0) ∧
        takenItem (para.splitOn 44) nr = [] := by
  unfold ircGetTarget
  dsimp only
  by_cases hmem : 44 ∈ para
  · obtain ⟨text, rest, rfl, htext⟩ := List.eq_append_cons_of_mem hmem
    rw [List.splitOn_append_cons_self_of_not_mem htext]
    have hsecond : (text :: rest.splitOn 44).getD 1 [] = rest.takeWhile (· ≠ 44) := by
      rw [← headD_splitOn, List.getD_cons_succ]
      cases rest.splitOn 44 <;> rfl
    refine Or.inl ?_
    cases nr with
    | zero =>
      rw [skipItems, if_pos (Or.inr rfl)]
      by_cases hnil : text = []
      · have htaken : takenItem (text :: rest.splitOn 44) 0 = rest.takeWhile (· ≠ 44) :=
          (if_neg (fun h => h.2 hnil)).trans hsecond
        rw [htaken, hnil]
        rfl
      · have htaken : takenItem (text :: rest.splitOn 44) 0 = text := if_pos ⟨rfl, hnil⟩
        have hhead : (text ++ 44 :: rest).head? ≠ some 44 := by
          rw [List.head?_append_of_ne_nil _ hnil]
          exact fun h => htext (List.mem_of_mem_head? h)
        rw [htaken, if_neg hhead, takeWhile_ne_cut htext]
    | succ nr =>
      have htaken : takenItem (text :: rest.splitOn 44) (nr + 1) = rest.takeWhile (· ≠ 44) :=
        (if_neg (fun h => Nat.succ_ne_zero _ h.1)).trans hsecond
      rw [htaken, skipItems_succ, dropWhile_ne_cut htext]
      rfl
  · rw [List.splitOn_eq_singleton hmem]
    have hhead : para.head? ≠ some 44 := fun h => hmem (List.mem_of_mem_head? h)
    cases nr with
    | zero =>
      have htaken : takenItem [para] 0 = para := by
        by_cases hnil : para = []
        · exact (if_neg (fun h => h.2 hnil)).trans hnil.symm
        · exact if_pos ⟨rfl, hnil⟩
      rw [htaken, skipItems, if_pos (Or.inr rfl), if_neg hhead, takeWhile_ne_self hmem]
      exact Or.inl rfl
    | succ nr =>
      have htaken : takenItem [para] (nr + 1) = [] := if_neg (fun h => Nat.succ_ne_zero _ h.1)
      rw [htaken, skipItems_succ, dropWhile_ne_self hmem]
      by_cases hnil : para = []
      · rw [hnil]
        exact Or.inl rfl
      · have hmoved : ¬ (([] : List UInt8).head? = some 44 ∨
            ([] : List UInt8).length = para.length) := by
          rintro (h | h)
          · exact Option.some_ne_none _ h.symm
          · exact hnil (List.eq_nil_of_length_eq_zero h.symm)
        rw [if_neg hmoved]
        exact Or.inr ⟨rfl, rfl⟩

theorem stringOf_append_of_notMem (h : 0 ∉ text) (rest : List UInt8) :
    stringOf 0 (text ++ rest) = text ++ stringOf 0 rest := by
  unfold stringOf
  refine List.takeWhile_append_of_pos (fun c hc => decide_eq_true (fun hzero => h ?_))
  rw [← hzero]
  exact hc

/-- What the buffer holds after an item has been put into it. -/
theorem stored_iff (h0 : 0 ∉ text) {s : List UInt8} :
    (∃ b, ((target.set 0 0).copy text).bind (·.store (text.length + 1) 0) = some b ∧
        b.Terminated 0 ∧ b.string 0 = s) ↔
      text.length + 1 < maxNameLen ∧ text ++ staleByte target text = s := by
  by_cases hlt : text.length + 1 < maxNameLen
  · have hsize := target.size
    obtain ⟨x, y, rest, hdrop⟩ : ∃ x y rest, target.cells.drop text.length = x :: y :: rest := by
      have hlength : 2 ≤ (target.cells.drop text.length).length := by
        rw [List.length_drop, hsize]
        omega
      generalize target.cells.drop text.length = cells at hlength
      rcases cells with _ | ⟨x, _ | ⟨y, rest⟩⟩
      · exact absurd hlength (by simp)
      · exact absurd hlength (by simp)
      · exact ⟨x, y, rest, rfl⟩
    -- the byte behind the item
    have hbyte : ∃ z, (target.set 0 0).cells.drop text.length = z :: y :: rest ∧
        staleByte target text = [z].filter (· ≠ 0) := by
      unfold staleByte
      show ∃ z, (target.cells.set 0 0).drop text.length = z :: y :: rest ∧ _
      by_cases hnil : text = []
      · rw [hnil, List.length_nil, List.drop_zero] at hdrop
        rw [if_pos hnil, hnil, List.length_nil, List.drop_zero, hdrop]
        exact ⟨0, rfl, rfl⟩
      · rw [if_neg hnil, List.drop_set_of_lt (List.length_pos_iff.mpr hnil), hdrop]
        exact ⟨x, rfl, rfl⟩
    obtain ⟨z, hz, hstale⟩ := hbyte
    have hcells (a : Block UInt8 maxNameLen)
        (ha : a.cells = text ++ (target.set 0 0).cells.drop text.length) :
        (a.set (text.length + 1) 0).cells = text ++ z :: 0 :: rest := by
      show a.cells.set _ _ = _
      rw [ha, hz, List.set_append_right _ _ (Nat.le_add_right _ _), Nat.add_sub_cancel_left]
      rfl
    have hstring : stringOf 0 (text ++ z :: 0 :: rest) = text ++ staleByte target text := by
      rw [stringOf_append_of_notMem h0, hstale]
      by_cases hzero : z = 0
      · rw [hzero]
        rfl
      · rw [show z :: 0 :: rest = [z] ++ 0 :: rest from rfl, stringOf_append]
        · rw [List.filter_singleton, decide_eq_true hzero]
          rfl
        · exact fun h => hzero (List.mem_singleton.mp h).symm
    rw [and_iff_right hlt, ← hstring]
    constructor
    · rintro ⟨b, hb, -, hs⟩
      obtain ⟨a, ha, hstore⟩ := Option.bind_eq_some_iff.mp hb
      rw [Block.store, if_pos hlt] at hstore
      rw [← hs, ← Option.some.inj hstore, Block.string, hcells a (Block.copy_cells_iff.mp ha).2]
    · intro hs
      let a : Block UInt8 maxNameLen :=
        ⟨text ++ (target.set 0 0).cells.drop text.length, by
          rw [List.length_append, List.length_drop, Block.size]
          omega⟩
      have ha : (target.set 0 0).copy text = some a :=
        Block.copy_cells_iff.mpr ⟨by omega, rfl⟩
      refine ⟨a.set (text.length + 1) 0, ?_, ?_, ?_⟩
      · rw [ha, Option.bind_some, Block.store, if_pos hlt]
      · rw [Block.Terminated, hcells a rfl]
        simp
      · rw [Block.string, hcells a rfl, hs]
  · refine iff_of_false (fun h => ?_) (fun h => hlt h.1)
    obtain ⟨b, hb, -⟩ := h
    obtain ⟨a, -, hstore⟩ := Option.bind_eq_some_iff.mp hb
    rw [Block.store, if_neg hlt] at hstore
    exact Option.some_ne_none _ hstore.symm

theorem zero_notMem_takenItem (h0 : 0 ∉ para) (nr : Nat) :
    0 ∉ takenItem (para.splitOn 44) nr := by
  have hclean (i : Nat) : 0 ∉ (para.splitOn 44).getD i [] := by
    rw [List.getD_eq_getElem?_getD]
    cases hitem : (para.splitOn 44)[i]? with
    | none => exact List.not_mem_nil
    | some item => exact fun h => h0 (mem_of_mem_splitOn (List.mem_of_getElem? hitem) h)
  unfold takenItem
  split
  · have hfirst := hclean 0
    rwa [List.getD_eq_getElem?_getD, ← List.head?_eq_getElem?, ← List.headD_eq_head?_getD] at hfirst
  · exact hclean 1

/-- What is returned: the item that is taken, with the byte that has been behind it. -/
theorem getTarget_iff (h0 : 0 ∉ para) {s : List UInt8} :
    (∃ b, ircGetTarget target para nr = some b ∧ b.Terminated 0 ∧ b.string 0 = s) ↔
      (takenItem (para.splitOn 44) nr).length + 1 < maxNameLen ∧
        takenItem (para.splitOn 44) nr ++
          staleByte target (takenItem (para.splitOn 44) nr) = s := by
  rcases ircGetTarget_eq target para nr with heq | ⟨heq, hnil⟩
  · rw [heq]
    exact stored_iff (zero_notMem_takenItem h0 nr)
  · rw [heq, hnil, List.nil_append]
    have hcells : ∃ rest, (target.set 0 0).cells = 0 :: rest := by
      have hsize := target.size
      show ∃ rest, target.cells.set 0 0 = 0 :: rest
      cases hcells : target.cells with
      | nil =>
        rw [hcells] at hsize
        exact absurd hsize (by decide)
      | cons c cells => exact ⟨cells, rfl⟩
    obtain ⟨rest, hrest⟩ := hcells
    have hstring : (target.set 0 0).string 0 = [] := by
      rw [Block.string, hrest]
      rfl
    constructor
    · rintro ⟨b, hb, -, hs⟩
      rw [← Option.some.inj hb, hstring] at hs
      exact ⟨by decide, hs⟩
    · rintro ⟨-, hs⟩
      refine ⟨_, rfl, ?_, hstring.trans hs⟩
      rw [Block.Terminated, hrest]
      exact List.mem_cons_self

/-! ## Lists of items -/

/-- An item of a list. -/
structure ListItem where
  text : List UInt8
  ends : 0 ∉ text
  whole : 44 ∉ text
  short : text.length < maxNameLen

/-- The items with commas between them. -/
def listOf (items : List ListItem) : List UInt8 := [44].intercalate (items.map ListItem.text)

/-- The item at a place, or the empty string. -/
def itemAt (items : List ListItem) (nr : Nat) : List UInt8 := (items.map ListItem.text).getD nr []

/-- The item is returned with its terminator. -/
def Returned (target : Block UInt8 maxNameLen) (items : List ListItem) (nr : Nat) : Prop :=
  ∃ b, ircGetTarget target (listOf items) nr = some b ∧ b.Terminated 0 ∧
    b.string 0 = itemAt items nr

/-- The item that is taken has room with a byte behind it, and is with that byte the right one. -/
def TakesRight (target : Block UInt8 maxNameLen) (items : List ListItem) (nr : Nat) : Prop :=
  let taken := takenItem (items.map ListItem.text) nr
  taken.length + 1 < maxNameLen ∧ taken ++ staleByte target taken = itemAt items nr

theorem zero_notMem_listOf (items : List ListItem) : 0 ∉ listOf items := by
  unfold listOf
  induction items with
  | nil => exact List.not_mem_nil
  | cons item items ih =>
    cases items with
    | nil =>
      rw [List.map_singleton, List.intercalate_singleton]
      exact item.ends
    | cons next items =>
      rw [List.map_cons, List.map_cons, List.intercalate_cons_cons, ← List.map_cons]
      intro h
      rcases List.mem_append.mp h with h | h
      · rcases List.mem_append.mp h with h | h
        · exact item.ends h
        · exact absurd (List.mem_singleton.mp h) (by decide)
      · exact ih h

/-- The right item is returned exactly if the one that is taken is right. -/
theorem item_iff (target : Block UInt8 maxNameLen) (items : List ListItem) (nr : Nat) :
    Returned target items nr ↔ TakesRight target items nr := by
  have htaken : takenItem ((listOf items).splitOn 44) nr =
      takenItem (items.map ListItem.text) nr := by
    cases items with
    | nil =>
      have hnone : listOf [] = [] := rfl
      rw [hnone, List.splitOn_nil, List.map_nil, takenItem, takenItem, if_neg (fun h => h.2 rfl),
        if_neg (fun h => h.2 rfl)]
      rfl
    | cons item items =>
      rw [listOf, List.splitOn_intercalate]
      · exact List.forall_mem_map.mpr (fun item _ => item.whole)
      · rw [List.map_cons]
        exact List.cons_ne_nil _ _
  refine (getTarget_iff (zero_notMem_listOf items)).trans ?_
  rw [htaken, TakesRight]

/-- The third of three items: the second one is returned. -/
theorem thirdItem_not_returned :
    ¬ ∀ (target : Block UInt8 maxNameLen) (items : List ListItem) (nr : Nat),
      Returned target items nr := by
  intro hall
  let item (c : UInt8) (h0 : 0 ≠ c) (h44 : 44 ≠ c) : ListItem :=
    ⟨[c], fun h => h0 (List.mem_singleton.mp h), fun h => h44 (List.mem_singleton.mp h),
      (by decide : 1 < maxNameLen)⟩
  let items := [item 97 (by decide) (by decide), item 98 (by decide) (by decide),
    item 99 (by decide) (by decide)]
  obtain ⟨b, hb, -, hs⟩ := hall (Block.replicate _ 0) items 2
  have hstring : (ircGetTarget (Block.replicate _ 0) (listOf items) 2).map (·.string 0) =
      some [98] := by
    decide +kernel
  rw [hb, Option.map_some, hs] at hstring
  exact absurd (Option.some.inj hstring) (by decide)

end Serveez.Irc.ListItems
