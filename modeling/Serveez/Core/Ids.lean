import Serveez.Core.Frame

/-!
# Ids

`svz_sock_unique_id` goes round the lookup table from its cursor on, to the first free entry,
and doubles a table that has none.

* `nextId_cases`: what the search finds.
* `coherent_nextId`, `nextId_keeps_entries`: it keeps the list and the table.
* `allocate_eq`, `coherent_enrolled`: an allocation is a search and a new socket.
-/

namespace Serveez.Core

open Lib

/-! ## The search for an id -/

theorem freeId_cases {socktab : List (Option Addr)} {k : Nat} :
    ∀ (n sockId : Nat),
      (∃ d, 0 < d ∧ d ≤ n ∧
        freeId socktab (2 ^ k) n sockId = (true, (sockId + d) % 2 ^ k) ∧
        socktab[(sockId + d) % 2 ^ k]? = some none ∧
        ∀ e, 0 < e → e < d → socktab[(sockId + e) % 2 ^ k]? ≠ some none) ∨
      ((freeId socktab (2 ^ k) n sockId).1 = false ∧
        ∀ e, 0 < e → e ≤ n → socktab[(sockId + e) % 2 ^ k]? ≠ some none) := by
  intro n
  induction n with
  | zero =>
    intro sockId
    exact Or.inr ⟨rfl, fun e h1 h2 => by omega⟩
  | succ n ih =>
    intro sockId
    have hshift : ∀ e, ((sockId + 1) % 2 ^ k + e) % 2 ^ k = (sockId + (e + 1)) % 2 ^ k := by
      intro e
      rw [Nat.mod_add_mod, Nat.add_assoc, Nat.add_comm 1 e]
    rw [freeId, Nat.and_two_pow_sub_one_eq_mod]
    by_cases hfree : socktab[(sockId + 1) % 2 ^ k]? = some none
    · rw [if_pos hfree]
      exact Or.inl ⟨1, Nat.one_pos, by omega, rfl, hfree, fun e h1 h2 => by omega⟩
    · rw [if_neg hfree]
      -- the entry just looked at is not free, the others are those of the remaining rounds
      have hfirst : ∀ e, 0 < e → ¬ e = 1 → ∃ e', 0 < e' ∧ e = e' + 1 :=
        fun e h1 h2 => ⟨e - 1, by omega, by omega⟩
      rcases ih ((sockId + 1) % 2 ^ k) with ⟨d, hd, hdn, heq, hd', hbefore⟩ | ⟨hnone, hall⟩
      · rw [hshift] at heq hd'
        refine Or.inl ⟨d + 1, by omega, by omega, heq, hd', ?_⟩
        intro e h1 h2
        by_cases he : e = 1
        · rw [he]
          exact hfree
        · obtain ⟨e', he', rfl⟩ := hfirst e h1 he
          rw [← hshift]
          exact hbefore e' he' (by omega)
      · refine Or.inr ⟨hnone, ?_⟩
        intro e h1 h2
        by_cases he : e = 1
        · rw [he]
          exact hfree
        · obtain ⟨e', he', rfl⟩ := hfirst e h1 he
          rw [← hshift]
          exact hall e' he' (by omega)

/-- The search passes every entry of the table. -/
theorem exists_distance {m i limit : Nat} (hm : m < limit) (hi : i < limit) :
    ∃ e, 0 < e ∧ e ≤ limit ∧ (i + e) % limit = m := by
  by_cases h : i < m
  · refine ⟨m - i, by omega, by omega, ?_⟩
    rw [Nat.add_sub_cancel' (Nat.le_of_lt h)]
    exact Nat.mod_eq_of_lt hm
  · refine ⟨m + limit - i, by omega, by omega, ?_⟩
    have : i + (m + limit - i) = m + limit := by omega
    rw [this, Nat.add_mod_right]
    exact Nat.mod_eq_of_lt hm

/-- The core with a table of twice the size. -/
def enlarged (c : State) : State :=
  { c with
    socktab := c.socktab ++ List.replicate c.sockLimit none
    sockId := c.sockLimit
    sockLimit := c.sockLimit * 2 }

/-- What `nextId` does: it moves the cursor to the first free entry, or enlarges a full
table, or ends the process. -/
theorem nextId_cases {c : State} {l : List Addr} (h : Coherent c l) :
    (∃ d, 0 < d ∧ d ≤ c.sockLimit ∧
      nextId c = .ok { c with sockId := (c.sockId + d) % c.sockLimit } ∧
      c.socktab[(c.sockId + d) % c.sockLimit]? = some none ∧
      ∀ e, 0 < e → e < d → c.socktab[(c.sockId + e) % c.sockLimit]? ≠ some none) ∨
    ((∀ i < c.sockLimit, c.socktab[i]? ≠ some none) ∧
      (nextId c = .error .exit ∨ nextId c = .ok (enlarged c) ∧ c.sockLimit * 2 < 2 ^ 31)) := by
  obtain ⟨k, -, hlimit⟩ := h.limit
  rcases @freeId_cases c.socktab k c.sockLimit c.sockId with
    ⟨d, hd, hdn, heq, hfree, hbefore⟩ | ⟨hnone, hall⟩
  · rw [← hlimit] at heq hfree hbefore
    refine Or.inl ⟨d, hd, hdn, ?_, hfree, hbefore⟩
    unfold nextId
    rw [heq]
  · rw [← hlimit] at hnone hall
    refine Or.inr ⟨?_, ?_⟩
    · intro i hi
      obtain ⟨e, h1, h2, rfl⟩ := exists_distance hi h.cursor
      exact hall e h1 h2
    · unfold nextId
      generalize freeId c.socktab c.sockLimit c.sockLimit c.sockId = found at hnone
      obtain ⟨found, j⟩ := found
      obtain rfl : found = false := hnone
      by_cases hfits : c.sockLimit * 2 < 2 ^ 31
      · exact Or.inr ⟨if_pos hfits, hfits⟩
      · exact Or.inl (if_neg hfits)

theorem nextId_ok {c c' : State} (hid : nextId c = .ok c') :
    (∃ j, c' = { c with sockId := j }) ∨ c' = enlarged c := by
  unfold nextId at hid
  split at hid
  · next j _ =>
    cases hid
    exact Or.inl ⟨j, rfl⟩
  · split at hid
    · cases hid
      exact Or.inr rfl
    · cases hid

/-- The search for an id fails only when the process ends. -/
theorem nextId_error {c : State} {f : Fault} (hid : nextId c = .error f) : f = .exit := by
  unfold nextId at hid
  split at hid
  · cases hid
  · split at hid
    · cases hid
    · cases hid
      rfl

theorem nextId_heap {c c' : State} (hid : nextId c = .ok c') : c'.heap = c.heap := by
  rcases nextId_ok hid with ⟨j, rfl⟩ | rfl
  · rfl
  · rfl

theorem nextId_sockVersion {c c' : State} (hid : nextId c = .ok c') :
    c'.sockVersion = c.sockVersion := by
  rcases nextId_ok hid with ⟨j, rfl⟩ | rfl
  · rfl
  · rfl

theorem nextId_sockLimit_le {c c' : State} (hid : nextId c = .ok c') :
    c.sockLimit ≤ c'.sockLimit := by
  rcases nextId_ok hid with ⟨j, rfl⟩ | rfl
  · exact Nat.le_refl _
  · exact Nat.le_mul_of_pos_right _ Nat.two_pos

theorem nextId_keeps_entries {c c' : State} (hid : nextId c = .ok c') {i : Nat} {e : Option Addr}
    (he : c.socktab[i]? = some e) : c'.socktab[i]? = some e := by
  rcases nextId_ok hid with ⟨j, rfl⟩ | rfl
  · exact he
  · exact (List.getElem?_append_left (List.getElem?_eq_some_iff.mp he).1).trans he

theorem coherent_enlarged {c : State} {l : List Addr} (h : Coherent c l)
    (hfits : c.sockLimit * 2 < 2 ^ 31) : Coherent (enlarged c) l := by
  obtain ⟨k, hk, hlimit⟩ := h.limit
  have hpos : 0 < c.sockLimit := Nat.lt_of_le_of_lt (Nat.zero_le _) h.cursor
  refine ⟨h.nodup, h.root, h.last, h.links, h.enqueued, ?_, ?_, ?_, ?_, ?_⟩
  · intro i q
    refine Iff.trans ?_ (h.table i q)
    unfold enlarged
    by_cases hi : i < c.socktab.length
    · rw [List.getElem?_append_left hi]
    · rw [List.getElem?_append_right (by omega), List.getElem?_replicate,
        List.getElem?_eq_none (by omega)]
      split <;> simp
  · intro q s hs
    exact Nat.lt_of_lt_of_le (h.ids q s hs) (Nat.le_mul_of_pos_right _ Nat.two_pos)
  · unfold enlarged
    rw [List.length_append, List.length_replicate, h.length, Nat.mul_two]
  · refine ⟨k + 1, ?_, by rw [enlarged, hlimit, Nat.pow_succ]⟩
    by_contra hgt
    have hk30 : k = 30 := by omega
    rw [hlimit, hk30] at hfits
    exact absurd hfits (by decide)
  · unfold enlarged
    dsimp only
    omega

theorem coherent_nextId {c c' : State} {l : List Addr} (h : Coherent c l)
    (hid : nextId c = .ok c') : Coherent c' l := by
  rcases nextId_cases h with ⟨d, -, -, heq, -⟩ | ⟨-, heq | ⟨heq, hfits⟩⟩
  · rw [heq] at hid
    cases hid
    exact { h with cursor := Nat.mod_lt _ (Nat.lt_of_le_of_lt (Nat.zero_le _) h.cursor) }
  · rw [heq] at hid
    cases hid
  · rw [heq] at hid
    cases hid
    exact coherent_enlarged h hfits

/-! ## Allocation -/

/-- The core in which `p` has become a socket with the id at the cursor. -/
def enrolled (c : State) (p : Addr) : State :=
  { c with
    heap := Function.update c.heap p
      (some { newSock with id := c.sockId, version := c.sockVersion })
    sockVersion := c.sockVersion + 1 }

theorem nextId_withHeap (c : State) (heap : Addr → Option Sock) :
    nextId { c with heap := heap } = (nextId c).map (fun c' => { c' with heap := heap }) := by
  unfold nextId
  dsimp only
  split
  · rfl
  · split <;> rfl

theorem allocate_eq {c : State} (p : Addr) :
    allocate c p = (nextId c).map (fun c' => enrolled c' p) := by
  unfold allocate svzSockUniqueId
  rw [nextId_withHeap]
  cases hid : nextId c with
  | error f => rfl
  | ok c' =>
    rw [Except.map, ok_bind, store_eq (Function.update_self _ _ _), ok_bind, Function.update_idem,
      ← nextId_heap hid]
    rfl

theorem coherent_enrolled {c : State} {l : List Addr} (h : Coherent c l) {p : Addr}
    (hp : c.heap p = none) : Coherent (enrolled c p) l := by
  have hpl : p ∉ l := by
    intro hmem
    obtain ⟨s, hs, -⟩ := h.live hmem
    rw [hp] at hs
    cases hs
  have h' : Coherent { c with sockVersion := c.sockVersion + 1 } l := { h with }
  refine coherent_update h' hpl ?_
  intro s hs
  cases hs
  exact ⟨rfl, h.cursor⟩

theorem enrolled_heap_self (c : State) (p : Addr) : (enrolled c p).heap p =
    some { newSock with id := c.sockId, version := c.sockVersion } := Function.update_self _ _ _

theorem enrolled_heap_of_ne (c : State) {p z : Addr} (hz : z ≠ p) :
    (enrolled c p).heap z = c.heap z := Function.update_of_ne hz _ _

end Serveez.Core
