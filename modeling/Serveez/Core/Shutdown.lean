import Serveez.Core.Coherence

/-!
# Shutting down sockets

`svz_sock_shutdown` ignores the result of `dequeue` and frees the socket in any case. What
becomes of the list depends on the descriptors that the `disconnected_socket` callback leaves.

* `drain_spec`: the drain loop of `svz_loop_post` ends with an empty list if all callbacks
  leave valid descriptors, and reads a freed socket otherwise.
* `svzSockShutdown_unlinks_iff`: when a shutdown and when the drain loop unlink.
-/

namespace Serveez.Core

open Lib

/-- Some pointer of the list or of the lookup table leads to `p`. -/
def Linked (c : State) (p : Addr) : Prop :=
  c.svzSockRoot = some p ∨ c.lastSocket = some p ∨
    (∃ q s, c.heap q = some s ∧ s.enqueued = true ∧ (s.next = some p ∨ s.prev = some p)) ∨
    ∃ i : Nat, c.socktab[i]? = some (some p)

theorem Coherent.not_linked {c : State} {l : List Addr} (h : Coherent c l) {p : Addr}
    (hp : p ∉ l) : ¬ Linked c p := by
  rintro (hroot | hlast | ⟨q, s, hs, hen, hlink⟩ | ⟨i, hi⟩)
  · exact hp (List.mem_of_head? (h.root ▸ hroot))
  · exact hp (List.mem_of_getLast? (h.last ▸ hlast))
  · obtain ⟨l₁, l₂, rfl⟩ := List.append_of_mem ((h.enqueued q).mpr ⟨s, hs, hen⟩)
    obtain ⟨hnext, hprev, -⟩ := h.neighbours hs
    rcases hlink with hlink | hlink
    · have hmem := List.mem_of_head? (hnext ▸ hlink)
      exact hp (List.mem_append_right _ (List.mem_cons_of_mem _ hmem))
    · have hmem := List.mem_of_getLast? (hprev ▸ hlink)
      exact hp (List.mem_append_left _ hmem)
  · exact hp ((h.table i p).mp hi).1

/-! ## The drain loop -/

/-- Every listed socket has valid descriptors when its callback is through. -/
def LeavesValid (c : State) (l : List Addr) (callback : Addr → Callback) : Prop :=
  ∀ p ∈ l, ∀ s, c.heap p = some s → descriptorsValid ((callback p).getD s.attrs) = true

theorem Spares.leavesValid_iff {p : Addr} {c c' : State} (hsp : Spares p c c') {l : List Addr}
    (hp : p ∉ l) (callback : Addr → Callback) :
    LeavesValid c' l callback ↔ LeavesValid c l callback := by
  have hone : ∀ z ∈ l, (∀ s, c'.heap z = some s →
      descriptorsValid ((callback z).getD s.attrs) = true) ↔
        ∀ s, c.heap z = some s → descriptorsValid ((callback z).getD s.attrs) = true := by
    intro z hz
    have hstamp := hsp.others z (fun heq => hp (heq ▸ hz))
    cases hc : c.heap z with
    | none =>
      rw [hc] at hstamp
      simp [Option.map_eq_none_iff.mp hstamp]
    | some s =>
      rw [hc] at hstamp
      obtain ⟨s', hs', heq⟩ := Option.map_eq_some_iff.mp hstamp
      simp only [Sock.stamp, Prod.mk.injEq] at heq
      cases callback z with
      | none => simp [hs', heq.2.2.2]
      | some a => simp [hs']
  exact forall₂_congr hone

/-- A shutdown of a freed socket reads the freed block. -/
theorem svzSockShutdown_useAfterFree {c : State} {p : Addr} (hp : c.heap p = none)
    (callback : Callback) : svzSockShutdown c p callback = .error .useAfterFree := by
  have hload : c.load p = .error .useAfterFree := by
    unfold State.load
    rw [hp]
  cases callback with
  | none =>
    unfold svzSockShutdown disconnectedSocket dequeue
    rw [ok_bind, hload]
    rfl
  | some a =>
    unfold svzSockShutdown disconnectedSocket State.storeAttrs State.store
    rw [hload]
    rfl

theorem drain_of_root {callback : Addr → Callback} {c : State} {p : Addr}
    (hroot : c.svzSockRoot = some p) (fuel : Nat) :
    drain callback (fuel + 1) c = svzSockShutdown c p (callback p) >>= drain callback fuel := by
  rw [drain]
  simp only [hroot]

theorem drain_spec (callback : Addr → Callback) :
    ∀ (l : List Addr) (c : State) (fuel : Nat), Coherent c l → l.length < fuel →
      (LeavesValid c l callback →
        ∃ c', drain callback fuel c = .ok c' ∧ Coherent c' []) ∧
      (¬ LeavesValid c l callback → drain callback fuel c = .error .useAfterFree) := by
  intro l
  induction l with
  | nil =>
    intro c fuel h hfuel
    obtain ⟨fuel, rfl⟩ : ∃ n, fuel = n + 1 := ⟨fuel - 1, by omega⟩
    constructor
    · intro _
      have hroot : c.svzSockRoot = none := h.root
      refine ⟨{ c with lastSocket := none }, ?_, { h with last := rfl }⟩
      rw [drain]
      simp only [hroot]
    · intro hno
      exact absurd (by simp [LeavesValid]) hno
  | cons p l ih =>
    intro c fuel h hfuel
    obtain ⟨fuel, rfl⟩ : ∃ n, fuel = n + 1 := ⟨fuel - 1, by omega⟩
    obtain ⟨s, hs, -⟩ := h.live (List.mem_cons_self)
    have hroot : c.svzSockRoot = some p := h.root
    have hpl : p ∉ l := (List.nodup_cons.mp h.nodup).1
    have hsplit : LeavesValid c (p :: l) callback ↔
        descriptorsValid ((callback p).getD s.attrs) = true ∧ LeavesValid c l callback := by
      unfold LeavesValid
      rw [List.forall_mem_cons]
      simp [hs]
    rw [drain_of_root hroot, hsplit]
    by_cases hv : descriptorsValid ((callback p).getD s.attrs) = true
    · have hfirst : Coherent c ([] ++ p :: l) := h
      obtain ⟨c', hshut, h', hsp, -⟩ := svzSockShutdown_unlinks hfirst hs hv
      obtain ⟨hok, herr⟩ := ih c' fuel h' (by simpa using hfuel)
      rw [hsp.leavesValid_iff hpl] at hok herr
      rw [hshut, ok_bind]
      exact ⟨fun hall => hok hall.2, fun hno => herr (fun hall => hno ⟨hv, hall⟩)⟩
    · obtain ⟨c', hshut, hdead, hroot', -⟩ := svzSockShutdown_dangles h hs List.mem_cons_self hv
      refine ⟨fun hall => absurd hall.1 hv, fun _ => ?_⟩
      -- the next round finds the freed socket at the root
      obtain ⟨fuel, rfl⟩ : ∃ n, fuel = n + 1 := ⟨fuel - 1, by simp at hfuel; omega⟩
      rw [hshut, ok_bind, drain_of_root (hroot'.trans hroot), svzSockShutdown_useAfterFree hdead]
      rfl

/-! ## What a shutdown guarantees -/

/-- **Shutting down.** A shutdown of a listed socket unlinks it exactly if the socket has
valid descriptors after its `disconnected_socket` callback, and the drain loop at the end of
the server loop empties the list exactly if this is so for every listed socket. -/
theorem svzSockShutdown_unlinks_iff {c : State} {l : List Addr} (h : Coherent c l) :
    (∀ p s callback, p ∈ l → c.heap p = some s →
      ((∃ c', svzSockShutdown c p callback = .ok c' ∧ c'.heap p = none ∧ ¬ Linked c' p) ↔
        descriptorsValid (callback.getD s.attrs) = true)) ∧
    ∀ callback : Addr → Callback,
      (∃ c', svzLoopPost c callback = .ok c' ∧ c'.svzSockRoot = none ∧ c'.lastSocket = none ∧
        ∀ q, ¬ Linked c' q) ↔
      ∀ p ∈ l, ∀ s, c.heap p = some s → descriptorsValid ((callback p).getD s.attrs) = true := by
  constructor
  · intro p s callback hp hs
    constructor
    · rintro ⟨c', hshut, -, hlinked⟩
      by_contra hv
      obtain ⟨c'', hshut', -, -, -, hentry⟩ := svzSockShutdown_dangles h hs hp hv
      rw [hshut] at hshut'
      cases hshut'
      exact hlinked (Or.inr (Or.inr (Or.inr ⟨s.id, hentry⟩)))
    · intro hv
      obtain ⟨l₁, l₂, rfl⟩ := List.append_of_mem hp
      obtain ⟨c', hshut, h', -, hdead⟩ := svzSockShutdown_unlinks h hs hv
      exact ⟨c', hshut, hdead, h'.not_linked (List.nodup_middle.mp h.nodup).notMem⟩
  · intro callback
    obtain ⟨hok, herr⟩ := drain_spec callback l c (c.sockLimit + 1) h
      (Nat.lt_succ_of_le h.length_le)
    constructor
    · rintro ⟨c', hdrain, -⟩
      by_contra hno
      rw [svzLoopPost, herr hno] at hdrain
      cases hdrain
    · intro hall
      obtain ⟨c', hdrain, h'⟩ := hok hall
      exact ⟨c', hdrain, h'.root, h'.last, fun q => h'.not_linked List.not_mem_nil⟩

set_option maxRecDepth 100000 in
theorem exists_one_connection :
    ∃ c s, run (.ok boot) [.allocate 1, .modify 1 connectedAttrs, .enqueue 1] = .ok c ∧
      Coherent c [1] ∧ c.heap 1 = some s ∧ s.attrs = connectedAttrs := by
  obtain ⟨c, s, hrun, hroot, hlast, hs, hattrs⟩ :
      ∃ c s, run (.ok boot) [.allocate 1, .modify 1 connectedAttrs, .enqueue 1] = .ok c ∧
        c.svzSockRoot = some 1 ∧ c.lastSocket = some 1 ∧ c.heap 1 = some s ∧
        s.attrs = connectedAttrs := ⟨_, _, rfl, rfl, rfl, rfl, rfl⟩
  have hstate := @coherentState_run [.allocate 1, .modify 1 connectedAttrs, .enqueue 1]
    (forall_steps (by
      rintro (_ | _ | _ | n) op hop
      all_goals cases hop
      all_goals exact rfl))
    (forall_steps (by
      rintro (_ | _ | _ | n) op hop
      all_goals cases hop
      all_goals exact trivial)) _ (List.prefix_refl _)
  rw [hrun] at hstate
  obtain ⟨⟨l, h⟩, -⟩ := hstate
  refine ⟨c, s, hrun, ?_, hs, hattrs⟩
  rw [h.root] at hroot
  rw [h.last] at hlast
  obtain ⟨rest, rfl⟩ : ∃ rest, l = 1 :: rest := List.head?_eq_some_iff.mp hroot
  cases rest with
  | nil => exact h
  | cons q rest =>
    rw [List.getLast?_cons_cons] at hlast
    exact absurd (List.mem_of_getLast? hlast) (List.nodup_cons.mp h.nodup).1

/-- Both parts for one connection whose callback leaves the descriptor open. -/
theorem svzSockShutdown_unlinks_one :
    ∃ c, run (.ok boot) [.allocate 1, .modify 1 connectedAttrs, .enqueue 1] = .ok c ∧
      (∃ c', svzSockShutdown c 1 none = .ok c' ∧ c'.heap 1 = none ∧ ¬ Linked c' 1) ∧
      ∃ c', svzLoopPost c (fun _ => none) = .ok c' ∧ c'.svzSockRoot = none := by
  obtain ⟨c, s, hrun, h, hs, hattrs⟩ := exists_one_connection
  have hvalid : descriptorsValid s.attrs = true := by
    rw [hattrs]
    decide
  obtain ⟨hone, hall⟩ := svzSockShutdown_unlinks_iff h
  refine ⟨c, hrun, (hone 1 s none List.mem_cons_self hs).mpr hvalid, ?_⟩
  obtain ⟨c', hdrain, hroot, -⟩ := (hall (fun _ => none)).mpr (by
    intro p hp t ht
    rw [List.mem_singleton.mp hp, hs] at ht
    cases ht
    exact hvalid)
  exact ⟨c', hdrain, hroot⟩

set_option maxRecDepth 100000 in
/-- A callback that closes the descriptor of its socket itself: the freed socket stays at the
root and in the table, and the drain loop reads it. -/
theorem svzSockShutdown_keeps_freed :
    ∃ c c', run (.ok boot) [.allocate 1, .modify 1 connectedAttrs, .enqueue 1] = .ok c ∧
      svzSockShutdown c 1 (some { connectedAttrs with sockDesc := invalid }) = .ok c' ∧
      c'.heap 1 = none ∧ c'.svzSockRoot = some 1 ∧ c'.socktab[1]? = some (some 1) ∧ Linked c' 1 ∧
      svzLoopPost c (fun _ => some { connectedAttrs with sockDesc := invalid }) =
        .error .useAfterFree :=
  ⟨_, _, rfl, rfl, rfl, rfl, rfl, Or.inl rfl, rfl⟩

end Serveez.Core
