import Serveez.Core.SockList
import Serveez.Lib.DoublyLinked
import Mathlib.Data.List.Perm.Subperm

/-!
# Splicing the socket list

`Coherent c l` says that the socket list of the core is `l`, in the links, in the flags of
the sockets and in the lookup table. Each of the three functions that change the list is
given here as one update of the core, which keeps the coherence:

* `svzSockEnqueue_accepts`, `coherent_appended`: enqueueing appends a socket;
* `dequeue_accepts`, `coherent_unlinked`: dequeueing takes a socket out;
* `rechainListOfSocks_eq`, `coherent_rechained`: rechaining moves the last socket forward.

A refused enqueue or dequeue leaves the core as it is (`svzSockEnqueue_refuses`,
`dequeue_refuses`).
-/

namespace Serveez.Core

open Lib

theorem ok_bind {α β : Type} (x : α) (f : α → Except Fault β) :
    ((Except.ok x : Except Fault α) >>= f) = f x := rfl

theorem pure_eq_ok {α : Type} (x : α) : (pure x : Except Fault α) = .ok x := rfl

/-! ## Memory -/

variable {c : State} {p : Addr} {s : Sock} {l : List Addr} {l₁ l₂ : List Addr}

theorem load_eq (h : c.heap p = some s) :
    c.load p = .ok s := by
  unfold State.load
  rw [h]

theorem store_eq (h : c.heap p = some s) (f : Sock → Sock) :
    c.store p f = .ok { c with heap := Function.update c.heap p (some (f s)) } := by
  unfold State.store
  rw [load_eq h]
  rfl

theorem entry_eq {i : Nat} {e : Option Addr} (h : c.socktab[i]? = some e) :
    c.entry i = .ok e := by
  unfold State.entry
  rw [h]

def State.nextOf (c : State) (p : Addr) : Option Addr := (c.heap p).bind Sock.next

def State.prevOf (c : State) (p : Addr) : Option Addr := (c.heap p).bind Sock.prev

/-! ## Coherence -/

/-- The list is `l`: it is linked from the root to the last socket, and the flag
`SVZ_SOFLG_ENQUEUED` and the lookup table say the same. -/
structure Coherent (c : State) (l : List Addr) : Prop where
  nodup : l.Nodup
  root : c.svzSockRoot = l.head?
  last : c.lastSocket = l.getLast?
  links : Seg c.nextOf c.prevOf none l none
  enqueued : ∀ p, p ∈ l ↔ ∃ s, c.heap p = some s ∧ s.enqueued = true
  table : ∀ i p, c.socktab[i]? = some (some p) ↔ p ∈ l ∧ ∃ s, c.heap p = some s ∧ s.id = i
  ids : ∀ p s, c.heap p = some s → s.id < c.sockLimit
  length : c.socktab.length = c.sockLimit
  limit : ∃ k, k ≤ 30 ∧ c.sockLimit = 2 ^ k
  cursor : c.sockId < c.sockLimit

theorem Coherent.live (h : Coherent c l) (hp : p ∈ l) :
    ∃ s, c.heap p = some s ∧ s.enqueued = true := (h.enqueued p).mp hp

theorem Coherent.enqueued_of_mem (h : Coherent c l) (hs : c.heap p = some s) (hp : p ∈ l) :
    s.enqueued = true := by
  obtain ⟨t, ht, hen⟩ := h.live hp
  rw [hs] at ht
  cases ht
  exact hen

theorem not_mem_of_enqueued_eq_false (h : Coherent c l) (hp : c.heap p = some s)
    (hn : s.enqueued = false) : p ∉ l := by
  intro hmem
  rw [h.enqueued_of_mem hp hmem] at hn
  cases hn

theorem Coherent.entry (h : Coherent c l) (hp : c.heap p = some s) :
    ∃ e, c.socktab[s.id]? = some e := by
  have hlt := h.ids p s hp
  rw [← h.length] at hlt
  exact ⟨_, List.getElem?_eq_getElem hlt⟩

theorem nextOf_eq (h : c.heap p = some s) :
    c.nextOf p = s.next := by
  unfold State.nextOf
  rw [h]
  rfl

theorem prevOf_eq (h : c.heap p = some s) :
    c.prevOf p = s.prev := by
  unfold State.prevOf
  rw [h]
  rfl

/-- What the list and the table say about a socket. -/
def Sock.badge (s : Sock) : Nat × Bool := (s.id, s.enqueued)

theorem exists_badge_iff {c c' : State} {z : Addr}
    (hb : (c'.heap z).map Sock.badge = (c.heap z).map Sock.badge) (P : Nat → Bool → Prop) :
    (∃ s, c'.heap z = some s ∧ P s.id s.enqueued) ↔ ∃ s, c.heap z = some s ∧ P s.id s.enqueued := by
  have hone : ∀ d : State, (∃ s, d.heap z = some s ∧ P s.id s.enqueued) ↔
      ∃ b ∈ (d.heap z).map Sock.badge, P b.1 b.2 := by
    intro d
    cases d.heap z <;> simp [Sock.badge]
  rw [hone, hone, hb]

/-- Changes of links and attributes keep the coherence when the new links are those of a
list with the same sockets. -/
theorem Coherent.relink {c c' : State} {l l' : List Addr} (h : Coherent c l)
    (hb : ∀ z, (c'.heap z).map Sock.badge = (c.heap z).map Sock.badge) (hperm : l'.Perm l)
    (hroot : c'.svzSockRoot = l'.head?) (hlast : c'.lastSocket = l'.getLast?)
    (hlinks : Seg c'.nextOf c'.prevOf none l' none) (htab : c'.socktab = c.socktab)
    (hid : c'.sockId = c.sockId) (hlimit : c'.sockLimit = c.sockLimit) : Coherent c' l' := by
  refine ⟨hperm.nodup_iff.mpr h.nodup, hroot, hlast, hlinks, ?_, ?_, ?_, ?_, ?_, ?_⟩
  · intro p
    rw [hperm.mem_iff, h.enqueued]
    exact (exists_badge_iff (hb p) (fun _ e => e = true)).symm
  · intro i p
    rw [htab, hperm.mem_iff, h.table]
    exact and_congr_right (fun _ => (exists_badge_iff (hb p) (fun j _ => j = i)).symm)
  · intro p s hs
    obtain ⟨t, ht, hj⟩ := (exists_badge_iff (hb p) (fun j _ => j = s.id)).mp ⟨s, hs, rfl⟩
    rw [hlimit, ← hj]
    exact h.ids p t ht
  · rw [htab, hlimit, h.length]
  · rw [hlimit]
    exact h.limit
  · rw [hid, hlimit]
    exact h.cursor

/-- A socket that enters or leaves the list takes its entry with it; the others keep theirs. -/
theorem Coherent.toggle {c c' : State} {l l' : List Addr} (h : Coherent c l) {s s' : Sock}
    (hp : c.heap p = some s) (hself : c'.heap p = some s') (hid : s'.id = s.id)
    (hb : ∀ z, z ≠ p → (c'.heap z).map Sock.badge = (c.heap z).map Sock.badge)
    (hmem : ∀ z, z ≠ p → (z ∈ l' ↔ z ∈ l)) (hen : p ∈ l' ↔ s'.enqueued = true)
    (hentry : ∀ q, c.socktab[s.id]? = some (some q) → q = p)
    (htab : c'.socktab = c.socktab.set s.id (if s'.enqueued then some p else none))
    (hnodup : l'.Nodup) (hroot : c'.svzSockRoot = l'.head?) (hlast : c'.lastSocket = l'.getLast?)
    (hlinks : Seg c'.nextOf c'.prevOf none l' none) (hcursor : c'.sockId = c.sockId)
    (hlimit : c'.sockLimit = c.sockLimit) : Coherent c' l' := by
  have hlt : s.id < c.socktab.length := h.length ▸ h.ids p s hp
  refine ⟨hnodup, hroot, hlast, hlinks, ?_, ?_, ?_, ?_, hlimit ▸ h.limit, ?_⟩
  · intro q
    by_cases hq : q = p
    · subst hq
      simp [hself, hen]
    · rw [hmem q hq, h.enqueued]
      exact (exists_badge_iff (hb q hq) (fun _ e => e = true)).symm
  · intro i q
    rw [htab]
    by_cases hi : s.id = i
    · subst hi
      rw [List.getElem?_set_self hlt]
      by_cases hq : q = p
      · subst hq
        simp [hself, hid, hen]
      · refine iff_of_false ?_ ?_
        · cases s'.enqueued <;> simp [Ne.symm hq]
        · rintro ⟨hql, hex⟩
          have hex' := (exists_badge_iff (hb q hq) (fun j _ => j = s.id)).mp hex
          exact hq (hentry q ((h.table s.id q).mpr ⟨(hmem q hq).mp hql, hex'⟩))
    · rw [List.getElem?_set_ne hi, h.table i q]
      by_cases hq : q = p
      · subst hq
        simp [hp, hself, hid, hi]
      · rw [hmem q hq]
        exact and_congr_right (fun _ => (exists_badge_iff (hb q hq) (fun j _ => j = i)).symm)
  · intro q t hq
    rw [hlimit]
    by_cases hqp : q = p
    · subst hqp
      rw [hself] at hq
      cases hq
      exact hid ▸ h.ids q s hp
    · obtain ⟨t', ht', hj⟩ := (exists_badge_iff (hb q hqp) (fun j _ => j = t.id)).mp ⟨t, hq, rfl⟩
      exact hj ▸ h.ids q t' ht'
  · rw [htab, List.length_set, hlimit, h.length]
  · rw [hcursor, hlimit]
    exact h.cursor

/-! ## Enqueue -/

/-- The core after `p` has been appended behind the last socket. -/
def appended (c : State) (p : Addr) (s : Sock) : State :=
  { c with
    heap := fun z =>
      if z = p then some { s with next := none, prev := c.lastSocket, enqueued := true }
      else (c.heap z).map (fun t =>
        { t with next := if c.lastSocket = some z then some p else t.next })
    svzSockRoot := c.svzSockRoot.or (some p)
    lastSocket := some p
    socktab := c.socktab.set s.id (some p) }

theorem svzSockEnqueue_refuses (h : Coherent c l) (hp : c.heap p = some s)
    (hno : ¬ (descriptorsValid s.attrs = true ∧ c.socktab[s.id]? = some none ∧
      s.enqueued = false)) :
    svzSockEnqueue c p = .ok (c, -1) := by
  obtain ⟨e, he⟩ := h.entry hp
  unfold svzSockEnqueue
  rw [load_eq hp, ok_bind]
  by_cases hv : descriptorsValid s.attrs = true
  · simp only [hv, Bool.not_true, Bool.false_eq_true, if_false]
    rw [entry_eq he, ok_bind]
    have hcond : (e.isSome || s.enqueued) = true := by
      cases e with
      | some q => rfl
      | none =>
        cases hs : s.enqueued with
        | true => rfl
        | false => exact absurd ⟨hv, he, hs⟩ hno
    rw [hcond]
    rfl
  · simp only [Bool.not_eq_true] at hv
    simp [hv, pure_eq_ok]

theorem svzSockEnqueue_accepts (h : Coherent c l) (hp : c.heap p = some s)
    (hv : descriptorsValid s.attrs = true) (he : c.socktab[s.id]? = some none)
    (hn : s.enqueued = false) :
    svzSockEnqueue c p = .ok (appended c p s, 0) := by
  have hlt : s.id < c.socktab.length := by
    rw [h.length]
    exact h.ids p s hp
  have hpl := not_mem_of_enqueued_eq_false h hp hn
  unfold svzSockEnqueue
  rw [load_eq hp, ok_bind]
  simp only [hv, hn, Bool.not_true, Bool.false_eq_true, if_false, Bool.or_false]
  rw [entry_eq he, ok_bind]
  simp only [Option.isSome_none, Bool.false_eq_true, if_false]
  rw [store_eq hp, ok_bind]
  cases hl : l.getLast? with
  | none =>
    have hroot : c.svzSockRoot = none := by
      rw [h.root, List.getLast?_eq_none_iff.mp hl]
      rfl
    have hlast : c.lastSocket = none := h.last.trans hl
    simp only [linkLast, hroot, pure_eq_ok, ok_bind]
    simp only [State.store, State.load, State.setEntry, Function.update_self, ok_bind, pure_eq_ok,
      Function.update_idem]
    rw [if_pos hlt, ok_bind]
    unfold appended
    rw [hroot, hlast]
    congr 3
    funext z
    by_cases hz : z = p
    · subst hz
      simp
    · simp [hz]
  | some last =>
    have hlast : c.lastSocket = some last := h.last.trans hl
    have hmem : last ∈ l := List.mem_of_getLast? hl
    obtain ⟨t, ht, -⟩ := h.live hmem
    have hne : last ≠ p := fun heq => hpl (heq ▸ hmem)
    obtain ⟨r, hr⟩ : ∃ r, c.svzSockRoot = some r := by
      rw [h.root]
      cases l with
      | nil => simp at hmem
      | cons r l => exact ⟨r, rfl⟩
    simp only [linkLast, hr, hlast, deref, ok_bind]
    simp only [State.store, State.load, State.setEntry, Function.update_of_ne hne,
      Function.update_of_ne hne.symm, ht, Function.update_self, ok_bind, pure_eq_ok]
    rw [if_pos hlt, ok_bind]
    unfold appended
    rw [hr, hlast]
    congr 3
    funext z
    by_cases hz : z = p
    · subst hz
      simp
    · by_cases hzl : last = z
      · subst hzl
        simp [hne, ht]
      · simp [hz, hzl, Function.update_of_ne (Ne.symm hzl)]

theorem coherent_appended (h : Coherent c l) (hp : c.heap p = some s)
    (he : c.socktab[s.id]? = some none) (hn : s.enqueued = false) :
    Coherent (appended c p s) (l ++ [p]) := by
  have hpl := not_mem_of_enqueued_eq_false h hp hn
  have hself : (appended c p s).heap p =
      some { s with next := none, prev := c.lastSocket, enqueued := true } := if_pos rfl
  have hother : ∀ z, z ≠ p → (appended c p s).heap z = (c.heap z).map (fun t =>
      { t with next := if c.lastSocket = some z then some p else t.next }) :=
    fun z hz => if_neg hz
  have hne : ∀ z ∈ l, z ≠ p := fun z hz heq => hpl (heq ▸ hz)
  refine h.toggle hp hself rfl ?_ ?_ ?_ ?_ rfl ?_ ?_ ?_ ?_ rfl rfl
  · intro z hz
    rw [hother z hz]
    cases c.heap z <;> rfl
  · intro z hz
    simp [hz]
  · simp
  · intro q hq
    rw [he] at hq
    cases hq
  · exact List.nodup_append.mpr ⟨h.nodup, List.nodup_singleton p, by
      intro a ha b hb
      rw [List.mem_singleton.mp hb]
      exact hne a ha⟩
  · change c.svzSockRoot.or (some p) = (l ++ [p]).head?
    rw [h.root, List.head?_append]
    rfl
  · exact List.getLast?_concat.symm
  · refine Seg.snoc h.links h.nodup ?_ ?_ (nextOf_eq hself) ((prevOf_eq hself).trans h.last)
    · intro z hz
      obtain ⟨t, ht, -⟩ := h.live hz
      unfold State.nextOf
      rw [hother z (hne z hz), ht, ← h.last]
      rfl
    · intro z hz
      unfold State.prevOf
      rw [hother z (hne z hz)]
      cases c.heap z <;> rfl

/-! ## Dequeue -/

/-- The core after `p` has been taken out of the list. -/
def unlinked (c : State) (p : Addr) (s : Sock) : State :=
  { c with
    heap := fun z =>
      if z = p then some { s with enqueued := false }
      else (c.heap z).map (fun t =>
        { t with next := if s.prev = some z then s.next else t.next
                 prev := if s.next = some z then s.prev else t.prev })
    svzSockRoot := if s.prev.isNone then s.next else c.svzSockRoot
    lastSocket := if s.next.isNone then s.prev else c.lastSocket
    socktab := c.socktab.set s.id none }

theorem dequeue_refuses (h : Coherent c l) (hp : c.heap p = some s)
    (hno : ¬ (descriptorsValid s.attrs = true ∧ s.enqueued = true)) :
    dequeue c p = .ok (c, -1) := by
  obtain ⟨e, he⟩ := h.entry hp
  unfold dequeue
  rw [load_eq hp, ok_bind]
  by_cases hv : descriptorsValid s.attrs = true
  · have hs : s.enqueued = false := by
      by_contra hs
      exact hno ⟨hv, by simpa using hs⟩
    simp only [hv, hs, Bool.not_true, Bool.false_eq_true, if_false, Bool.not_false, Bool.or_true,
      if_true]
    rw [entry_eq he]
    rfl
  · simp only [Bool.not_eq_true] at hv
    simp [hv, pure_eq_ok]

theorem Coherent.neighbours (h : Coherent c (l₁ ++ p :: l₂)) (hp : c.heap p = some s) :
    s.next = l₂.head? ∧ s.prev = l₁.getLast? ∧
      (∀ z, s.next = some z → z ≠ p ∧ ∃ t, c.heap z = some t) ∧
      (∀ z, s.prev = some z → z ≠ p ∧ ∃ t, c.heap z = some t) ∧
      (∀ z, s.next = some z → ¬ s.prev = some z) := by
  have hnext : s.next = l₂.head? := (nextOf_eq hp).symm.trans h.links.next_eq
  have hprev : s.prev = l₁.getLast? := (prevOf_eq hp).symm.trans h.links.prev_eq
  obtain ⟨-, hnd₂, hdis⟩ := List.nodup_append.mp h.nodup
  refine ⟨hnext, hprev, ?_, ?_, ?_⟩
  · intro z hz
    have hmem := List.mem_of_head? (hnext ▸ hz)
    obtain ⟨t, ht, -⟩ := h.live (List.mem_append_right _ (List.mem_cons_of_mem _ hmem))
    exact ⟨fun heq => (List.nodup_cons.mp hnd₂).1 (heq ▸ hmem), t, ht⟩
  · intro z hz
    have hmem := List.mem_of_getLast? (hprev ▸ hz)
    obtain ⟨t, ht, -⟩ := h.live (List.mem_append_left _ hmem)
    exact ⟨hdis z hmem p List.mem_cons_self, t, ht⟩
  · intro z hz hz'
    exact hdis z (List.mem_of_getLast? (hprev ▸ hz')) z
      (List.mem_cons_of_mem _ (List.mem_of_head? (hnext ▸ hz))) rfl

theorem update_field {heap : Addr → Option Sock} {a : Addr} {t : Sock} (ht : heap a = some t)
    {field : Sock → Option Addr} {set : Sock → Option Addr → Sock}
    (hset : ∀ t, set t (field t) = t) (v : Option Addr) :
    Function.update heap a (some (set t v)) = fun z =>
      (heap z).map (fun t => set t (if some a = some z then v else field t)) := by
  funext z
  by_cases hz : a = z
  · subst hz
    simp [ht]
  · simp [hz, Function.update_of_ne (Ne.symm hz), hset]

/-- The write to `sock->next->prev`, or to `last_socket` at the end of the list. -/
theorem setPrevOfNext_eq {next v : Option Addr}
    (hlive : ∀ z, next = some z → ∃ t, c.heap z = some t) :
    c.setPrevOfNext next v = .ok { c with
      heap := fun z => (c.heap z).map
        (fun t => { t with prev := if next = some z then v else t.prev })
      lastSocket := if next.isNone then v else c.lastSocket } := by
  unfold State.setPrevOfNext
  cases next with
  | none => simp
  | some a =>
    obtain ⟨t, ht⟩ := hlive a rfl
    dsimp only
    rw [store_eq ht]
    congr 2
    exact @update_field _ _ _ ht Sock.prev (fun t v => { t with prev := v }) (fun _ => rfl) v

/-- The write to `sock->prev->next`, or to `svz_sock_root` at the front of the list. -/
theorem setNextOfPrev_eq {prev v : Option Addr}
    (hlive : ∀ z, prev = some z → ∃ t, c.heap z = some t) :
    c.setNextOfPrev prev v = .ok { c with
      heap := fun z => (c.heap z).map
        (fun t => { t with next := if prev = some z then v else t.next })
      svzSockRoot := if prev.isNone then v else c.svzSockRoot } := by
  unfold State.setNextOfPrev
  cases prev with
  | none => simp
  | some a =>
    obtain ⟨t, ht⟩ := hlive a rfl
    dsimp only
    rw [store_eq ht]
    congr 2
    exact @update_field _ _ _ ht Sock.next (fun t v => { t with next := v }) (fun _ => rfl) v

theorem dequeue_accepts (h : Coherent c (l₁ ++ p :: l₂)) (hp : c.heap p = some s)
    (hv : descriptorsValid s.attrs = true) : dequeue c p = .ok (unlinked c p s, 0) := by
  have hmem : p ∈ l₁ ++ p :: l₂ := List.mem_append_right _ List.mem_cons_self
  have hn := h.enqueued_of_mem hp hmem
  have he : c.socktab[s.id]? = some (some p) := (h.table s.id p).mpr ⟨hmem, s, hp, rfl⟩
  have hlt : s.id < c.socktab.length := h.length ▸ h.ids p s hp
  obtain ⟨-, -, hnext, hprev, hdis⟩ := h.neighbours hp
  unfold dequeue
  rw [load_eq hp, ok_bind]
  simp only [hv, hn, Bool.not_true, Bool.false_eq_true, if_false, Bool.or_false]
  rw [entry_eq he, ok_bind]
  simp only [Option.isNone_some, Bool.false_eq_true, if_false]
  rw [setPrevOfNext_eq (fun z hz => (hnext z hz).2), ok_bind]
  rw [setNextOfPrev_eq (fun z hz => by
    obtain ⟨t, ht⟩ := (hprev z hz).2
    exact ⟨_, by simp only [ht, Option.map_some]; rfl⟩), ok_bind]
  rw [store_eq (s := s) (by
    have h1 : ¬ s.next = some p := fun hz => (hnext p hz).1 rfl
    have h2 : ¬ s.prev = some p := fun hz => (hprev p hz).1 rfl
    simp [hp, h1, h2]), ok_bind]
  unfold State.setEntry
  rw [if_pos hlt, ok_bind, pure_eq_ok]
  unfold unlinked
  congr 3
  funext z
  by_cases hz : z = p
  · subst hz
    simp
  · simp [hz, Function.comp_def]

theorem head?_append_cons :
    (l₁ ++ l₂).head? = if l₁.getLast?.isNone then l₂.head? else (l₁ ++ p :: l₂).head? := by
  cases l₁ with
  | nil => rfl
  | cons a l => simp [List.getLast?_cons]

theorem getLast?_append_cons :
    (l₁ ++ l₂).getLast? = if l₂.head?.isNone then l₁.getLast? else (l₁ ++ p :: l₂).getLast? := by
  cases l₂ with
  | nil => simp
  | cons a l => simp [List.getLast?_append, List.getLast?_cons]

theorem coherent_unlinked (h : Coherent c (l₁ ++ p :: l₂)) (hp : c.heap p = some s) :
    Coherent (unlinked c p s) (l₁ ++ l₂) := by
  obtain ⟨hnext, hprev, -, -, -⟩ := h.neighbours hp
  have hself : (unlinked c p s).heap p = some { s with enqueued := false } := if_pos rfl
  have hother : ∀ z, z ≠ p → (unlinked c p s).heap z = (c.heap z).map (fun t =>
      { t with next := if s.prev = some z then s.next else t.next
               prev := if s.next = some z then s.prev else t.prev }) := fun z hz => if_neg hz
  have hpl : p ∉ l₁ ++ l₂ := (List.nodup_middle.mp h.nodup).notMem
  have hmem : ∀ z, z ≠ p → (z ∈ l₁ ++ l₂ ↔ z ∈ l₁ ++ p :: l₂) := by
    intro z hz
    simp [hz]
  have hne : ∀ z ∈ l₁ ++ l₂, z ≠ p := fun z hz heq => hpl (heq ▸ hz)
  refine h.toggle hp hself rfl ?_ hmem ?_ ?_ rfl (List.nodup_middle.mp h.nodup).of_cons ?_ ?_ ?_
    rfl rfl
  · intro z hz
    rw [hother z hz]
    cases c.heap z <;> rfl
  · simp [hpl]
  · intro q hq
    have hentry := (h.table s.id p).mpr ⟨by simp, s, hp, rfl⟩
    rw [hq] at hentry
    exact Option.some.inj (Option.some.inj hentry)
  · change (if s.prev.isNone then s.next else c.svzSockRoot) = (l₁ ++ l₂).head?
    rw [h.root, hnext, hprev]
    exact head?_append_cons.symm
  · change (if s.next.isNone then s.prev else c.lastSocket) = (l₁ ++ l₂).getLast?
    rw [h.last, hnext, hprev]
    exact getLast?_append_cons.symm
  · refine Seg.unlink h.links h.nodup ?_ ?_
    · intro z hz
      obtain ⟨t, ht, -⟩ := h.live ((hmem z (hne z hz)).mp hz)
      unfold State.nextOf
      rw [hother z (hne z hz), ht, ← hnext, ← hprev]
      rfl
    · intro z hz
      obtain ⟨t, ht, -⟩ := h.live ((hmem z (hne z hz)).mp hz)
      unfold State.prevOf
      rw [hother z (hne z hz), ht, ← hnext, ← hprev]
      rfl

/-! ## Rechaining -/

/-- Listed sockets have different ids, so the list is no longer than the table. -/
theorem Coherent.length_le (h : Coherent c l) :
    l.length ≤ c.sockLimit := by
  have hid : ∀ p ∈ l, ∃ s, c.heap p = some s ∧ (c.heap p).elim 0 Sock.id = s.id := by
    intro p hp
    obtain ⟨s, hs, -⟩ := h.live hp
    exact ⟨s, hs, by rw [hs]; rfl⟩
  have hinj : (l.map (fun p => (c.heap p).elim 0 Sock.id)).Nodup := by
    refine List.Nodup.map_on ?_ h.nodup
    intro p hp q hq heq
    obtain ⟨s, hs, hsid⟩ := hid p hp
    obtain ⟨t, ht, htid⟩ := hid q hq
    have hentry := (h.table s.id p).mpr ⟨hp, s, hs, rfl⟩
    have hentry' := (h.table s.id q).mpr ⟨hq, t, ht, by rw [← htid, ← heq, hsid]⟩
    rw [hentry] at hentry'
    simpa using hentry'
  have hsub : l.map (fun p => (c.heap p).elim 0 Sock.id) ⊆ List.range c.sockLimit := by
    intro i hi
    obtain ⟨p, hp, rfl⟩ := List.mem_map.mp hi
    obtain ⟨s, hs, hsid⟩ := hid p hp
    rw [hsid]
    exact List.mem_range.mpr (h.ids p s hs)
  have hle := (List.subperm_of_subset hinj hsub).length_le
  rwa [List.length_map, List.length_range] at hle

theorem lastListen_eq (h : Coherent c l) (sock : Addr) (listening : Bool) :
    ∀ (rest pre : List Addr) (fuel : Nat), l = pre ++ rest → rest.getLast? = some sock →
      rest.length ≤ fuel → ∃ r₁ q r₂, rest = r₁ ++ q :: r₂ ∧
        lastListen c sock listening fuel rest.head? = .ok (some q) := by
  intro rest
  induction rest with
  | nil => intro pre fuel _ hlast; simp at hlast
  | cons q rest ih =>
    intro pre fuel hl hlast hfuel
    obtain ⟨fuel, rfl⟩ : ∃ n, fuel = n + 1 := ⟨fuel - 1, by simp at hfuel; omega⟩
    have hhere : ∀ x, x = (Except.ok (some q) : Except Fault _) →
        ∃ r₁ q' r₂, q :: rest = r₁ ++ q' :: r₂ ∧ x = .ok (some q') :=
      fun x hx => ⟨[], q, rest, rfl, hx⟩
    rw [List.head?_cons, lastListen]
    by_cases hq : q = sock
    · exact hhere _ (if_pos hq)
    · rw [if_neg hq]
      obtain ⟨s, hs, -⟩ := h.live (p := q) (by simp [hl])
      have hnext : s.next = rest.head? := (nextOf_eq hs).symm.trans (hl ▸ h.links).next_eq
      rw [load_eq hs, ok_bind]
      by_cases hskip : ((s.attrs.flags.listening || s.attrs.flags.priority) && !listening) = true
      · rw [if_pos hskip, hnext]
        have hrest : rest.getLast? = some sock := by
          cases rest with
          | nil => exact absurd (by simpa using hlast) hq
          | cons a rest => rwa [List.getLast?_cons_cons] at hlast
        obtain ⟨r₁, q', r₂, hr, hres⟩ := ih (pre ++ [q]) fuel (by simp [hl]) hrest
          (by simpa using hfuel)
        exact ⟨q :: r₁, q', r₂, by rw [hr]; rfl, hres⟩
      · rw [if_neg hskip]
        exact hhere _ rfl

/-- The core after the last socket `sock` has been moved in front of `q`; `before` was the
socket in front of `q` and `e` the last but one. -/
def rechained (c : State) (sock : Addr) (s : Sock) (before : Option Addr) (q e : Addr) : State :=
  { c with
    heap := fun z =>
      if z = sock then some { s with next := some q, prev := before }
      else (c.heap z).map (fun t =>
        { t with next := if e = z then none else if before = some z then some sock else t.next
                 prev := if q = z then some sock else t.prev })
    svzSockRoot := if before.isNone then some sock else c.svzSockRoot
    lastSocket := some e }

theorem putAfter_eq {a b : List Addr} {sock q : Addr} (h : Coherent c (a ++ (q :: b ++ [sock])))
    (hs : c.heap sock = some s) :
    putAfter c sock a.getLast? = .ok
      { c with
        heap := fun z =>
          if z = sock then some { s with next := some q, prev := a.getLast? }
          else (c.heap z).map (fun t =>
            { t with next := if a.getLast? = some z then some sock else t.next
                     prev := if q = z then some sock else t.prev })
        svzSockRoot := if a.getLast?.isNone then some sock else c.svzSockRoot } := by
  obtain ⟨t, ht, -⟩ := h.live (p := q) (by simp)
  have hqs : q ≠ sock := by
    have := (List.nodup_append.mp h.nodup).2.1
    rintro rfl
    simp at this
  cases hl : a.getLast? with
  | none =>
    have hroot : c.svzSockRoot = some q := by
      rw [h.root, List.getLast?_eq_none_iff.mp hl]
      rfl
    unfold putAfter putAtRoot
    simp only [hroot, deref, ok_bind, pure_eq_ok, State.store, State.load, hs, ht,
      Function.update_of_ne hqs]
    congr 2
    funext z
    by_cases hz : z = sock
    · subst hz
      simp [Function.update_of_ne (Ne.symm hqs)]
    · by_cases hzq : q = z
      · subst hzq
        simp [hz, ht]
      · simp [hz, hzq, Function.update_of_ne (Ne.symm hzq)]
  | some p =>
    have hpa : p ∈ a := List.mem_of_getLast? hl
    obtain ⟨r, hr, -⟩ := h.live (List.mem_append_left _ hpa)
    have hdis := (List.nodup_append.mp h.nodup).2.2
    have hps : p ≠ sock := hdis p hpa sock (by simp)
    have hpq : p ≠ q := hdis p hpa q (by simp)
    have hnext : r.next = some q := by
      obtain ⟨a', rfl⟩ : ∃ a', a = a' ++ [p] := by
        rcases List.eq_nil_or_concat a with rfl | ⟨a', x, rfl⟩
        · simp at hpa
        · exact ⟨a', by simpa using hl⟩
      have hlinks := h.links
      rw [List.append_assoc, List.singleton_append] at hlinks
      exact (nextOf_eq hr).symm.trans hlinks.next_eq
    unfold putAfter putBehind
    simp only [hnext, deref, ok_bind, State.store, State.load, hs, ht, hr, pure_eq_ok,
      Function.update_of_ne hqs, Function.update_of_ne hps, Function.update_of_ne hpq,
      Function.update_of_ne hps.symm, Function.update_of_ne hqs.symm, Function.update_self]
    congr 2
    funext z
    by_cases hz : z = sock
    · subst hz
      simp
    · by_cases hzq : q = z
      · subst hzq
        simp [hz, ht, Ne.symm hpq, hpq]
      · by_cases hzp : p = z
        · subst hzp
          simp [hz, hzq, hr]
        · simp [hz, hzq, hzp, Function.update_of_ne (Ne.symm hzq),
            Function.update_of_ne (Ne.symm hzp)]

theorem rechainListOfSocks_eq (h : Coherent c l) :
    rechainListOfSocks c = .ok c ∨
      ∃ a q b sock s e, l = a ++ (q :: b ++ [sock]) ∧ c.heap sock = some s ∧
        (q :: b).getLast? = some e ∧
        rechainListOfSocks c = .ok (rechained c sock s a.getLast? q e) := by
  unfold rechainListOfSocks
  cases hl : c.lastSocket with
  | none => exact Or.inl rfl
  | some sock =>
    have hlast : l.getLast? = some sock := h.last.symm.trans hl
    obtain ⟨s, hs, -⟩ := h.live (List.mem_of_getLast? hlast)
    dsimp only
    rw [load_eq hs, ok_bind]
    cases hprev : s.prev with
    | none => exact Or.inl rfl
    | some e =>
      obtain ⟨r₁, q, r₂, hsplit, hfind⟩ := lastListen_eq h sock s.attrs.flags.listening l []
        (c.sockLimit + 1) rfl hlast (Nat.le_succ_of_le h.length_le)
      dsimp only
      rw [h.root, hfind, ok_bind]
      dsimp only
      by_cases hq : sock = q
      · exact Or.inl (if_pos hq)
      · rw [if_neg hq]
        -- `q` is not the last socket, so the list ends with some sockets `b` and `sock`
        obtain ⟨b, rfl⟩ : ∃ b, r₂ = b ++ [sock] := by
          rcases List.eq_nil_or_concat r₂ with rfl | ⟨b, x, rfl⟩
          · simp [hsplit] at hlast
            exact absurd hlast.symm hq
          · refine ⟨b, ?_⟩
            simp [hsplit, List.getLast?_append, List.getLast?_cons] at hlast
            simp [hlast]
        obtain rfl : l = r₁ ++ (q :: b ++ [sock]) := hsplit
        have he : (q :: b).getLast? = some e := by
          have hlinks := h.links
          rw [← List.append_assoc] at hlinks
          rw [← hprev, ← prevOf_eq hs, hlinks.prev_eq]
          simp [List.getLast?_append, List.getLast?_cons]
        obtain ⟨t, ht, -⟩ := h.live (p := q) (by simp)
        obtain ⟨u, hu, -⟩ := h.live (p := e)
          (List.mem_append_right _ (List.mem_append_left _ (List.mem_of_getLast? he)))
        have hprev' : t.prev = r₁.getLast? := (prevOf_eq ht).symm.trans h.links.prev_eq
        have hes : e ≠ sock := by
          have hnd := (List.nodup_append.mp h.nodup).2.1
          exact (List.nodup_append.mp hnd).2.2 e (List.mem_of_getLast? he) sock (by simp)
        refine Or.inr ⟨r₁, q, b, sock, s, e, rfl, hs, he, ?_⟩
        rw [load_eq ht, ok_bind, hprev', putAfter_eq h hs, ok_bind]
        rw [store_eq (by simp only [if_neg hes, hu, Option.map_some]; rfl), ok_bind, pure_eq_ok]
        unfold rechained
        congr 2
        funext z
        by_cases hz : z = sock
        · subst hz
          simp [Function.update_of_ne (Ne.symm hes)]
        · by_cases hze : e = z
          · subst hze
            simp [hz, hu]
          · simp [hz, hze, Function.update_of_ne (Ne.symm hze)]

theorem coherent_rechained {a b : List Addr} {sock q e : Addr}
    (h : Coherent c (a ++ (q :: b ++ [sock]))) (hs : c.heap sock = some s)
    (he : (q :: b).getLast? = some e) :
    Coherent (rechained c sock s a.getLast? q e) (a ++ sock :: (q :: b)) := by
  set c' := rechained c sock s a.getLast? q e
  have hself : c'.heap sock = some { s with next := some q, prev := a.getLast? } := if_pos rfl
  have hother : ∀ z, z ≠ sock → c'.heap z = (c.heap z).map (fun t =>
      { t with next := if e = z then none else if a.getLast? = some z then some sock else t.next
               prev := if q = z then some sock else t.prev }) := fun z hz => if_neg hz
  have hbadge : ∀ z, (c'.heap z).map Sock.badge = (c.heap z).map Sock.badge := by
    intro z
    by_cases hz : z = sock
    · subst hz
      rw [hself, hs]
      rfl
    · rw [hother z hz]
      cases c.heap z <;> rfl
  obtain ⟨-, hnd₂, hdis⟩ := List.nodup_append.mp h.nodup
  have hdis₂ := (List.nodup_append.mp hnd₂).2.2
  have hea : ∀ z ∈ a, e ≠ z := by
    intro z hz heq
    exact hdis z hz z (List.mem_append_left _ (heq ▸ List.mem_of_getLast? he)) rfl
  have hqa : ∀ z ∈ a, q ≠ z := by
    intro z hz heq
    exact hdis z hz q (by simp) heq.symm
  have hsa : ∀ z ∈ a, z ≠ sock := fun z hz => hdis z hz sock (by simp)
  have hsb : ∀ z ∈ q :: b, z ≠ sock := fun z hz => hdis₂ z hz sock (by simp)
  refine h.relink hbadge ((List.perm_append_singleton sock (q :: b)).symm.append_left a) ?_ ?_ ?_
    rfl rfl rfl
  · change (if a.getLast?.isNone then some sock else c.svzSockRoot) = _
    rw [h.root]
    cases a with
    | nil => rfl
    | cons x a => simp [List.getLast?_cons]
  · change some e = _
    rw [← he]
    simp [List.getLast?_append, List.getLast?_cons]
  · refine Seg.moveLast h.links h.nodup ?_ ?_ ?_ ?_ (nextOf_eq hself) (prevOf_eq hself)
    · intro z hz
      unfold State.nextOf
      obtain ⟨t, ht, -⟩ := h.live (List.mem_append_left _ hz)
      rw [hother z (hsa z hz), ht, Option.map_some, if_neg (hea z hz)]
      rfl
    · intro z hz
      unfold State.prevOf
      obtain ⟨t, ht, -⟩ := h.live (List.mem_append_left _ hz)
      rw [hother z (hsa z hz), ht, Option.map_some, if_neg (hqa z hz)]
      rfl
    · intro z hz
      have hza : ¬ a.getLast? = some z := fun heq =>
        hdis z (List.mem_of_getLast? heq) z (List.mem_append_left _ hz) rfl
      unfold State.nextOf
      obtain ⟨t, ht, -⟩ := h.live (List.mem_append_right _ (List.mem_append_left _ hz))
      rw [hother z (hsb z hz), ht, Option.map_some, if_neg hza, he]
      simp
    · intro z hz
      unfold State.prevOf
      obtain ⟨t, ht, -⟩ := h.live (List.mem_append_right _ (List.mem_append_left _ hz))
      rw [hother z (hsb z hz), ht, Option.map_some]
      simp

end Serveez.Core
