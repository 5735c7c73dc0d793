import Serveez.Binding.Merge
import Serveez.Binding.Search
import Mathlib.Data.List.Nodup

/-!
# Well formed listeners

Every listener has its own array and its own port configurations, none of them freed. A new
listener, and one more binding of a listener, leave it at that.

* `WellFormed.held`: the rule for the port configurations that listeners hold.
* `addServer_grows`, `create_grows`: what adding does.
* `bindCopy_grows`: one round of `svz_server_bind` that replaces no listener.
-/

namespace Serveez.Binding

/-- The port configurations that a listener holds. -/
def owned (s : State) (sock : Sock) : List Nat :=
  (sock.port.map (·.addr)).toList ++ (bindingsOf s sock).map (·.port.addr)

structure WellFormed (s : State) : Prop where
  ids : (s.socks.map (·.id)).Nodup
  idLt : ∀ sock ∈ s.socks, sock.id < s.next
  earsLt : ∀ id a, s.allEars id = some a → id < s.next ∧ a < s.next
  freedLt : ∀ p ∈ s.freed, p < s.next
  ports : ∀ sock ∈ s.socks, sock.listening = true → ∃ own, sock.port = some own
  /-- No two listeners share an array. -/
  own : ∀ x ∈ listeners s, ∀ y ∈ listeners s, ∀ a, s.allEars x.id = some a →
    s.allEars y.id = some a → x = y
  unique : ∀ x ∈ listeners s, NoDuplicates (bindingsOf s x)
  live : ∀ x ∈ listeners s, ∀ p ∈ owned s x, p < s.next ∧ p ∉ s.freed
  /-- Nor a port configuration. -/
  apart : ∀ x ∈ listeners s, ∀ y ∈ listeners s, x ≠ y → ∀ p ∈ owned s x, p ∉ owned s y

/-- The listeners of a state are there in another one, with all their bindings. -/
def Extends (s s' : State) : Prop :=
  ∀ x ∈ listeners s, x ∈ listeners s' ∧ ∀ b ∈ bindingsOf s x, b ∈ bindingsOf s' x

/-- A port configuration that no listener but `sock` holds. -/
structure Unbound (s : State) (sock : Sock) (port : PortRef) : Prop where
  lt : port.addr < s.next
  live : port.addr ∉ s.freed
  other : ∀ y ∈ listeners s, y ≠ sock → port.addr ∉ owned s y

variable {s s' : State} {sock x : Sock} {server : Nat} {port : PortRef}

theorem Extends.refl (s : State) : Extends s s := fun _ hx => ⟨hx, fun _ hb => hb⟩

theorem Extends.trans {s'' : State} (h : Extends s s') (h' : Extends s' s'') : Extends s s'' :=
  fun x hx => ⟨(h' x (h x hx).1).1, fun b hb => (h' x (h x hx).1).2 b ((h x hx).2 b hb)⟩

theorem listeners_subset (h : x ∈ listeners s) : x ∈ s.socks := (mem_listeners.mp h).1

theorem WellFormed.eq_of_id (h : WellFormed s) {y : Sock} (hx : x ∈ s.socks) (hy : y ∈ s.socks)
    (hid : x.id = y.id) : x = y := List.inj_on_of_nodup_map h.ids hx hy hid

/-- An address that is newer than all others. -/
theorem WellFormed.fresh (h : WellFormed s) {p : Nat} (hp : s.next ≤ p) :
    p ∉ s.freed ∧ ∀ y ∈ listeners s, p ∉ owned s y := by
  refine ⟨fun hf => ?_, fun y hy hmem => ?_⟩
  · have := h.freedLt p hf
    omega
  · have := (h.live y hy p hmem).1
    omega

theorem takeBlock_wellFormed (h : WellFormed s) : WellFormed (takeBlock s) where
  ids := h.ids
  idLt := fun y hy => Nat.lt_succ_of_lt (h.idLt y hy)
  earsLt := fun id a ha =>
    ⟨Nat.lt_succ_of_lt (h.earsLt id a ha).1, Nat.lt_succ_of_lt (h.earsLt id a ha).2⟩
  freedLt := fun p hp => Nat.lt_succ_of_lt (h.freedLt p hp)
  ports := h.ports
  own := h.own
  unique := h.unique
  live := fun y hy p hp => ⟨Nat.lt_succ_of_lt (h.live y hy p hp).1, (h.live y hy p hp).2⟩
  apart := h.apart

/-- The rule for what the listeners hold: it was held by the same listener before or is new to
all, and what is freed is not held any more. -/
theorem WellFormed.held (h : WellFormed s) (s' : State) (New : Sock → Nat → Prop)
    (hnext : s.next ≤ s'.next)
    (howned : ∀ y ∈ listeners s', ∀ p ∈ owned s' y,
      y ∈ listeners s ∧ p ∈ owned s y ∨ New y p)
    (hnew : ∀ y ∈ listeners s', ∀ p, New y p → p < s'.next ∧ p ∉ s'.freed ∧
      ∀ z ∈ listeners s', z ≠ y → p ∉ owned s' z)
    (hfreed : ∀ p ∈ s'.freed, p ∈ s.freed ∨ ∀ y ∈ listeners s', p ∉ owned s' y) :
    (∀ y ∈ listeners s', ∀ p ∈ owned s' y, p < s'.next ∧ p ∉ s'.freed) ∧
      ∀ y ∈ listeners s', ∀ z ∈ listeners s', y ≠ z → ∀ p ∈ owned s' y, p ∉ owned s' z := by
  constructor
  · intro y hy p hp
    rcases howned y hy p hp with ⟨hold, hpold⟩ | hpnew
    · obtain ⟨hlt, hlive⟩ := h.live y hold p hpold
      refine ⟨Nat.lt_of_lt_of_le hlt hnext, fun hf => ?_⟩
      rcases hfreed p hf with hf | hf
      · exact hlive hf
      · exact hf y hy hp
    · exact ⟨(hnew y hy p hpnew).1, (hnew y hy p hpnew).2.1⟩
  · intro y hy z hz hyz p hpy hpz
    rcases howned y hy p hpy with ⟨hy', hpy'⟩ | hpnew
    · rcases howned z hz p hpz with ⟨hz', hpz'⟩ | hpnew
      · exact h.apart y hy' z hz' hyz p hpy' hpz'
      · exact (hnew z hz p hpnew).2.2 y hy hyz hpy
    · exact (hnew y hy p hpnew).2.2 z hz (Ne.symm hyz) hpz

/-- The case of nothing new. -/
theorem WellFormed.held_of_subset (h : WellFormed s) (s' : State) (hnext : s.next ≤ s'.next)
    (howned : ∀ y ∈ listeners s', y ∈ listeners s ∧ ∀ p ∈ owned s' y, p ∈ owned s y)
    (hfreed : ∀ p ∈ s'.freed, p ∈ s.freed ∨ ∀ y ∈ listeners s', p ∉ owned s' y) :
    (∀ y ∈ listeners s', ∀ p ∈ owned s' y, p < s'.next ∧ p ∉ s'.freed) ∧
      ∀ y ∈ listeners s', ∀ z ∈ listeners s', y ≠ z → ∀ p ∈ owned s' y, p ∉ owned s' z :=
  h.held s' (fun _ _ => False) hnext
    (fun y hy p hp => Or.inl ⟨(howned y hy).1, (howned y hy).2 p hp⟩) (by simp) hfreed

/-- Configurations that no listener holds are freed. -/
theorem freePorts_wellFormed (h : WellFormed s) {bindings : List Bound}
    (hfree : ∀ b ∈ bindings, b.port.addr < s.next ∧ ∀ y ∈ listeners s, b.port.addr ∉ owned s y) :
    WellFormed (freePorts s bindings) := by
  have hcases : ∀ p ∈ (freePorts s bindings).freed, p ∈ s.freed ∨
      p < s.next ∧ ∀ y ∈ listeners s, p ∉ owned s y := by
    intro p hp
    rcases List.mem_append.mp hp with hnew | hold
    · obtain ⟨b, hb, rfl⟩ := List.mem_map.mp hnew
      exact Or.inr (hfree b hb)
    · exact Or.inl hold
  obtain ⟨hlive, hapart⟩ := h.held_of_subset (freePorts s bindings) (Nat.le_refl _)
    (fun y hy => ⟨hy, fun p hp => hp⟩) fun p hp => (hcases p hp).imp_right And.right
  refine ⟨h.ids, h.idLt, h.earsLt, fun p hp => ?_, h.ports, h.own, h.unique, hlive, hapart⟩
  rcases hcases p hp with hold | ⟨hlt, -⟩
  · exact h.freedLt p hold
  · exact hlt

/-- The case of one. -/
theorem freePort_wellFormed (h : WellFormed s) (hlt : port.addr < s.next)
    (hfree : ∀ y ∈ listeners s, port.addr ∉ owned s y) :
    WellFormed (freePorts s [⟨server, port⟩]) := by
  refine freePorts_wellFormed h fun b hb => ?_
  cases List.mem_singleton.mp hb
  exact ⟨hlt, hfree⟩

/-! ## One more binding -/

theorem owned_eq_of_bindingsOf {y : Sock} (h : bindingsOf s' y = bindingsOf s y) :
    owned s' y = owned s y := by
  rw [owned, owned, h]

theorem mem_owned_append {new : List Bound} (h : bindingsOf s' sock = bindingsOf s sock ++ new)
    {p : Nat} : p ∈ owned s' sock ↔ p ∈ owned s sock ∨ ∃ b ∈ new, b.port.addr = p := by
  simp [owned, h, or_assoc]

/-- The listener `sock` gets bindings, the others stay. -/
theorem WellFormed.grow (h : WellFormed s) (hsocks : s'.socks = s.socks)
    (hfreed : s'.freed = s.freed) (hnext : s.next ≤ s'.next)
    (hears : ∀ id a, s'.allEars id = some a → id < s'.next ∧ a < s'.next)
    (hown : ∀ x ∈ listeners s, ∀ y ∈ listeners s, ∀ a, s'.allEars x.id = some a →
      s'.allEars y.id = some a → x = y) {new : List Bound}
    (hself : bindingsOf s' sock = bindingsOf s sock ++ new)
    (hother : ∀ y ∈ listeners s, y ≠ sock → bindingsOf s' y = bindingsOf s y)
    (hnew : ∀ b ∈ new, Unbound s sock b.port)
    (hunique : NoDuplicates (bindingsOf s' sock)) : WellFormed s' ∧ Extends s s' := by
  have hlisteners : listeners s' = listeners s := by rw [listeners, listeners, hsocks]
  have howned : ∀ y ∈ listeners s, y ≠ sock → owned s' y = owned s y := fun y hy hys =>
    owned_eq_of_bindingsOf (hother y hy hys)
  obtain ⟨hlive, hapart⟩ := h.held s' (fun y p => y = sock ∧ ∃ b ∈ new, b.port.addr = p) hnext
    (fun y hy p hp => by
      rw [hlisteners] at hy
      by_cases hys : y = sock
      · subst hys
        rcases (mem_owned_append hself).mp hp with hold | hadded
        · exact Or.inl ⟨hy, hold⟩
        · exact Or.inr ⟨rfl, hadded⟩
      · rw [howned y hy hys] at hp
        exact Or.inl ⟨hy, hp⟩)
    (fun y _ p hp => by
      obtain ⟨rfl, b, hb, rfl⟩ := hp
      rw [hlisteners, hfreed]
      refine ⟨Nat.lt_of_lt_of_le (hnew b hb).lt hnext, (hnew b hb).live, fun z hz hzy => ?_⟩
      rw [howned z hz hzy]
      exact (hnew b hb).other z hz hzy)
    (fun p hp => Or.inl (hfreed ▸ hp))
  refine ⟨⟨?_, ?_, hears, ?_, ?_, ?_, ?_, hlive, hapart⟩,
    fun y hy => ⟨hlisteners ▸ hy, fun b hb => ?_⟩⟩
  · rw [hsocks]
    exact h.ids
  · intro y hy
    rw [hsocks] at hy
    exact Nat.lt_of_lt_of_le (h.idLt y hy) hnext
  · intro p hp
    rw [hfreed] at hp
    exact Nat.lt_of_lt_of_le (h.freedLt p hp) hnext
  · rw [hsocks]
    exact h.ports
  · rw [hlisteners]
    exact hown
  · rw [hlisteners]
    intro y hy
    by_cases hys : y = sock
    · exact hys ▸ hunique
    · rw [hother y hy hys]
      exact h.unique y hy
  · by_cases hys : y = sock
    · subst hys
      rw [hself]
      exact List.mem_append_left _ hb
    · rw [hother y hy hys]
      exact hb

theorem newArray_allEars_self (s : State) (sock : Sock) (bindings : List Bound) :
    (newArray s sock bindings).allEars sock.id = some s.next := Function.update_self _ _ _

theorem newArray_allEars_of_ne {id : Nat} (hid : id ≠ sock.id) (bindings : List Bound) :
    (newArray s sock bindings).allEars id = s.allEars id := Function.update_of_ne hid _ _

theorem bindingsOf_newArray_self (s : State) (sock : Sock) (bindings : List Bound) :
    bindingsOf (newArray s sock bindings) sock = bindings := by
  simp [bindingsOf, newArray]

theorem bindingsOf_newArray_of_ne (h : WellFormed s) {y : Sock} (hid : y.id ≠ sock.id)
    (bindings : List Bound) : bindingsOf (newArray s sock bindings) y = bindingsOf s y := by
  simp only [bindingsOf, newArray, Function.update_of_ne hid]
  cases hy : s.allEars y.id with
  | none => rfl
  | some a =>
    have hne : a ≠ s.next := by
      have := (h.earsLt y.id a hy).2
      omega
    rw [Option.bind_some, Option.bind_some, Function.update_of_ne hne]

theorem newArray_earsLt (hid : sock.id < s.next)
    (hears : ∀ id a, s.allEars id = some a → id < s.next ∧ a < s.next) (bindings : List Bound) :
    ∀ id a, (newArray s sock bindings).allEars id = some a → id < s.next + 1 ∧ a < s.next + 1 := by
  intro id a ha
  by_cases he : id = sock.id
  · subst he
    rw [newArray_allEars_self, Option.some.injEq] at ha
    exact ⟨Nat.lt_succ_of_lt hid, ha ▸ Nat.lt_succ_self _⟩
  · rw [newArray_allEars_of_ne he] at ha
    exact ⟨Nat.lt_succ_of_lt (hears id a ha).1, Nat.lt_succ_of_lt (hears id a ha).2⟩

theorem newArray_own (h : WellFormed s) (hsock : sock ∈ listeners s) (bindings : List Bound) :
    ∀ x ∈ listeners s, ∀ y ∈ listeners s, ∀ a, (newArray s sock bindings).allEars x.id = some a →
      (newArray s sock bindings).allEars y.id = some a → x = y := by
  have hid : ∀ y ∈ listeners s, y ≠ sock → y.id ≠ sock.id := fun y hy hys he =>
    hys (h.eq_of_id (listeners_subset hy) (listeners_subset hsock) he)
  have hold : ∀ y ∈ listeners s, y ≠ sock → ∀ a,
      (newArray s sock bindings).allEars y.id = some a → s.allEars y.id = some a :=
    fun y hy hys a ha => (newArray_allEars_of_ne (hid y hy hys) bindings).symm.trans ha
  have hself : ∀ a, (newArray s sock bindings).allEars sock.id = some a → a = s.next :=
    fun a ha => Option.some.inj (ha.symm.trans (newArray_allEars_self s sock bindings))
  have hne : ∀ y ∈ listeners s, s.allEars y.id ≠ some s.next := by
    intro y _ ha
    have := (h.earsLt y.id _ ha).2
    omega
  intro x hx y hy a hxa hya
  by_cases hxs : x = sock
  · by_cases hys : y = sock
    · exact hxs.trans hys.symm
    · subst hxs
      exact absurd (hself a hxa ▸ hold y hy hys a hya) (hne y hy)
  · by_cases hys : y = sock
    · subst hys
      exact absurd (hself a hya ▸ hold x hx hxs a hxa) (hne x hx)
    · exact h.own x hx y hy a (hold x hx hxs a hxa) (hold y hy hys a hya)

/-- A listener without bindings gets some, with configurations that nobody else holds. -/
theorem newArray_wellFormed (h : WellFormed s) (hsock : sock ∈ listeners s) {bindings : List Bound}
    (hnil : bindingsOf s sock = []) (hunique : NoDuplicates bindings)
    (hfree : ∀ b ∈ bindings, Unbound s sock b.port) :
    WellFormed (newArray s sock bindings) ∧ Extends s (newArray s sock bindings) := by
  have hself := bindingsOf_newArray_self s sock bindings
  refine h.grow rfl rfl (Nat.le_succ _) 
    (newArray_earsLt (h.idLt sock (listeners_subset hsock)) h.earsLt bindings)
    (newArray_own h hsock bindings) (hself.trans (by rw [hnil, List.nil_append]))
    (fun y hy hys => ?_) hfree (hself.symm ▸ hunique)
  exact bindingsOf_newArray_of_ne h (fun he =>
    hys (h.eq_of_id (listeners_subset hy) (listeners_subset hsock) he)) bindings

/-- A binding is added, or its configuration freed because there is one like it. -/
theorem addServer_grows (h : WellFormed s) (hsock : sock ∈ listeners s)
    (hport : Unbound s sock port)
    (hfound : findBinding (bindingsOf s sock) server port.cfg = true → port.addr ∉ owned s sock) :
    WellFormed (addServer s sock server port) ∧ Extends s (addServer s sock server port) := by
  have hnew : ∀ b ∈ [(⟨server, port⟩ : Bound)], Unbound s sock b.port := by
    intro b hb
    rw [List.mem_singleton.mp hb]
    exact hport
  unfold addServer
  cases hears : s.allEars sock.id with
  | none =>
    exact newArray_wellFormed h hsock (by simp [bindingsOf, hears]) (List.pairwise_singleton _ _)
      hnew
  | some a =>
    dsimp only
    split
    · rename_i hin
      refine ⟨freePort_wellFormed h hport.lt fun y hy => ?_, fun y hy => ⟨hy, fun b hb => hb⟩⟩
      by_cases hys : y = sock
      · exact hys ▸ hfound hin
      · exact hport.other y hy hys
    · rename_i hout
      have hself : bindingsOf { s with
          arrays := Function.update s.arrays a
            (some (bindingsOf s sock ++ [⟨server, port⟩])) } sock =
          bindingsOf s sock ++ [⟨server, port⟩] := by
        simp [bindingsOf, hears]
      refine h.grow rfl rfl (Nat.le_refl _) h.earsLt h.own hself (fun y hy hys => ?_) hnew ?_
      · simp only [bindingsOf]
        cases hya : s.allEars y.id with
        | none => rfl
        | some b =>
          have hne : b ≠ a := fun he => hys (h.own y hy sock hsock b hya (he ▸ hears))
          simp [Function.update_of_ne hne]
      · rw [hself]
        exact noDuplicates_append_singleton (h.unique sock hsock) hout

/-! ## A new listener -/

theorem mem_listeners_enqueue :
    x ∈ listeners (enqueueListener s sock) ↔
      x ∈ listeners s ∨ x = sock ∧ sock.listening = true ∧ ∃ own, sock.port = some own := by
  rw [mem_listeners, mem_listeners, enqueueListener, List.mem_append, List.mem_singleton]
  constructor
  · rintro ⟨hx | rfl, hrest⟩
    · exact Or.inl ⟨hx, hrest⟩
    · exact Or.inr ⟨rfl, hrest⟩
  · rintro (⟨hx, hrest⟩ | ⟨rfl, hrest⟩)
    · exact ⟨Or.inl hx, hrest⟩
    · exact ⟨Or.inr rfl, hrest⟩

/-- The number of a socket still to be made has no array. -/
theorem WellFormed.allEars_next (h : WellFormed s) : s.allEars s.next = none := by
  cases hears : s.allEars s.next with
  | none => rfl
  | some a =>
    have := (h.earsLt s.next a hears).1
    omega

theorem enqueueListener_wellFormed (h : WellFormed s) {own : PortRef} {proto : Proto}
    (hsock : sock = ⟨s.next, true, some own, proto⟩) (hlt : own.addr < s.next)
    (hlive : own.addr ∉ s.freed) (hfree : ∀ y ∈ listeners s, own.addr ∉ owned s y) :
    WellFormed (enqueueListener s sock) := by
  have hears : s.allEars sock.id = none := hsock ▸ h.allEars_next
  have hnil : bindingsOf s sock = [] := by simp [bindingsOf, hears]
  have hcases : ∀ y ∈ listeners (enqueueListener s sock), y ∈ listeners s ∨ y = sock := by
    intro y hy
    rcases mem_listeners_enqueue.mp hy with hy | ⟨rfl, -⟩
    · exact Or.inl hy
    · exact Or.inr rfl
  have hown : ∀ p, p ∈ owned s sock ↔ p = own.addr := by
    intro p
    rw [owned, hnil, hsock]
    simp
  obtain ⟨hlive', hapart⟩ := h.held (enqueueListener s sock)
    (fun y p => y = sock ∧ p = own.addr) (Nat.le_succ _)
    (fun y hy p hp => by
      rcases hcases y hy with hy | rfl
      · exact Or.inl ⟨hy, hp⟩
      · exact Or.inr ⟨rfl, (hown p).mp hp⟩)
    (fun y _ p hp => by
      obtain ⟨rfl, rfl⟩ := hp
      refine ⟨Nat.lt_succ_of_lt hlt, hlive, fun z hz hzy => ?_⟩
      exact hfree z ((hcases z hz).resolve_right hzy))
    (fun p hp => Or.inl hp)
  refine ⟨?_, ?_, ?_, ?_, ?_, ?_, ?_, hlive', hapart⟩
  · rw [enqueueListener, List.map_append, List.nodup_append]
    refine ⟨h.ids, List.nodup_singleton _, fun i hi j hj he => ?_⟩
    obtain ⟨y, hy, rfl⟩ := List.mem_map.mp hi
    have hid := h.idLt y hy
    rw [he, List.mem_singleton.mp hj, hsock] at hid
    exact absurd hid (Nat.lt_irrefl _)
  · intro y hy
    rcases List.mem_append.mp hy with hy | hy
    · exact Nat.lt_succ_of_lt (h.idLt y hy)
    · rw [List.mem_singleton.mp hy, hsock]
      exact Nat.lt_succ_self _
  · exact fun id a ha =>
      ⟨Nat.lt_succ_of_lt (h.earsLt id a ha).1, Nat.lt_succ_of_lt (h.earsLt id a ha).2⟩
  · exact fun p hp => Nat.lt_succ_of_lt (h.freedLt p hp)
  · intro y hy hlistening
    rcases List.mem_append.mp hy with hy | hy
    · exact h.ports y hy hlistening
    · rw [List.mem_singleton.mp hy, hsock]
      exact ⟨own, rfl⟩
  · intro y hy z hz a hya hza
    rcases hcases y hy with hy | rfl
    · rcases hcases z hz with hz | rfl
      · exact h.own y hy z hz a hya hza
      · exact absurd (hears.symm.trans hza) (by simp)
    · exact absurd (hears.symm.trans hya) (by simp)
  · intro y hy
    rcases hcases y hy with hy | rfl
    · exact h.unique y hy
    · exact hnil ▸ List.Pairwise.nil

theorem create_grows (h : WellFormed s) (hlt : port.addr < s.next) (hlive : port.addr ∉ s.freed)
    (hfree : ∀ y ∈ listeners s, port.addr ∉ owned s y) (outcome : Option UInt16) :
    WellFormed (create s server port outcome) ∧ Extends s (create s server port outcome) := by
  cases outcome with
  | none => exact ⟨freePort_wellFormed h hlt hfree, Extends.refl s⟩
  | some chosen =>
    have hwf : WellFormed (enqueueListener s (newListener s port chosen)) :=
      enqueueListener_wellFormed h rfl hlt hlive hfree
    have hsock : newListener s port chosen ∈
        listeners (enqueueListener s (newListener s port chosen)) :=
      mem_listeners_enqueue.mpr (Or.inr ⟨rfl, rfl, _, rfl⟩)
    have hnil : bindingsOf (enqueueListener s (newListener s port chosen))
        (newListener s port chosen) = [] := by
      simp [bindingsOf, enqueueListener, newListener, h.allEars_next]
    have hunbound : Unbound (enqueueListener s (newListener s port chosen))
        (newListener s port chosen) ⟨port.addr, serverCreated port.cfg chosen⟩ := by
      refine ⟨Nat.lt_succ_of_lt hlt, hlive, fun y hy hne => ?_⟩
      rcases mem_listeners_enqueue.mp hy with hy | ⟨he, -⟩
      · exact hfree y hy
      · exact absurd he hne
    have hfound : findBinding (bindingsOf (enqueueListener s (newListener s port chosen))
        (newListener s port chosen)) server (serverCreated port.cfg chosen) = true →
        port.addr ∉ owned (enqueueListener s (newListener s port chosen))
          (newListener s port chosen) := by
      simp [hnil, findBinding]
    obtain ⟨hwf', hext⟩ := addServer_grows hwf hsock hunbound hfound
    exact ⟨hwf', fun x hx => hext x (mem_listeners_enqueue.mpr (Or.inl hx))⟩

/-! ## One round -/

theorem WellFormed.not_dangling (h : WellFormed s) : ∀ x ∈ s.socks, ¬ Dangling s x := by
  rintro x hx ⟨hlistening, own, hown, hfreed⟩
  have hx' : x ∈ listeners s := mem_listeners.mpr ⟨hx, hlistening, own, hown⟩
  exact (h.live x hx' own.addr (by simp [owned, hown])).2 hfreed

/-- A round that replaces no listener adds to what there is. -/
theorem bindCopy_grows (h : WellFormed s) {port copy : PortCfg} {outcome : Option UInt16}
    (hkeep : ∀ sock, s.socks.find? (isMatch copy) = some sock →
      (copy.any && !hasAny sock) = false) :
    ∃ s', bindCopy s server port copy outcome = .ok s' ∧ WellFormed s' ∧ Extends s s' := by
  have hwf := takeBlock_wellFormed h
  obtain ⟨hlive, hfree⟩ := h.fresh (Nat.le_refl s.next)
  rcases bindCopy_cases s server port copy outcome with
    ⟨-, x, hx, hd⟩ | ⟨-, heq⟩ | ⟨sock, hfind, -, heq⟩ | ⟨sock, hfind, hmerge, -⟩
  · exact absurd hd (h.not_dangling x hx)
  · have hfree' : ∀ y ∈ listeners (takeBlock s),
        (⟨s.next, copy⟩ : PortRef).addr ∉ owned (takeBlock s) y := hfree
    exact ⟨_, heq, create_grows hwf (Nat.lt_succ_self _) hlive hfree' outcome⟩
  · have hmatch := List.find?_some hfind
    have hsock := mem_listeners_of_isMatch (List.mem_of_find?_eq_some hfind) hmatch
    have hunbound : Unbound (takeBlock s) sock ⟨s.next, copy⟩ :=
      ⟨Nat.lt_succ_self _, hlive, fun y hy _ => hfree y hy⟩
    exact ⟨_, heq, addServer_grows hwf hsock hunbound fun _ => hfree sock hsock⟩
  · exact absurd (hkeep sock hfind) (by simp [hmerge])

end Serveez.Binding
