import Serveez.Binding.OnlyAdds
import Serveez.Lib.Runs

/-!
# Arrays in use

The array of a listener is its own among the listeners, and a binding is in one array only. All
operations keep this, whether or not an array is destroyed that a connection still uses.

* `Arrays.shrink`, `Arrays.grow`: bindings go, with their configurations, and bindings come.
* `addServer_sound`, `enqueue_sound`, `merged_sound`: the parts of `svz_server_bind`.
-/

namespace Serveez.Binding

/-- A binding is in an array that has not been destroyed. -/
def Holds (s : State) (a : Nat) (b : Bound) : Prop :=
  ∃ bindings, s.arrays a = some bindings ∧ b ∈ bindings

/-- What the arrays hold has not been freed, and no configuration is held twice. -/
structure Arrays (s : State) : Prop where
  freedLt : ∀ p ∈ s.freed, p < s.next
  lt : ∀ a bindings, s.arrays a = some bindings → a < s.next
  live : ∀ a b, Holds s a b → b.port.addr < s.next ∧ b.port.addr ∉ s.freed
  once : ∀ a b c d, Holds s a c → Holds s b d → c.port.addr = d.port.addr → a = b ∧ c = d

structure Sound (s : State) : Prop extends Arrays s where
  ids : (s.socks.map (·.id)).Nodup
  idLt : ∀ sock ∈ s.socks, sock.id < s.next
  earsLt : ∀ id a, s.allEars id = some a → id < s.next ∧ a < s.next
  own : ∀ x ∈ s.socks, ∀ y ∈ s.socks, x.listening = true → y.listening = true → ∀ a,
    s.allEars x.id = some a → s.allEars y.id = some a → x.id = y.id

variable {s s' : State} {sock : Sock} {server : Nat} {port : PortRef}

/-! ## Arrays -/

theorem Arrays.shrink (h : Arrays s) (hnext : s.next ≤ s'.next)
    (hlt : ∀ a bindings, s'.arrays a = some bindings → a < s'.next)
    (hholds : ∀ a b, Holds s' a b → Holds s a b)
    (hfreed : ∀ p ∈ s'.freed, p ∈ s.freed ∨ p < s'.next ∧ ∀ a b, Holds s' a b → b.port.addr ≠ p) :
    Arrays s' where
  freedLt := by
    intro p hp
    rcases hfreed p hp with hold | ⟨hnew, -⟩
    · exact Nat.lt_of_lt_of_le (h.freedLt p hold) hnext
    · exact hnew
  lt := hlt
  live := by
    intro a b hb
    obtain ⟨hlt, hlive⟩ := h.live a b (hholds a b hb)
    refine ⟨Nat.lt_of_lt_of_le hlt hnext, fun hp => ?_⟩
    rcases hfreed _ hp with hold | ⟨-, hnew⟩
    · exact hlive hold
    · exact hnew a b hb rfl
  once := fun a b c d hc hd => h.once a b c d (hholds a c hc) (hholds b d hd)

/-- The array `array` gets new bindings. -/
theorem Arrays.grow (h : Arrays s) (array : Nat) {new : List Bound} (hnext : s.next ≤ s'.next)
    (hfreed : s'.freed = s.freed)
    (hlt : ∀ a bindings, s'.arrays a = some bindings → a < s'.next)
    (hholds : ∀ a b, Holds s' a b → Holds s a b ∨ a = array ∧ b ∈ new)
    (hports : OwnPorts s'.next new)
    (hfree : ∀ b ∈ new, b.port.addr ∉ s.freed ∧ ∀ a c, Holds s a c → c.port.addr ≠ b.port.addr) :
    Arrays s' where
  freedLt := fun p hp => Nat.lt_of_lt_of_le (h.freedLt p (hfreed ▸ hp)) hnext
  lt := hlt
  live := by
    intro a b hb
    rw [hfreed]
    rcases hholds a b hb with hold | ⟨-, hnew⟩
    · exact ⟨Nat.lt_of_lt_of_le (h.live a b hold).1 hnext, (h.live a b hold).2⟩
    · exact ⟨hports.1 b hnew, (hfree b hnew).1⟩
  once := by
    intro a b c d hc hd he
    rcases hholds a c hc with hold | ⟨rfl, hnew⟩
    · rcases hholds b d hd with hold' | ⟨rfl, hnew'⟩
      · exact h.once a b c d hold hold' he
      · exact absurd he ((hfree d hnew').2 a c hold)
    · rcases hholds b d hd with hold' | ⟨rfl, hnew'⟩
      · exact absurd he.symm ((hfree c hnew).2 b d hold')
      · exact ⟨rfl, hports.2 c hnew d hnew' he⟩

/-- A block that is newer than all others. -/
theorem Arrays.fresh (h : Arrays s) {p : Nat} (hp : s.next ≤ p) :
    p ∉ s.freed ∧ ∀ a b, Holds s a b → b.port.addr ≠ p := by
  refine ⟨fun hf => ?_, fun a b hb he => ?_⟩
  · have := h.freedLt p hf
    omega
  · have := (h.live a b hb).1
    omega

theorem Sound.eq_of_id (h : Sound s) {x y : Sock} (hx : x ∈ s.socks) (hy : y ∈ s.socks)
    (hid : x.id = y.id) : x = y := List.inj_on_of_nodup_map h.ids hx hy hid

theorem Sound.allEars_next (h : Sound s) : s.allEars s.next = none := by
  cases hears : s.allEars s.next with
  | none => rfl
  | some a =>
    have := (h.earsLt s.next a hears).1
    omega

/-- What a listener has is in its array. -/
theorem holds_of_mem_bindingsOf {a : Nat} (hears : s.allEars sock.id = some a) {b : Bound} :
    b ∈ bindingsOf s sock ↔ Holds s a b := by
  unfold bindingsOf Holds
  rw [hears, Option.bind_some]
  cases s.arrays a <;> simp

/-! ## Adding bindings -/

theorem takeBlock_sound (h : Sound s) : Sound (takeBlock s) where
  freedLt := fun p hp => Nat.lt_succ_of_lt (h.freedLt p hp)
  lt := fun a bindings ha => Nat.lt_succ_of_lt (h.lt a bindings ha)
  live := fun a b hb => ⟨Nat.lt_succ_of_lt (h.live a b hb).1, (h.live a b hb).2⟩
  once := h.once
  ids := h.ids
  idLt := fun x hx => Nat.lt_succ_of_lt (h.idLt x hx)
  earsLt := fun id a ha =>
    ⟨Nat.lt_succ_of_lt (h.earsLt id a ha).1, Nat.lt_succ_of_lt (h.earsLt id a ha).2⟩
  own := h.own

theorem freePorts_sound (h : Sound s) {bindings : List Bound}
    (hfree : ∀ b ∈ bindings, b.port.addr < s.next ∧
      ∀ a c, Holds s a c → c.port.addr ≠ b.port.addr) : Sound (freePorts s bindings) where
  toArrays := by
    refine h.shrink (Nat.le_refl _) h.lt (fun a b hb => hb) fun p hp => ?_
    rcases List.mem_append.mp hp with hnew | hold
    · obtain ⟨b, hb, rfl⟩ := List.mem_map.mp hnew
      exact Or.inr (hfree b hb)
    · exact Or.inl hold
  ids := h.ids
  idLt := h.idLt
  earsLt := h.earsLt
  own := h.own

theorem newArray_arrays_self (s : State) (sock : Sock) (bindings : List Bound) :
    (newArray s sock bindings).arrays s.next = some bindings := Function.update_self _ _ _

theorem newArray_arrays_of_ne {a : Nat} (ha : a ≠ s.next) (bindings : List Bound) :
    (newArray s sock bindings).arrays a = s.arrays a := Function.update_of_ne ha _ _

theorem newArray_sound (h : Sound s) (hsock : sock ∈ s.socks) {bindings : List Bound}
    (hports : OwnPorts s.next bindings)
    (hfree : ∀ b ∈ bindings, b.port.addr ∉ s.freed ∧
      ∀ a c, Holds s a c → c.port.addr ≠ b.port.addr) : Sound (newArray s sock bindings) where
  toArrays := by
    have hcases : ∀ a array, (newArray s sock bindings).arrays a = some array →
        s.arrays a = some array ∨ a = s.next ∧ array = bindings := by
      intro a array ha
      by_cases he : a = s.next
      · rw [he, newArray_arrays_self, Option.some.injEq] at ha
        exact Or.inr ⟨he, ha.symm⟩
      · rw [newArray_arrays_of_ne he] at ha
        exact Or.inl ha
    refine h.grow s.next (Nat.le_succ _) rfl (fun a array ha => ?_) (fun a b hb => ?_)
      ⟨fun b hb => Nat.lt_succ_of_lt (hports.1 b hb), hports.2⟩ hfree
    · rcases hcases a array ha with hold | ⟨rfl, -⟩
      · exact Nat.lt_succ_of_lt (h.lt a array hold)
      · exact Nat.lt_succ_self _
    · obtain ⟨array, ha, hb⟩ := hb
      rcases hcases a array ha with hold | ⟨rfl, rfl⟩
      · exact Or.inl ⟨array, hold, hb⟩
      · exact Or.inr ⟨rfl, hb⟩
  ids := h.ids
  idLt := fun x hx => Nat.lt_succ_of_lt (h.idLt x hx)
  earsLt := newArray_earsLt (h.idLt sock hsock) h.earsLt _
  own := by
    have hnew : ∀ id, s.allEars id ≠ some s.next := fun id ha =>
      Nat.lt_irrefl _ (h.earsLt id _ ha).2
    intro x hx y hy hxl hyl a hxa hya
    by_cases hxs : x.id = sock.id <;> by_cases hys : y.id = sock.id
    · exact hxs.trans hys.symm
    · rw [hxs, newArray_allEars_self] at hxa
      rw [newArray_allEars_of_ne hys] at hya
      exact absurd (hya.trans hxa.symm) (hnew y.id)
    · rw [hys, newArray_allEars_self] at hya
      rw [newArray_allEars_of_ne hxs] at hxa
      exact absurd (hxa.trans hya.symm) (hnew x.id)
    · rw [newArray_allEars_of_ne hxs] at hxa
      rw [newArray_allEars_of_ne hys] at hya
      exact h.own x hx y hy hxl hyl a hxa hya

theorem addServer_sound (h : Sound s) (hsock : sock ∈ s.socks) (hlt : port.addr < s.next)
    (hlive : port.addr ∉ s.freed) (hfree : ∀ a b, Holds s a b → b.port.addr ≠ port.addr) :
    Sound (addServer s sock server port) := by
  have hone : OwnPorts s.next [⟨server, port⟩] := by
    refine ⟨fun b hb => ?_, fun b hb c hc _ => ?_⟩
    · rw [List.mem_singleton.mp hb]
      exact hlt
    · rw [List.mem_singleton.mp hb, List.mem_singleton.mp hc]
  have hnew : ∀ b ∈ [(⟨server, port⟩ : Bound)], b.port.addr ∉ s.freed ∧
      ∀ a c, Holds s a c → c.port.addr ≠ b.port.addr := by
    intro b hb
    rw [List.mem_singleton.mp hb]
    exact ⟨hlive, hfree⟩
  unfold addServer
  cases hears : s.allEars sock.id with
  | none => exact newArray_sound h hsock hone hnew
  | some array =>
    dsimp only
    split
    · refine freePorts_sound h fun b hb => ?_
      rw [List.mem_singleton.mp hb]
      exact ⟨hlt, hfree⟩
    · refine ⟨h.grow array (Nat.le_refl _) rfl (fun a bindings ha => ?_) (fun a b hb => ?_) hone
        hnew, h.ids, h.idLt, h.earsLt, h.own⟩
      · by_cases he : a = array
        · exact he ▸ (h.earsLt sock.id array hears).2
        · exact h.lt a bindings ((Function.update_of_ne he _ _).symm.trans ha)
      · obtain ⟨bindings, ha, hb⟩ := hb
        by_cases he : a = array
        · subst he
          have ha : Function.update s.arrays a (some (bindingsOf s sock ++ [⟨server, port⟩])) a =
              some bindings := ha
          rw [Function.update_self, Option.some.injEq] at ha
          rw [← ha] at hb
          rcases List.mem_append.mp hb with hold | hadded
          · exact Or.inl ((holds_of_mem_bindingsOf hears).mp hold)
          · exact Or.inr ⟨rfl, hadded⟩
        · exact Or.inl ⟨bindings, (Function.update_of_ne he _ _).symm.trans ha, hb⟩

/-- A new socket is enqueued, and refers to no array or to that of another one. -/
theorem enqueue_sound (h : Sound s) {new : Sock} (hid : new.id = s.next) (ears : Option Nat)
    (hlt : ∀ a, ears = some a → a < s.next) (hlistening : new.listening = true → ears = none) :
    Sound { s with
      socks := s.socks ++ [new]
      allEars := Function.update s.allEars s.next ears
      next := s.next + 1 } where
  toArrays := h.shrink (Nat.le_succ _) (fun a bindings ha => Nat.lt_succ_of_lt (h.lt a bindings ha))
    (fun a b hb => hb) fun p hp => Or.inl hp
  ids := by
    rw [List.map_append, List.nodup_append]
    refine ⟨h.ids, List.nodup_singleton _, fun i hi j hj he => ?_⟩
    obtain ⟨x, hx, rfl⟩ := List.mem_map.mp hi
    have hj : j = new.id := List.mem_singleton.mp hj
    have hlt := h.idLt x hx
    rw [he, hj, hid] at hlt
    exact Nat.lt_irrefl _ hlt
  idLt := by
    intro x hx
    rcases List.mem_append.mp hx with hx | hx
    · exact Nat.lt_succ_of_lt (h.idLt x hx)
    · rw [List.mem_singleton.mp hx, hid]
      exact Nat.lt_succ_self _
  earsLt := by
    intro id a ha
    have ha : Function.update s.allEars s.next ears id = some a := ha
    by_cases he : id = s.next
    · rw [he, Function.update_self] at ha
      exact ⟨he ▸ Nat.lt_succ_self _, Nat.lt_succ_of_lt (hlt a ha)⟩
    · rw [Function.update_of_ne he] at ha
      exact ⟨Nat.lt_succ_of_lt (h.earsLt id a ha).1, Nat.lt_succ_of_lt (h.earsLt id a ha).2⟩
  own := by
    -- a listener with an array is one of those before
    have hold : ∀ x ∈ s.socks ++ [new], x.listening = true → ∀ a,
        Function.update s.allEars s.next ears x.id = some a →
        x ∈ s.socks ∧ s.allEars x.id = some a := by
      intro x hx hl a ha
      rcases List.mem_append.mp hx with hx | hx
      · have hne : x.id ≠ s.next := Nat.ne_of_lt (h.idLt x hx)
        exact ⟨hx, (Function.update_of_ne hne _ _).symm.trans ha⟩
      · rw [List.mem_singleton.mp hx] at hl ha
        rw [hid, Function.update_self, hlistening hl] at ha
        cases ha
    intro x hx y hy hxl hyl a hxa hya
    obtain ⟨hx, hxa⟩ := hold x hx hxl a hxa
    obtain ⟨hy, hya⟩ := hold y hy hyl a hya
    exact h.own x hx y hy hxl hyl a hxa hya

theorem enqueueListener_sound (h : Sound s) (hid : sock.id = s.next) :
    Sound (enqueueListener s sock) := by
  have hsame : enqueueListener s sock = { s with
      socks := s.socks ++ [sock]
      allEars := Function.update s.allEars s.next none
      next := s.next + 1 } := by
    rw [enqueueListener, Function.update_eq_self_iff.mpr h.allEars_next.symm]
  rw [hsame]
  exact enqueue_sound h hid none (by simp) fun _ => rfl

theorem accept_sound (h : Sound s) (sock : Sock) : Sound (accept s sock) :=
  enqueue_sound h rfl (s.allEars sock.id) (fun a ha => (h.earsLt sock.id a ha).2) (by simp)

/-! ## Removing bindings -/

/-- Some bindings go from the array of a listener. -/
theorem holds_zonkServer {a : Nat} {b : Bound} (hb : Holds (zonkServer server s sock) a b) :
    Holds s a b ∧ (s.allEars sock.id = some a → b.server ≠ server) := by
  unfold zonkServer at hb
  cases hears : s.allEars sock.id with
  | none =>
    rw [hears] at hb
    exact ⟨hb, by simp⟩
  | some array =>
    rw [hears] at hb
    obtain ⟨bindings, ha, hb⟩ := hb
    have ha : Function.update s.arrays array
        (some ((bindingsOf s sock).filter (·.server ≠ server))) a = some bindings := ha
    by_cases he : a = array
    · rw [he, Function.update_self, Option.some.injEq] at ha
      rw [← ha, List.mem_filter] at hb
      exact ⟨he ▸ (holds_of_mem_bindingsOf hears).mp hb.1, fun _ => by simpa using hb.2⟩
    · rw [Function.update_of_ne he] at ha
      exact ⟨⟨bindings, ha, hb⟩, fun hsame => absurd (Option.some.inj hsame).symm he⟩

theorem zonkServer_sound (h : Sound s) (server : Nat) (sock : Sock) :
    Sound (zonkServer server s sock) := by
  have hholds : ∀ a b, Holds (zonkServer server s sock) a b →
      Holds s a b ∧ (s.allEars sock.id = some a → b.server ≠ server) :=
    fun a b => holds_zonkServer
  unfold zonkServer at *
  cases hears : s.allEars sock.id with
  | none => exact h
  | some array =>
    rw [hears] at hholds
    refine ⟨h.shrink (Nat.le_refl _) (fun a bindings ha => ?_) (fun a b hb => (hholds a b hb).1)
      fun p hp => ?_, h.ids, h.idLt, h.earsLt, h.own⟩
    · by_cases he : a = array
      · exact he ▸ (h.earsLt sock.id array hears).2
      · exact h.lt a bindings ((Function.update_of_ne he _ _).symm.trans ha)
    · rcases List.mem_append.mp hp with hnew | hold
      · obtain ⟨c, hc, rfl⟩ := List.mem_map.mp hnew
        obtain ⟨hc, hserver⟩ := List.mem_filter.mp hc
        have hheld := (holds_of_mem_bindingsOf hears).mp hc
        refine Or.inr ⟨(h.live array c hheld).1, fun a b hb he => ?_⟩
        -- a binding that stays is not one that goes
        obtain ⟨hb, hstays⟩ := hholds a b hb
        obtain ⟨rfl, rfl⟩ := h.once a array b c hb hheld he
        exact hstays rfl (by simpa using hserver)
      · exact Or.inl hold

theorem serverUnbind_sound (h : Sound s) (server : Nat) : Sound (serverUnbind s server) :=
  Lib.foldl_invariant (zonkServer server) Sound (fun _ sock h => zonkServer_sound h server sock)
    (listeners s) s h

theorem merged_sound (h : Sound s) {gone : List Sock} (hm : Merged s gone s') : Sound s' := by
  have harrays : ∀ a bindings, s'.arrays a = some bindings → s.arrays a = some bindings ∧
      ¬ ∃ x ∈ gone, s.allEars x.id = some a := by
    intro a bindings ha
    rw [hm.arrays] at ha
    split at ha
    · cases ha
    · exact ⟨ha, by assumption⟩
  have hears : ∀ id a, s'.allEars id = some a → s.allEars id = some a := by
    intro id a ha
    rw [hm.allEars] at ha
    split at ha
    · cases ha
    · exact ha
  have hsocks : ∀ x ∈ s'.socks, x ∈ s.socks := by
    intro x hx
    rw [hm.socks] at hx
    exact List.mem_of_mem_filter hx
  refine ⟨h.shrink hm.le (fun a bindings ha => ?_) ?_ fun p hp => ?_, ?_, ?_, ?_, ?_⟩
  · exact Nat.lt_of_lt_of_le (h.lt a bindings (harrays a bindings ha).1) hm.le
  · rintro a b ⟨bindings, ha, hb⟩
    exact ⟨bindings, (harrays a bindings ha).1, hb⟩
  · rcases (hm.freed p).mp hp with hold | ⟨x, hx, c, hc, rfl⟩
    · exact Or.inl hold
    · cases harray : s.allEars x.id with
      | none => simp [bindingsOf, harray] at hc
      | some array =>
        have hheld := (holds_of_mem_bindingsOf harray).mp hc
        refine Or.inr ⟨Nat.lt_of_lt_of_le (h.live array c hheld).1 hm.le, ?_⟩
        rintro a b ⟨bindings, ha, hb⟩ he
        obtain ⟨ha, hstays⟩ := harrays a bindings ha
        obtain ⟨rfl, -⟩ := h.once a array b c ⟨bindings, ha, hb⟩ hheld he
        exact hstays ⟨x, hx, harray⟩
  · rw [hm.socks]
    exact (List.filter_sublist.map _).nodup h.ids
  · exact fun x hx => Nat.lt_of_lt_of_le (h.idLt x (hsocks x hx)) hm.le
  · intro id a ha
    obtain ⟨hid, ha⟩ := h.earsLt id a (hears id a ha)
    exact ⟨Nat.lt_of_lt_of_le hid hm.le, Nat.lt_of_lt_of_le ha hm.le⟩
  · exact fun x hx y hy hxl hyl a hxa hya =>
      h.own x (hsocks x hx) y (hsocks y hy) hxl hyl a (hears _ a hxa) (hears _ a hya)

theorem svzSockShutdown_merged (hlistening : sock.listening = true) :
    Merged s [sock] (svzSockShutdown s sock) := by
  have hdrop : svzSockShutdown s sock = dropListener s sock s.next := by
    unfold svzSockShutdown zonkSockEars dropListener
    rw [if_pos hlistening]
    cases hears : s.allEars sock.id with
    | none =>
      have hsame : Function.update s.allEars sock.id none = s.allEars :=
        Function.update_eq_self_iff.mpr hears.symm
      simp [bindingsOf, hears, hsame]
    | some a =>
      simp only [destroyArray, freePorts, bindingsOf, hears, Option.bind_some, update_none]
  rw [hdrop]
  refine ⟨Nat.le_refl _, ?_, fun id => ?_, fun a => ?_, fun p => ?_⟩
  · simp [dropListener]
  · by_cases hid : id = sock.id <;> simp [dropListener, hid]
  · simp [dropListener]
  · simp [dropListener, or_comm]

/-- A socket that does not listen leaves its array alone. -/
theorem svzSockShutdown_connection (hlistening : sock.listening = false) :
    svzSockShutdown s sock = { s with socks := s.socks.filter (·.id ≠ sock.id) } := by
  unfold svzSockShutdown zonkSockEars
  rw [if_neg (by simp [hlistening])]

theorem svzSockShutdown_sound (h : Sound s) (sock : Sock) : Sound (svzSockShutdown s sock) := by
  cases hlistening : sock.listening with
  | true => exact merged_sound h (svzSockShutdown_merged hlistening)
  | false =>
    rw [svzSockShutdown_connection hlistening]
    exact ⟨⟨h.freedLt, h.lt, h.live, h.once⟩, (List.filter_sublist.map _).nodup h.ids,
      fun x hx => h.idLt x (List.mem_of_mem_filter hx), h.earsLt,
      fun x hx y hy => h.own x (List.mem_of_mem_filter hx) y (List.mem_of_mem_filter hy)⟩

/-- A connection gives up its array, and gets a port configuration. -/
theorem unshare_sound (h : Sound s) (id : Nat) (own : PortRef) :
    Sound { s with
      allEars := Function.update s.allEars id none
      socks := s.socks.map fun other =>
        if other.id = id then { other with port := some own } else other } := by
  generalize hset : (fun other : Sock =>
    if other.id = id then { other with port := some own } else other) = set
  have hid : ∀ x, (set x).id = x.id := by
    intro x
    rw [← hset]
    dsimp only
    split <;> rfl
  have hlistening : ∀ x, (set x).listening = x.listening := by
    intro x
    rw [← hset]
    dsimp only
    split <;> rfl
  have hears : ∀ i a, Function.update s.allEars id none i = some a → s.allEars i = some a := by
    intro i a ha
    by_cases he : i = id
    · rw [he, Function.update_self] at ha
      cases ha
    · rwa [Function.update_of_ne he] at ha
  refine ⟨⟨h.freedLt, h.lt, h.live, h.once⟩, ?_, ?_, fun i a ha => h.earsLt i a (hears i a ha), ?_⟩
  · have hmap : (s.socks.map set).map (·.id) = s.socks.map (·.id) := by
      rw [List.map_map]
      exact List.map_congr_left fun x _ => hid x
    rw [hmap]
    exact h.ids
  · intro y hy
    obtain ⟨x, hx, rfl⟩ := List.mem_map.mp hy
    exact hid x ▸ h.idLt x hx
  · intro y hy z hz hyl hzl a hya hza
    obtain ⟨x, hx, rfl⟩ := List.mem_map.mp hy
    obtain ⟨w, hw, rfl⟩ := List.mem_map.mp hz
    rw [hlistening] at hyl hzl
    rw [hid] at hya hza ⊢
    rw [hid]
    exact h.own x hx w hw hyl hzl a (hears _ a hya) (hears _ a hza)

end Serveez.Binding
