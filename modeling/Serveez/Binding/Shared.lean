import Serveez.Binding.Sound

/-!
# Shared arrays of bindings

A connection refers to the array of its listener until its protocol has been detected. The array
is destroyed with the listener, when that is shut down or another one takes its place, and
nobody tells the connections.

* `step_safe_iff`: which steps leave no reference to a destroyed array.
* `run_safe_iff`: no run comes to read one exactly if all its steps are such.
-/

namespace Serveez.Binding

/-- What can happen next. A socket that is not enqueued does nothing. -/
inductive Op
  | bind (interfaces : List UInt32) (server : Nat) (port : PortCfg)
    (outcomes : Nat → Option UInt16)
  | unbind (server : Nat)
  | accept (sock : Sock)
  | detect (sock : Sock) (localInfo : Option (UInt32 × UInt16)) (found : Option Nat)
  | shutdown (sock : Sock)

def stepState (s : State) : Op → Except Fault State
  | .bind interfaces server port outcomes => svzServerBind s interfaces server port outcomes
  | .unbind server => .ok (serverUnbind s server)
  | .accept sock => .ok (if sock ∈ s.socks ∧ sock.listening = true then accept s sock else s)
  | .detect sock localInfo found =>
    if sock ∈ s.socks ∧ sock.listening = false then detectProto s sock localInfo found else .ok s
  | .shutdown sock => .ok (if sock ∈ s.socks then svzSockShutdown s sock else s)

/-- A fault ends a run. -/
def step (r : Except Fault State) (op : Op) : Except Fault State := r.bind (stepState · op)

def run (ops : List Op) : Except Fault State := ops.foldl step (.ok initial)

/-- No enqueued socket refers to an array that has been destroyed. -/
def Refs (s : State) : Prop :=
  ∀ sock ∈ s.socks, ∀ a, s.allEars sock.id = some a → ∃ bindings, s.arrays a = some bindings

/-- Nor does the filter come across a freed array or binding. -/
structure Readable (s : State) : Prop where
  refs : Refs s
  filter : ∀ sock ∈ s.socks, ∀ localInfo, ∃ bindings,
    svzBindingFilter s sock localInfo = .ok bindings

/-- The only other fault is that `svz_server_bind` reads the configuration of a listener. -/
def Safe : Except Fault State → Prop
  | .ok s => Readable s
  | .error fault => fault = .freedPort

/-- Another enqueued socket refers to the array of a socket. -/
def IsShared (s : State) (sock : Sock) : Prop :=
  ∃ other ∈ s.socks, other.id ≠ sock.id ∧
    ∃ a, s.allEars sock.id = some a ∧ s.allEars other.id = some a

/-- The condition on a step: an array that is destroyed is not shared. -/
def Harmless : Except Fault State → Op → Prop
  | .ok s, .shutdown sock => sock ∈ s.socks → sock.listening = true → ¬ IsShared s sock
  | .ok s, .bind _ _ port _ => (∀ x ∈ s.socks, ¬ Dangling s x) →
    ∀ x ∈ replaced s port, ¬ IsShared s x
  | _, _ => True

variable {s s' : State} {sock : Sock} {server : Nat}

/-! ## References -/

theorem readBindings_ok (h : Sound s) (hrefs : Refs s) (hsock : sock ∈ s.socks) :
    ∃ bindings, readBindings s sock = .ok bindings := by
  unfold readBindings
  cases hears : s.allEars sock.id with
  | none => exact ⟨[], rfl⟩
  | some a =>
    obtain ⟨bindings, ha⟩ := hrefs sock hsock a hears
    refine ⟨bindings, ?_⟩
    dsimp only
    rw [ha]
    refine if_neg ?_
    rw [List.any_eq_true]
    rintro ⟨b, hb, hfreed⟩
    exact (h.live a b ⟨bindings, ha, hb⟩).2 (by simpa using hfreed)

/-- The references are all that matters. -/
theorem readable_iff (h : Sound s) : Readable s ↔ Refs s := by
  refine ⟨fun hr => hr.refs, fun hrefs => ⟨hrefs, fun sock hsock localInfo => ?_⟩⟩
  obtain ⟨bindings, hread⟩ := readBindings_ok h hrefs hsock
  unfold svzBindingFilter
  split
  · exact ⟨bindings, hread⟩
  · cases localInfo with
    | none => exact ⟨[], rfl⟩
    | some info =>
      dsimp only
      rw [hread]
      exact ⟨_, rfl⟩

theorem newArray_refs_iff (h : Sound s) (hnone : s.allEars sock.id = none)
    (bindings : List Bound) : Refs (newArray s sock bindings) ↔ Refs s := by
  have hne : ∀ id a, s.allEars id = some a → id ≠ sock.id ∧ a ≠ s.next := by
    refine fun id a ha => ⟨fun he => ?_, Nat.ne_of_lt (h.earsLt id a ha).2⟩
    rw [he, hnone] at ha
    cases ha
  constructor
  · intro hrefs x hx a ha
    obtain ⟨hid, hnew⟩ := hne x.id a ha
    have harray := hrefs x hx a ((newArray_allEars_of_ne hid bindings).trans ha)
    rwa [newArray_arrays_of_ne hnew] at harray
  · intro hrefs x hx a ha
    by_cases hid : x.id = sock.id
    · rw [hid, newArray_allEars_self, Option.some.injEq] at ha
      exact ⟨bindings, ha ▸ newArray_arrays_self s sock bindings⟩
    · rw [newArray_allEars_of_ne hid] at ha
      rw [newArray_arrays_of_ne (hne x.id a ha).2]
      exact hrefs x hx a ha

theorem addServer_refs_iff (h : Sound s)
    (hself : ∀ a, s.allEars sock.id = some a → ∃ bindings, s.arrays a = some bindings)
    (port : PortRef) : Refs (addServer s sock server port) ↔ Refs s := by
  unfold addServer
  cases hears : s.allEars sock.id with
  | none => exact newArray_refs_iff h hears _
  | some array =>
    dsimp only
    split
    · exact Iff.rfl
    · have hiff : ∀ a, (∃ bindings, Function.update s.arrays array
          (some (bindingsOf s sock ++ [⟨server, port⟩])) a = some bindings) ↔
          ∃ bindings, s.arrays a = some bindings := by
        intro a
        by_cases he : a = array
        · rw [he, Function.update_self]
          exact iff_of_true ⟨_, rfl⟩ (hself array hears)
        · rw [Function.update_of_ne he]
      exact forall₄_congr fun x _ a _ => hiff a

theorem enqueueListener_refs_iff (h : Sound s) (hid : sock.id = s.next) :
    Refs (enqueueListener s sock) ↔ Refs s := by
  constructor
  · exact fun hrefs x hx => hrefs x (List.mem_append_left _ hx)
  · intro hrefs x hx a ha
    rcases List.mem_append.mp hx with hx | hx
    · exact hrefs x hx a ha
    · have ha : s.allEars x.id = some a := ha
      rw [List.mem_singleton.mp hx, hid, h.allEars_next] at ha
      cases ha

theorem merged_refs_iff (h : Sound s) (hrefs : Refs s) {gone : List Sock}
    (hgone : ∀ x ∈ gone, x ∈ s.socks ∧ x.listening = true) (hm : Merged s gone s') :
    Refs s' ↔ ∀ x ∈ gone, ¬ IsShared s x := by
  constructor
  · rintro hrefs' x hx ⟨other, hother, hne, a, hxa, hoa⟩
    have hstays : other.id ∉ gone.map (·.id) := by
      intro hmem
      obtain ⟨y, hy, hid⟩ := List.mem_map.mp hmem
      have hy' := h.eq_of_id (hgone y hy).1 hother hid
      subst hy'
      exact hne (h.own y hother x (hgone x hx).1 (hgone y hy).2 (hgone x hx).2 a hoa hxa)
    have hother' : other ∈ s'.socks := by
      rw [hm.socks, List.mem_filter]
      exact ⟨hother, by simpa using hstays⟩
    obtain ⟨bindings, harray⟩ := hrefs' other hother' a (by rw [hm.allEars, if_neg hstays, hoa])
    rw [hm.arrays, if_pos ⟨x, hx, hxa⟩] at harray
    cases harray
  · intro hshared other hother a ha
    rw [hm.socks, List.mem_filter] at hother
    obtain ⟨hother, hstays⟩ := hother
    have hstays : other.id ∉ gone.map (·.id) := by simpa using hstays
    rw [hm.allEars, if_neg hstays] at ha
    rw [hm.arrays, if_neg]
    · exact hrefs other hother a ha
    · rintro ⟨x, hx, hxa⟩
      refine hshared x hx ⟨other, hother, fun hid => hstays ?_, a, hxa, ha⟩
      exact hid ▸ List.mem_map_of_mem hx

/-! ## Binding a server -/

section Bind

variable {copy : PortRef} {outcome : Option UInt16}

/-- A listener for a new configuration gets its first binding. -/
theorem create_sound (h : Sound s) (hlt : copy.addr < s.next) (hlive : copy.addr ∉ s.freed)
    (hfree : ∀ a b, Holds s a b → b.port.addr ≠ copy.addr) (outcome : Option UInt16) :
    Sound (create s server copy outcome) ∧ (Refs (create s server copy outcome) ↔ Refs s) := by
  cases outcome with
  | none =>
    refine ⟨freePorts_sound h fun b hb => ?_, Iff.rfl⟩
    rw [List.mem_singleton.mp hb]
    exact ⟨hlt, hfree⟩
  | some chosen =>
    generalize hsock : newListener s copy chosen = sock
    have hid : sock.id = s.next := hsock ▸ rfl
    have hcreate : create s server copy (some chosen) = addServer (enqueueListener s sock) sock
        server ⟨copy.addr, serverCreated copy.cfg chosen⟩ := by
      rw [← hsock]
      rfl
    have hwf := enqueueListener_sound h hid
    have hnone : (enqueueListener s sock).allEars sock.id = none := by
      rw [hid]
      exact h.allEars_next
    rw [hcreate, addServer_refs_iff hwf (by simp [hnone]), enqueueListener_refs_iff h hid]
    exact ⟨addServer_sound hwf (List.mem_append_right _ (List.mem_singleton_self _))
      (Nat.lt_succ_of_lt hlt) hlive hfree, Iff.rfl⟩

/-- What is left after a merge is older than the merge. -/
theorem merged_below (h : Sound s) {gone : List Sock} (hm : Merged (takeBlock s) gone s') :
    (∀ p ∈ s'.freed, p < s.next) ∧ ∀ a b, Holds s' a b → b.port.addr < s.next := by
  refine ⟨fun p hp => ?_, ?_⟩
  · rcases (hm.freed p).mp hp with hold | ⟨x, -, b, hb, rfl⟩
    · exact h.freedLt p hold
    · cases hears : s.allEars x.id with
      | none => simp [bindingsOf, takeBlock, hears] at hb
      | some a => exact (h.live a b ((holds_of_mem_bindingsOf hears).mp hb)).1
  · rintro a b ⟨bindings, ha, hb⟩
    rw [hm.arrays] at ha
    split at ha
    · cases ha
    · exact (h.live a b ⟨bindings, ha, hb⟩).1

/-- A listener in place of those merged gets their bindings and one more. -/
theorem replace_sound (h : Sound s) {gone : List Sock} (hm : Merged (takeBlock s) gone s')
    {bindings : List Bound} (hj : JoinedAll (takeBlock s) [] gone s'.next bindings)
    (port : PortCfg) (outcome : Option UInt16) :
    Sound (replace s' bindings server ⟨s.next, port⟩ outcome) ∧
      (Refs (replace s' bindings server ⟨s.next, port⟩ outcome) ↔ Refs s') := by
  have hs' := merged_sound (takeBlock_sound h) hm
  obtain ⟨hfreed, hheld⟩ := merged_below h hm
  have hown : OwnPorts s'.next bindings := hj.ports ⟨by simp, by simp⟩
  have hnew : ∀ b ∈ bindings, s.next < b.port.addr := by
    intro b hb
    rcases hj.origin b hb with hnil | ⟨⟨hge, -⟩, -⟩
    · cases hnil
    · exact hge
  have hfresh : ∀ p, s.next ≤ p → p ∉ s'.freed ∧ ∀ a b, Holds s' a b → b.port.addr ≠ p :=
    fun p hp => ⟨fun hf => absurd (hfreed p hf) (Nat.not_lt.mpr hp),
      fun a b hb he => absurd (he ▸ hheld a b hb) (Nat.not_lt.mpr hp)⟩
  cases outcome with
  | none =>
    refine ⟨freePorts_sound hs' fun b hb => ?_, Iff.rfl⟩
    rcases List.mem_cons.mp hb with rfl | hb
    · exact ⟨hm.le, (hfresh s.next (Nat.le_refl _)).2⟩
    · exact ⟨hown.1 b hb, (hfresh _ (Nat.le_of_lt (hnew b hb))).2⟩
  | some chosen =>
    rw [replace_some_eq]
    generalize hsock : newListener s' ⟨s.next, port⟩ chosen = sock
    have hid : sock.id = s'.next := hsock ▸ rfl
    have hmem : sock ∈ (enqueueListener s' sock).socks :=
      List.mem_append_right _ (List.mem_singleton_self _)
    have hs₁ := enqueueListener_sound hs' hid
    have hnone : (enqueueListener s' sock).allEars sock.id = none := by
      rw [hid]
      exact hs'.allEars_next
    have hs₂ : Sound (newArray (enqueueListener s' sock) sock bindings) :=
      newArray_sound hs₁ hmem ⟨fun b hb => Nat.lt_succ_of_lt (hown.1 b hb), hown.2⟩
        fun b hb => hfresh _ (Nat.le_of_lt (hnew b hb))
    have hfree : ∀ a b, Holds (newArray (enqueueListener s' sock) sock bindings) a b →
        b.port.addr ≠ s.next := by
      rintro a b ⟨array, ha, hb⟩
      by_cases he : a = (enqueueListener s' sock).next
      · rw [he, newArray_arrays_self, Option.some.injEq] at ha
        exact Nat.ne_of_gt (hnew b (ha ▸ hb))
      · rw [newArray_arrays_of_ne he] at ha
        exact (hfresh s.next (Nat.le_refl _)).2 a b ⟨array, ha, hb⟩
    have hself : ∀ a, (newArray (enqueueListener s' sock) sock bindings).allEars sock.id = some a →
        ∃ array, (newArray (enqueueListener s' sock) sock bindings).arrays a = some array := by
      intro a ha
      rw [newArray_allEars_self, Option.some.injEq] at ha
      exact ⟨bindings, ha ▸ newArray_arrays_self _ _ _⟩
    rw [addServer_refs_iff hs₂ hself, newArray_refs_iff hs₁ hnone, enqueueListener_refs_iff hs' hid]
    exact ⟨addServer_sound hs₂ hmem (Nat.lt_succ_of_lt (Nat.lt_succ_of_lt hm.le))
      (hfresh s.next (Nat.le_refl _)).1 hfree, Iff.rfl⟩

/-- One round: the state stays sound, and a round that replaces no listener safe. -/
theorem bindCopy_sound (h : Sound s) (port copy : PortCfg) (outcome : Option UInt16) :
    (∀ s', bindCopy s server port copy outcome = .ok s' → Sound s') ∧
      (Refs s → (∀ sock, s.socks.find? (isMatch copy) = some sock →
        (copy.any && !hasAny sock) = false) → Safe (bindCopy s server port copy outcome)) := by
  have hs := takeBlock_sound h
  obtain ⟨hlive, hfree⟩ := h.fresh (Nat.le_refl s.next)
  rcases bindCopy_cases s server port copy outcome with
    ⟨heq, -⟩ | ⟨-, heq⟩ | ⟨sock, hfind, -, heq⟩ | ⟨sock, hfind, hmerge, -, heq⟩
  · rw [heq]
    exact ⟨fun _ he => (nomatch he), fun _ _ => rfl⟩
  · have hcreate : Sound (create (takeBlock s) server ⟨s.next, copy⟩ outcome) ∧
        (Refs (create (takeBlock s) server ⟨s.next, copy⟩ outcome) ↔ Refs (takeBlock s)) := by
      refine create_sound hs (Nat.lt_succ_self _) hlive ?_ outcome
      exact hfree
    obtain ⟨hsound, hiff⟩ := hcreate
    rw [heq]
    exact ⟨fun s' he => Except.ok.inj he ▸ hsound,
      fun hrefs _ => (readable_iff hsound).mpr (hiff.mpr hrefs)⟩
  · have hsock := List.mem_of_find?_eq_some hfind
    have hsound : Sound (addServer (takeBlock s) sock server ⟨s.next, copy⟩) :=
      addServer_sound hs hsock (Nat.lt_succ_self _) hlive hfree
    rw [heq]
    refine ⟨fun s' he => Except.ok.inj he ▸ hsound, fun hrefs _ => (readable_iff hsound).mpr ?_⟩
    exact (addServer_refs_iff hs (hrefs sock hsock) _).mpr hrefs
  · have hm := mergeLoop_state (takeBlock s) [] (s.socks.filter (isMatch port))
    have hj := mergeLoop_bindings (takeBlock s) [] (s.socks.filter (isMatch port))
    rw [heq]
    refine ⟨fun s' he => Except.ok.inj he ▸ (replace_sound h hm hj copy outcome).1,
      fun _ hkeep => ?_⟩
    exact absurd (hkeep sock hfind) (by simp [hmerge])

theorem svzServerBind_sound (h : Sound s) (interfaces : List UInt32) (port : PortCfg)
    (outcomes : Nat → Option UInt16) :
    ∀ s', svzServerBind s interfaces server port outcomes = .ok s' → Sound s' := by
  refine bindLoop_invariant (fun r => ∀ s', r = .ok s' → Sound s') ?_ 0 ?_
  · exact fun s₁ n copy _ hs₁ => (bindCopy_sound (hs₁ s₁ rfl) port copy (outcomes n)).1
  · exact fun s' he => Except.ok.inj he ▸ h

/-- A call is safe exactly if no listener that it replaces shares its array. -/
theorem svzServerBind_safe_iff (h : Sound s) (hrefs : Refs s) (interfaces : List UInt32)
    (server : Nat) (port : PortCfg) (outcomes : Nat → Option UInt16) :
    Safe (svzServerBind s interfaces server port outcomes) ↔
      Harmless (.ok s) (.bind interfaces server port outcomes) := by
  -- where nothing is replaced there is nothing to ask for
  have hnothing : replaced s port = [] →
      Harmless (.ok s) (.bind interfaces server port outcomes) := by
    intro hnil _ x hx
    rw [hnil] at hx
    cases hx
  cases hany : port.any with
  | false =>
    have hsafe : Safe (svzServerBind s interfaces server port outcomes) ∧
        ∀ s', svzServerBind s interfaces server port outcomes = .ok s' → Sound s' := by
      refine bindLoop_invariant (fun r => Safe r ∧ ∀ s', r = .ok s' → Sound s') ?_ 0
        ⟨(readable_iff h).mpr hrefs, fun s' he => Except.ok.inj he ▸ h⟩
      rintro s₁ n copy hcopy ⟨hsafe, hsound⟩
      obtain ⟨hkept, hround⟩ := bindCopy_sound (hsound s₁ rfl) port copy (outcomes n)
      refine ⟨hround hsafe.refs fun sock _ => ?_, hkept⟩
      simp [any_of_mem_expand hany hcopy]
    refine iff_of_true hsafe.1 (hnothing (replaced_eq_nil fun sock _ => ?_))
    simp [hany]
  | true =>
    rw [svzServerBind_any hany]
    rcases bindCopy_keep_or_merge s server port (outcomes 0) with
      ⟨heq, x, hx, hd⟩ | hkeep | ⟨sock, hfind, hmerge, hlive, heq⟩
    · rw [heq]
      exact iff_of_true rfl fun hlive => absurd hd (hlive x hx)
    · exact iff_of_true ((bindCopy_sound h port port (outcomes 0)).2 hrefs hkeep)
        (hnothing (replaced_eq_nil hkeep))
    · have hm := mergeLoop_state (takeBlock s) [] (s.socks.filter (isMatch port))
      have hj := mergeLoop_bindings (takeBlock s) [] (s.socks.filter (isMatch port))
      have hgone : ∀ x ∈ s.socks.filter (isMatch port), x ∈ s.socks ∧ x.listening = true := by
        intro x hx
        obtain ⟨hx, hmatch⟩ := List.mem_filter.mp hx
        exact ⟨hx, (Bool.and_eq_true_iff.mp hmatch).1⟩
      rw [heq]
      obtain ⟨hsound, hiff⟩ := replace_sound h hm hj port (outcomes 0)
      refine (readable_iff hsound).trans (hiff.trans ?_)
      rw [merged_refs_iff (takeBlock_sound h) hrefs hgone hm, ← replaced_eq hfind hmerge]
      exact ⟨fun hshared _ => hshared, fun hharm => hharm hlive⟩

end Bind

/-! ## The other operations -/

theorem serverUnbind_safe (hrefs : Refs s) (server : Nat) :
    Refs (serverUnbind s server) := by
  refine Lib.foldl_invariant (zonkServer server) Refs (fun s sock hrefs => ?_) (listeners s) s hrefs
  unfold zonkServer
  split
  · exact hrefs
  · rename_i array hears
    intro x hx a ha
    obtain ⟨bindings, harray⟩ := hrefs x hx a ha
    by_cases he : a = array
    · subst he
      exact ⟨_, Function.update_self _ _ _⟩
    · exact ⟨bindings, (Function.update_of_ne he _ _).trans harray⟩

theorem accept_safe (h : Sound s) (hrefs : Refs s) (hsock : sock ∈ s.socks) :
    Refs (accept s sock) := by
  intro x hx a ha
  have ha : Function.update s.allEars s.next (s.allEars sock.id) x.id = some a := ha
  rcases List.mem_append.mp hx with hx | hx
  · rw [Function.update_of_ne (Nat.ne_of_lt (h.idLt x hx))] at ha
    exact hrefs x hx a ha
  · rw [List.mem_singleton.mp hx, Function.update_self] at ha
    exact hrefs sock hsock a ha

/-- What protocol detection does: it fails with the filter, or the connection gives up its
array, or nothing happens. -/
theorem detectProto_cases (s : State) (sock : Sock) (localInfo : Option (UInt32 × UInt16))
    (found : Option Nat) :
    (∃ fault, svzBindingFilter s sock localInfo = .error fault ∧
      detectProto s sock localInfo found = .error fault) ∨
    detectProto s sock localInfo found = .ok s ∨
    ∃ own, detectProto s sock localInfo found = .ok { s with
      allEars := Function.update s.allEars sock.id none
      socks := s.socks.map fun other =>
        if other.id = sock.id then { other with port := some own } else other } := by
  unfold detectProto
  split
  · exact Or.inr (Or.inl rfl)
  · cases svzBindingFilter s sock localInfo with
    | error fault => exact Or.inl ⟨fault, rfl, rfl⟩
    | ok bindings =>
      dsimp only [Except.map]
      split
      · exact Or.inr (Or.inl rfl)
      · rename_i binding _
        exact Or.inr (Or.inr ⟨binding.port, rfl⟩)

theorem unshare_safe (hrefs : Refs s) (id : Nat) (own : PortRef) :
    Refs { s with
      allEars := Function.update s.allEars id none
      socks := s.socks.map fun other =>
        if other.id = id then { other with port := some own } else other } := by
  intro y hy a ha
  obtain ⟨x, hx, rfl⟩ := List.mem_map.mp hy
  have hid : (if x.id = id then { x with port := some own } else x).id = x.id := by
    split <;> rfl
  rw [hid] at ha
  have ha : Function.update s.allEars id none x.id = some a := ha
  by_cases he : x.id = id
  · rw [he, Function.update_self] at ha
    cases ha
  · rw [Function.update_of_ne he] at ha
    exact hrefs x hx a ha

theorem svzSockShutdown_refs_iff (h : Sound s) (hrefs : Refs s) (hsock : sock ∈ s.socks) :
    Refs (svzSockShutdown s sock) ↔ (sock.listening = true → ¬ IsShared s sock) := by
  cases hlistening : sock.listening with
  | true =>
    have hgone : ∀ x ∈ [sock], x ∈ s.socks ∧ x.listening = true := by
      intro x hx
      rw [List.mem_singleton.mp hx]
      exact ⟨hsock, hlistening⟩
    rw [merged_refs_iff h hrefs hgone (svzSockShutdown_merged hlistening)]
    simp
  | false =>
    refine iff_of_true (fun x hx => ?_) (by simp)
    rw [svzSockShutdown_connection hlistening] at hx ⊢
    exact hrefs x (List.mem_of_mem_filter hx)

/-! ## Runs -/

theorem step_sound (h : Sound s) (op : Op) :
    ∀ s', stepState s op = .ok s' → Sound s' := by
  intro s' hok
  cases op with
  | bind interfaces server port outcomes =>
    exact svzServerBind_sound h interfaces port outcomes s' hok
  | unbind server => exact Except.ok.inj hok ▸ serverUnbind_sound h server
  | accept sock =>
    rw [← Except.ok.inj hok]
    split
    · exact accept_sound h sock
    · exact h
  | detect sock localInfo found =>
    rw [stepState] at hok
    split at hok
    · rcases detectProto_cases s sock localInfo found with ⟨fault, -, heq⟩ | heq | ⟨own, heq⟩
      · cases heq.symm.trans hok
      · exact Except.ok.inj (heq.symm.trans hok) ▸ h
      · exact Except.ok.inj (heq.symm.trans hok) ▸ unshare_sound h sock.id own
    · exact Except.ok.inj hok ▸ h
  | shutdown sock =>
    rw [← Except.ok.inj hok]
    split
    · exact svzSockShutdown_sound h sock
    · exact h

theorem step_safe_iff (h : Sound s) (hr : Readable s) (op : Op) :
    Safe (stepState s op) ↔ Harmless (.ok s) op := by
  -- what does not fault is as safe as its references
  have hok : ∀ s', stepState s op = .ok s' → (Safe (stepState s op) ↔ Refs s') := by
    intro s' hs'
    have hsound := step_sound h op s' hs'
    rw [hs']
    exact readable_iff hsound
  cases op with
  | bind interfaces server port outcomes =>
    exact svzServerBind_safe_iff h hr.refs interfaces server port outcomes
  | unbind server =>
    exact iff_of_true ((hok _ rfl).mpr (serverUnbind_safe hr.refs server)) trivial
  | accept sock =>
    refine iff_of_true ((hok _ rfl).mpr ?_) trivial
    split
    · rename_i hsock
      exact accept_safe h hr.refs hsock.1
    · exact hr.refs
  | detect sock localInfo found =>
    refine iff_of_true ?_ trivial
    by_cases hsock : sock ∈ s.socks ∧ sock.listening = false
    · have hstep : stepState s (.detect sock localInfo found) =
          detectProto s sock localInfo found := if_pos hsock
      rcases detectProto_cases s sock localInfo found with ⟨fault, hfilter, -⟩ | heq | ⟨own, heq⟩
      · obtain ⟨bindings, hread⟩ := hr.filter sock hsock.1 localInfo
        cases hfilter.symm.trans hread
      · exact (hok _ (hstep.trans heq)).mpr hr.refs
      · exact (hok _ (hstep.trans heq)).mpr (unshare_safe hr.refs sock.id own)
    · exact (hok _ (if_neg hsock)).mpr hr.refs
  | shutdown sock =>
    by_cases hsock : sock ∈ s.socks
    · have hstep : stepState s (.shutdown sock) = .ok (svzSockShutdown s sock) :=
        congrArg _ (if_pos hsock)
      rw [hok _ hstep, svzSockShutdown_refs_iff h hr.refs hsock]
      exact ⟨fun hshared _ => hshared, fun hharm => hharm hsock⟩
    · have hstep : stepState s (.shutdown sock) = .ok s := congrArg _ (if_neg hsock)
      exact iff_of_true ((hok _ hstep).mpr hr.refs) fun hmem => absurd hmem hsock

theorem initial_sound : Sound initial := by
  refine ⟨⟨?_, ?_, ?_, ?_⟩, ?_, ?_, ?_, ?_⟩ <;> simp [initial, Holds]

/-- No socket refers to a destroyed array, and no filter reads one, all through a run exactly if
no array is destroyed in it that another socket shares. -/
theorem run_safe_iff (ops : List Op) :
    (∀ pre, pre <+: ops → Safe (run pre)) ↔
      ∀ pre op, pre ++ [op] <+: ops → Harmless (run pre) op := by
  have hsafe : Safe (.ok initial) :=
    (readable_iff initial_sound).mpr fun sock hsock => absurd hsock List.not_mem_nil
  refine Lib.forall_prefix_iff_of_aux step (fun r => ∀ s, r = .ok s → Sound s) Safe Harmless
    (fun s he => Except.ok.inj he ▸ initial_sound) hsafe ?_ ?_
  · intro pre op _ hsound hr hnext
    cases hrun : pre.foldl step (.ok initial) with
    | error fault => exact trivial
    | ok s =>
      rw [hrun] at hsound hr hnext
      exact (step_safe_iff (hsound s rfl) hr op).mp hnext
  · intro pre op _ hsound hr hharm
    cases hrun : pre.foldl step (.ok initial) with
    | error fault =>
      rw [hrun] at hr
      exact ⟨fun s he => (nomatch he), hr⟩
    | ok s =>
      rw [hrun] at hsound hr hharm
      exact ⟨step_sound (hsound s rfl) op, (step_safe_iff (hsound s rfl) hr op).mpr hharm⟩

/-- A client of a listener sends its first bytes after another listener took its place. -/
def replacedWhileDetecting : List Op :=
  [.bind [] 1 oneAddress (fun _ => some 80),
   .accept ⟨1, true, some ⟨0, oneAddress⟩, .tcp⟩,
   .bind [] 2 anyAddress (fun _ => some 80),
   .detect ⟨3, false, none, .tcp⟩ (some (0x0a000001, 80)) none]

theorem not_safe_replacedWhileDetecting :
    run replacedWhileDetecting = .error .freedArray ∧ ¬ Safe (run replacedWhileDetecting) := by
  have hrun : run replacedWhileDetecting = .error .freedArray := rfl
  refine ⟨hrun, fun hsafe => ?_⟩
  rw [hrun] at hsafe
  cases hsafe

end Serveez.Binding
