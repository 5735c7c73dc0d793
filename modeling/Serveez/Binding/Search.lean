import Serveez.Binding.Listeners

/-!
# Finding the listeners of a port configuration

* `socketWithPortcfg_cases`, `socketsWithPortcfg_cases`: the two searches find what there is,
  unless they come across a listener whose port configuration has been freed.
* `bindCopy_cases`: the ways through one round of `svz_server_bind`.
* `svzServerBind_any`, `bindLoop_invariant`: the rounds together.
-/

namespace Serveez.Binding

variable {s : State} {server : Nat} {port copy : PortCfg} {outcome : Option UInt16}

def isMatch (port : PortCfg) (sock : Sock) : Bool :=
  sock.listening && sock.port.any (matchingOrEqual ·.cfg port)

/-- A listener whose port configuration has been freed. -/
def Dangling (s : State) (sock : Sock) : Prop :=
  sock.listening = true ∧ ∃ own, sock.port = some own ∧ own.addr ∈ s.freed

theorem mem_listeners {sock : Sock} :
    sock ∈ listeners s ↔ sock ∈ s.socks ∧ sock.listening = true ∧ ∃ own, sock.port = some own := by
  simp [listeners, Option.isSome_iff_exists]

theorem mem_listeners_of_isMatch {sock : Sock} (hsock : sock ∈ s.socks)
    (h : isMatch port sock = true) : sock ∈ listeners s := by
  obtain ⟨hlistening, hport⟩ := Bool.and_eq_true_iff.mp h
  cases hown : sock.port with
  | none => simp [hown] at hport
  | some own => exact mem_listeners.mpr ⟨hsock, hlistening, own, hown⟩

theorem socketWithPortcfg_cases (s : State) (port : PortCfg) (socks : List Sock) :
    socketWithPortcfg s port socks = .ok (socks.find? (isMatch port)) ∨
      socketWithPortcfg s port socks = .error .freedPort ∧ ∃ sock ∈ socks, Dangling s sock := by
  induction socks with
  | nil => exact Or.inl rfl
  | cons sock socks ih =>
    have hskip : isMatch port sock = false →
        socketWithPortcfg s port (sock :: socks) = socketWithPortcfg s port socks →
        socketWithPortcfg s port (sock :: socks) =
            .ok ((sock :: socks).find? (isMatch port)) ∨
          socketWithPortcfg s port (sock :: socks) = .error .freedPort ∧
            ∃ other ∈ sock :: socks, Dangling s other := by
      intro hno heq
      rw [heq, List.find?_cons_of_neg (by simp [hno])]
      rcases ih with hok | ⟨herr, other, hmem, hother⟩
      · exact Or.inl hok
      · exact Or.inr ⟨herr, other, List.mem_cons_of_mem _ hmem, hother⟩
    cases hlistening : sock.listening with
    | false =>
      exact hskip (by simp [isMatch, hlistening]) (by simp [socketWithPortcfg, hlistening])
    | true =>
      cases hport : sock.port with
      | none => exact hskip (by simp [isMatch, hport]) (by simp [socketWithPortcfg, hport])
      | some own =>
        by_cases hfreed : own.addr ∈ s.freed
        · right
          refine ⟨?_, sock, List.mem_cons_self, hlistening, own, hport, hfreed⟩
          simp [socketWithPortcfg, hlistening, hport, hfreed]
        · by_cases hmatch : matchingOrEqual own.cfg port = true
          · left
            rw [List.find?_cons_of_pos (by simp [isMatch, hlistening, hport, hmatch])]
            simp [socketWithPortcfg, hlistening, hport, hfreed, hmatch]
          · exact hskip (by simp [isMatch, hport, hmatch])
              (by simp [socketWithPortcfg, hlistening, hport, hfreed, hmatch])

theorem socketsWithPortcfg_cases (s : State) (port : PortCfg) (socks : List Sock) :
    socketsWithPortcfg s port socks = .ok (socks.filter (isMatch port)) ∧
        (∀ sock ∈ socks, ¬ Dangling s sock) ∨
      socketsWithPortcfg s port socks = .error .freedPort ∧ ∃ sock ∈ socks, Dangling s sock := by
  induction socks with
  | nil => exact Or.inl ⟨rfl, by simp⟩
  | cons sock socks ih =>
    by_cases hdangling : Dangling s sock
    · right
      obtain ⟨hlistening, own, hport, hfreed⟩ := hdangling
      refine ⟨?_, sock, List.mem_cons_self, hlistening, own, hport, hfreed⟩
      simp [socketsWithPortcfg, hlistening, hport, hfreed]
    · have heq : socketsWithPortcfg s port (sock :: socks) =
          (socketsWithPortcfg s port socks).map fun found =>
            if isMatch port sock then sock :: found else found := by
        have hid : ∀ r : Except Fault (List Sock), r.map (fun found => found) = r := by
          intro r
          cases r <;> rfl
        cases hlistening : sock.listening with
        | false => simp [socketsWithPortcfg, isMatch, hlistening, hid]
        | true =>
          cases hport : sock.port with
          | none => simp [socketsWithPortcfg, isMatch, hport, hid]
          | some own =>
            have hlive : own.addr ∉ s.freed := fun hf => hdangling ⟨hlistening, own, hport, hf⟩
            simp [socketsWithPortcfg, isMatch, hlistening, hport, hlive]
      rcases ih with ⟨hok, hall⟩ | ⟨herr, other, hmem, hother⟩
      · left
        rw [heq, hok, List.filter_cons]
        refine ⟨rfl, fun other hmem => ?_⟩
        rcases List.mem_cons.mp hmem with rfl | hmem
        · exact hdangling
        · exact hall other hmem
      · right
        rw [heq, herr]
        exact ⟨rfl, other, List.mem_cons_of_mem _ hmem, hother⟩

/-- The ways through one round: a freed configuration, a new listener, one more binding, or
one listener in place of others. -/
theorem bindCopy_cases (s : State) (server : Nat) (port copy : PortCfg)
    (outcome : Option UInt16) :
    (bindCopy s server port copy outcome = .error .freedPort ∧ ∃ x ∈ s.socks, Dangling s x) ∨
    (s.socks.find? (isMatch copy) = none ∧
      bindCopy s server port copy outcome =
        .ok (create (takeBlock s) server ⟨s.next, copy⟩ outcome)) ∨
    (∃ sock, s.socks.find? (isMatch copy) = some sock ∧ (copy.any && !hasAny sock) = false ∧
      bindCopy s server port copy outcome =
        .ok (addServer (takeBlock s) sock server ⟨s.next, copy⟩)) ∨
    (∃ sock, s.socks.find? (isMatch copy) = some sock ∧ (copy.any && !hasAny sock) = true ∧
      (∀ x ∈ s.socks, ¬ Dangling s x) ∧
      bindCopy s server port copy outcome =
        .ok (replace (mergeLoop (takeBlock s) [] (s.socks.filter (isMatch port))).1
          (mergeLoop (takeBlock s) [] (s.socks.filter (isMatch port))).2 server ⟨s.next, copy⟩
          outcome)) := by
  unfold bindCopy
  rcases socketWithPortcfg_cases s copy s.socks with hok | ⟨herr, x, hx, hd⟩
  · rw [hok]
    cases hfind : s.socks.find? (isMatch copy) with
    | none => exact Or.inr (Or.inl ⟨rfl, rfl⟩)
    | some sock =>
      dsimp only
      cases hmerge : (copy.any && !hasAny sock) with
      | false => exact Or.inr (Or.inr (Or.inl ⟨sock, rfl, hmerge, rfl⟩))
      | true =>
        rw [if_pos rfl]
        rcases socketsWithPortcfg_cases s port s.socks with ⟨hall, hlive⟩ | ⟨herr, hd⟩
        · rw [hall]
          exact Or.inr (Or.inr (Or.inr ⟨sock, rfl, hmerge, hlive, rfl⟩))
        · rw [herr]
          exact Or.inl ⟨rfl, hd⟩
  · rw [herr]
    exact Or.inl ⟨rfl, x, hx, hd⟩

/-- The same with the two ways that replace nothing taken together. -/
theorem bindCopy_keep_or_merge (s : State) (server : Nat) (port : PortCfg)
    (outcome : Option UInt16) :
    (bindCopy s server port port outcome = .error .freedPort ∧ ∃ x ∈ s.socks, Dangling s x) ∨
    (∀ sock, s.socks.find? (isMatch port) = some sock → (port.any && !hasAny sock) = false) ∨
    (∃ sock, s.socks.find? (isMatch port) = some sock ∧ (port.any && !hasAny sock) = true ∧
      (∀ x ∈ s.socks, ¬ Dangling s x) ∧
      bindCopy s server port port outcome =
        .ok (replace (mergeLoop (takeBlock s) [] (s.socks.filter (isMatch port))).1
          (mergeLoop (takeBlock s) [] (s.socks.filter (isMatch port))).2 server ⟨s.next, port⟩
          outcome)) := by
  rcases bindCopy_cases s server port port outcome with
    herr | ⟨hfind, -⟩ | ⟨sock, hfind, hkeep, -⟩ | hmerge
  · exact Or.inl herr
  · refine Or.inr (Or.inl fun sock hsock => ?_)
    rw [hfind] at hsock
    cases hsock
  · refine Or.inr (Or.inl fun other hother => ?_)
    rw [hfind] at hother
    cases hother
    exact hkeep
  · exact Or.inr (Or.inr hmerge)

theorem bindLoop_invariant (Q : Except Fault State → Prop) {outcomes : Nat → Option UInt16}
    {copies : List PortCfg}
    (hstep : ∀ s n copy, copy ∈ copies → Q (.ok s) → Q (bindCopy s server port copy (outcomes n)))
    (n : Nat) (hs : Q (.ok s)) : Q (bindLoop server port outcomes n copies s) := by
  induction copies generalizing n s with
  | nil => exact hs
  | cons copy copies ih =>
    have hfirst := hstep s n copy List.mem_cons_self hs
    rw [bindLoop]
    cases hround : bindCopy s server port copy (outcomes n) with
    | error fault =>
      rw [hround] at hfirst
      exact hfirst
    | ok s' =>
      rw [hround] at hfirst
      exact ih (fun s n c hc => hstep s n c (List.mem_cons_of_mem _ hc)) (n + 1) hfirst

/-- A configuration for any address is bound in one round. -/
theorem svzServerBind_any (hany : port.any = true) (interfaces : List UInt32)
    (outcomes : Nat → Option UInt16) :
    svzServerBind s interfaces server port outcomes =
      bindCopy s server port port (outcomes 0) := by
  have hall : port.all = false := by
    have hflags := port.exclusive
    rwa [hany, Bool.true_and] at hflags
  have hexpand : svzPortcfgExpand interfaces port = [port] := by
    simp [svzPortcfgExpand, hall]
  rw [svzServerBind, hexpand, bindLoop]
  cases bindCopy s server port port (outcomes 0) <;> rfl

/-- The configurations that another one is expanded to are not for any address either. -/
theorem any_of_mem_expand {interfaces : List UInt32} (hany : port.any = false)
    (hcopy : copy ∈ svzPortcfgExpand interfaces port) : copy.any = false := by
  unfold svzPortcfgExpand at hcopy
  split at hcopy
  · obtain ⟨addr, -, rfl⟩ := List.mem_map.mp hcopy
    exact hany
  · cases List.mem_singleton.mp hcopy
    exact hany

end Serveez.Binding
