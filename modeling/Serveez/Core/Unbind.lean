import Serveez.Core.Children
import Serveez.Data.SvzArray
import Serveez.Binding.Listeners
import Mathlib.Data.List.ReduceOption

/-!
# Unbinding a server

`server_unbind` goes through the list of sockets twice. The bindings of a listener are in an array,
which other sockets may share; it is swept while it is iterated. The array of an enqueued socket is
live, and has no `NULL` in it.

* `zonk_spec`, `zonkServer_simulates`: the array of a listener afterwards.
* `clients_spec`, `listeners_spec`: what the two loops come to.
* `serverUnbind_spec`: the bindings and the sockets that are killed, when both are through.
-/

namespace Serveez.Core

open Lib Data
open Binding (Bound)

/-- `svz_array_t *` of bindings. -/
structure Bindings where
  array : SvzArray Bound
  size : svzArraySize array < 2 ^ 64
  bound : none ∉ array.data

structure Served where
  family : Family
  /-- The socket has a port configuration. -/
  port : Addr → Bool
  allEars : Addr → Option Nat
  arrays : Nat → Bindings

/-- `binding->server == server` -/
def isBound (server : Nat) (binding : Option Bound) : Bool := binding.any (·.server = server)

/-- The loop over the array. -/
def zonk (server : Nat) (bindings : Bindings) : Except Fault Bindings :=
  match h : foreachDel (isBound server) (svzArraySize bindings.array + 1) 0 bindings.array [] with
  | .ok result =>
    have hresult : result.1 = { bindings.array with
        data := bindings.array.data.filter (!isBound server ·) } := by
      rw [foreachDel_eq bindings.size] at h
      exact (congrArg Prod.fst (Except.ok.inj h)).symm
    .ok
      { array := result.1
        size := by
          rw [hresult]
          exact Nat.lt_of_le_of_lt (List.length_filter_le _ _) bindings.size
        bound := by
          rw [hresult]
          exact fun hnone => bindings.bound (List.mem_of_mem_filter hnone) }
  | .error _ => .error .endlessLoop

/-- The socket has the remaining number of servers. -/
def svzSockBindingsZonkServer (s : Served) (sock : Addr) (server : Nat) :
    Except Fault (Served × Nat) :=
  match s.allEars sock with
  | none => .ok (s, 0)
  | some a => do
    let bindings ← zonk server (s.arrays a)
    return ({ s with arrays := Function.update s.arrays a bindings }, svzArraySize bindings.array)

def svzBindingContainsServer (s : Served) (sock : Addr) (server : Nat) : Bool :=
  (s.allEars sock).any fun a => (s.arrays a).array.data.any (isBound server)

def schedule (s : Served) (sock : Addr) : Except Fault Served := do
  let killed ← svzSockScheduleForShutdown s.family sock
  return { s with family := { s.family with killed } }

/-- The body of the first loop. -/
def unbindClient (server : Nat) (s : Served) (sock : Addr) : Except Fault Served := do
  let client ← s.family.core.load sock
  if client.attrs.flags.listening then return s
  match ← svzSockGetparent s.family sock with
  | none => return s
  | some parent =>
    let p ← s.family.core.load parent
    if p.attrs.flags.listening && s.port parent && (s.allEars parent).isSome &&
        svzBindingContainsServer s parent server then schedule s sock
    else return s

/-- The body of the second loop. -/
def unbindListener (server : Nat) (s : Served) (sock : Addr) : Except Fault Served := do
  let listener ← s.family.core.load sock
  if listener.attrs.flags.listening && s.port sock then
    let (s, size) ← svzSockBindingsZonkServer s sock server
    if size = 0 then schedule s sock else return s
  else return s

/-- `server_unbind` -/
def serverUnbind (s : Served) (server : Nat) : Except Fault Served := do
  let s ← svzSockForeach s.family.core (unbindClient server) (s.family.core.sockLimit + 1) s
    s.family.core.svzSockRoot
  svzSockForeach s.family.core (unbindListener server) (s.family.core.sockLimit + 1) s
    s.family.core.svzSockRoot

/-! ## What is unbound -/

/-- The bindings of a socket. -/
def bindingsOf (s : Served) (sock : Addr) : List Bound :=
  (s.allEars sock).elim [] fun a => (s.arrays a).array.data.reduceOption

def Listening (s : Served) (sock : Addr) : Prop :=
  (∃ t, s.family.core.heap sock = some t ∧ t.attrs.flags.listening = true) ∧ s.port sock = true

/-- A client of a listener that the server is bound to. -/
def ClientOf (s : Served) (l : List Addr) (server : Nat) (sock : Addr) : Prop :=
  sock ∈ l ∧ (∃ t, s.family.core.heap sock = some t ∧ t.attrs.flags.listening = false) ∧
    ∃ parent, svzSockGetparent s.family sock = .ok (some parent) ∧ Listening s parent ∧
      ∃ b ∈ bindingsOf s parent, b.server = server

/-- A listener without another server. -/
def Bereft (s : Served) (server : Nat) (sock : Addr) : Prop :=
  Listening s sock ∧ ∀ b ∈ bindingsOf s sock, b.server = server

/-- The bindings are those of the other servers, and the sockets that are killed are the clients,
the listeners that are left without a server, and what can be reached from these. -/
structure Unbound (l : List Addr) (server : Nat) (s s' : Served) : Prop where
  core : s'.family.core = s.family.core
  parent : s'.family.parent = s.family.parent
  port : s'.port = s.port
  allEars : s'.allEars = s.allEars
  bindings : ∀ sock ∈ l, Listening s sock →
    bindingsOf s' sock = (bindingsOf s sock).filter (·.server ≠ server)
  others : ∀ a, (∀ sock ∈ l, Listening s sock → s.allEars sock ≠ some a) → s'.arrays a = s.arrays a
  killed : ∀ q, s'.family.killed q = true ↔ s.family.killed q = true ∨ ClientOf s l server q ∨
    ∃ sock ∈ l, Bereft s server sock ∧ Reaches (ChildOf s.family l) s.family.killed sock q

/-! ## Arrays -/

variable {s s' : Served} {l : List Addr} {server : Nat}

theorem zonk_spec (server : Nat) (bindings : Bindings) :
    ∃ bindings', zonk server bindings = .ok bindings' ∧
      bindings'.array.data = bindings.array.data.filter (!isBound server ·) := by
  unfold zonk
  split
  · next result h =>
    refine ⟨_, rfl, ?_⟩
    rw [foreachDel_eq bindings.size] at h
    exact (congrArg (fun result => result.1.data) (Except.ok.inj h)).symm
  · next halt h =>
    rw [foreachDel_eq bindings.size] at h
    cases h

theorem reduceOption_filter_isBound (server : Nat) (data : List (Option Bound)) :
    (data.filter (!isBound server ·)).reduceOption =
      data.reduceOption.filter (·.server ≠ server) := by
  induction data with
  | nil => rfl
  | cons binding data ih =>
    cases binding with
    | none => exact ih
    | some binding =>
      rw [List.reduceOption_cons_of_some, List.filter_cons, List.filter_cons]
      by_cases hserver : binding.server = server
      · have hbound : isBound server (some binding) = true := decide_eq_true hserver
        have hother : decide (binding.server ≠ server) = false :=
          decide_eq_false (not_not.mpr hserver)
        rw [hbound, hother, Bool.not_true, if_neg Bool.false_ne_true, if_neg Bool.false_ne_true, ih]
      · have hbound : isBound server (some binding) = false := decide_eq_false hserver
        have hother : decide (binding.server ≠ server) = true := decide_eq_true hserver
        rw [hbound, hother, Bool.not_false, if_pos rfl, if_pos rfl, List.reduceOption_cons_of_some,
          ih]

theorem svzBindingContainsServer_iff (sock : Addr) :
    svzBindingContainsServer s sock server = true ↔ ∃ b ∈ bindingsOf s sock, b.server = server := by
  unfold svzBindingContainsServer bindingsOf
  cases s.allEars sock with
  | none => exact iff_of_false Bool.false_ne_true fun ⟨b, hb, _⟩ => absurd hb List.not_mem_nil
  | some a =>
    rw [Option.any_some, Option.elim_some, List.any_eq_true]
    constructor
    · rintro ⟨binding, hbinding, hbound⟩
      cases binding with
      | none => cases hbound
      | some b => exact ⟨b, List.reduceOption_mem_iff.mpr hbinding, of_decide_eq_true hbound⟩
    · rintro ⟨b, hb, hserver⟩
      exact ⟨some b, List.reduceOption_mem_iff.mp hb, decide_eq_true hserver⟩

/-! ## The first loop -/

/-- Nothing but the flags has changed. -/
def withKilled (s : Served) (killed : Addr → Bool) : Served :=
  { s with family := { s.family with killed } }

theorem schedule_eq (h : Coherent s.family.core l) {sock : Addr} (hsock : sock ∈ l) :
    ∃ killed, schedule s sock = .ok (withKilled s killed) ∧
      Explored (ChildOf s.family l) s.family.killed sock killed := by
  obtain ⟨t, ht, -⟩ := h.live hsock
  have hlength := h.length_le
  have hcount : liveCount l (Function.update s.family.killed sock true) ≤ l.length :=
    List.countP_le_length
  obtain ⟨killed, hrun, hexplored⟩ := scheduleIn_spec h (s.family.core.sockLimit + 2)
    s.family.killed sock (Option.isSome_iff_exists.mpr ⟨t, ht⟩) (Nat.succ_pos _)
    fun _ => by omega
  refine ⟨killed, ?_, hexplored⟩
  unfold schedule svzSockScheduleForShutdown
  rw [hrun]
  rfl

theorem reaches_iff_of_not_listening {f : Family} {killed : Addr → Bool} {sock q : Addr} {t : Sock}
    (ht : f.core.heap sock = some t) (hclient : t.attrs.flags.listening = false) :
    Reaches (ChildOf f l) killed sock q ↔ q = sock := by
  refine ⟨fun hreach => ?_, fun heq => heq ▸ Relation.ReflTransGen.refl⟩
  rcases Relation.ReflTransGen.cases_head hreach with heq | ⟨b, ⟨-, ⟨u, hu, hlistening⟩, -⟩, -⟩
  · exact heq.symm
  · rw [ht] at hu
    obtain rfl := Option.some.inj hu
    rw [hclient] at hlistening
    cases hlistening

/-- One round of the first loop. -/
theorem unbindClient_spec (h : Coherent s.family.core l) (server : Nat) {sock : Addr}
    (hsock : sock ∈ l) :
    ∃ killed, unbindClient server s sock = .ok (withKilled s killed) ∧
      ∀ q, killed q = true ↔
        s.family.killed q = true ∨ ClientOf s l server sock ∧ q = sock := by
  obtain ⟨t, ht, -⟩ := h.live hsock
  have hsame (hno : ¬ ClientOf s l server sock) : ∀ q, s.family.killed q = true ↔
      s.family.killed q = true ∨ ClientOf s l server sock ∧ q = sock := fun q =>
    ⟨Or.inl, fun hq => hq.resolve_right fun hc => hno hc.1⟩
  unfold unbindClient
  rw [load_eq ht, ok_bind]
  by_cases hlistening : t.attrs.flags.listening = true
  · rw [if_pos hlistening]
    refine ⟨_, rfl, hsame ?_⟩
    rintro ⟨-, ⟨u, hu, hclient⟩, -⟩
    rw [ht] at hu
    obtain rfl := Option.some.inj hu
    rw [hlistening] at hclient
    cases hclient
  · rw [if_neg hlistening]
    obtain ⟨parent, hparent, hwanted⟩ := svzSockFind_spec h (s.family.parent sock).1
      (s.family.parent sock).2
    have hget : svzSockGetparent s.family sock = .ok parent := hparent
    rw [hget, ok_bind]
    cases parent with
    | none =>
      refine ⟨_, rfl, hsame ?_⟩
      rintro ⟨-, -, p, hp, -⟩
      rw [hget] at hp
      cases hp
    | some parent =>
      obtain ⟨-, p, hp, -⟩ := (hwanted parent).mp rfl
      dsimp only
      rw [load_eq hp, ok_bind]
      have hiff : (p.attrs.flags.listening && s.port parent && (s.allEars parent).isSome &&
          svzBindingContainsServer s parent server) = true ↔ ClientOf s l server sock := by
        rw [Bool.and_eq_true, Bool.and_eq_true, Bool.and_eq_true, svzBindingContainsServer_iff]
        constructor
        · rintro ⟨⟨⟨hlisten, hport⟩, -⟩, hbound⟩
          exact ⟨hsock, ⟨t, ht, Bool.eq_false_iff.mpr hlistening⟩, parent, hget,
            ⟨⟨p, hp, hlisten⟩, hport⟩, hbound⟩
        · rintro ⟨-, -, parent', hget', ⟨⟨p', hp', hlisten⟩, hport⟩, b, hb, hserver⟩
          rw [hget] at hget'
          obtain rfl := Option.some.inj (Except.ok.inj hget')
          rw [hp] at hp'
          obtain rfl := Option.some.inj hp'
          refine ⟨⟨⟨hlisten, hport⟩, ?_⟩, b, hb, hserver⟩
          unfold bindingsOf at hb
          cases hears : s.allEars parent with
          | none =>
            rw [hears] at hb
            exact absurd hb List.not_mem_nil
          | some a => rfl
      by_cases hclient : ClientOf s l server sock
      · obtain ⟨killed, hrun, hexplored⟩ := schedule_eq h hsock
        rw [if_pos (hiff.mpr hclient)]
        refine ⟨killed, hrun, fun q => ?_⟩
        rw [hexplored.iff_reaches,
          reaches_iff_of_not_listening ht (Bool.eq_false_iff.mpr hlistening)]
        exact or_congr_right ⟨fun heq => ⟨hclient, heq⟩, fun hc => hc.2⟩
      · rw [if_neg fun hc => hclient (hiff.mp hc)]
        exact ⟨_, rfl, hsame hclient⟩

theorem clients_spec (h : Coherent s.family.core l) (server : Nat) (rest : List Addr)
    (hrest : ∀ sock ∈ rest, sock ∈ l) :
    ∃ killed, rest.foldlM (unbindClient server) s = .ok (withKilled s killed) ∧
      ∀ q, killed q = true ↔ s.family.killed q = true ∨ q ∈ rest ∧ ClientOf s l server q := by
  induction rest generalizing s with
  | nil =>
    refine ⟨s.family.killed, rfl, fun q => ⟨Or.inl, fun hq => hq.resolve_right fun hc => ?_⟩⟩
    exact absurd hc.1 List.not_mem_nil
  | cons sock rest ih =>
    obtain ⟨killed, hrun, hkilled⟩ := unbindClient_spec h server
      (hrest sock List.mem_cons_self)
    have hafter : Coherent (withKilled s killed).family.core l := h
    obtain ⟨killed', hrun', hkilled'⟩ := ih hafter fun q hq => hrest q (List.mem_cons_of_mem _ hq)
    refine ⟨killed', ?_, fun q => ?_⟩
    · rw [List.foldlM_cons, hrun]
      exact hrun'
    · rw [hkilled']
      show killed q = true ∨ q ∈ rest ∧ ClientOf s l server q ↔ _
      rw [hkilled, or_assoc, List.mem_cons]
      refine or_congr_right ⟨?_, ?_⟩
      · rintro (⟨hc, rfl⟩ | ⟨hmem, hc⟩)
        · exact ⟨Or.inl rfl, hc⟩
        · exact ⟨Or.inr hmem, hc⟩
      · rintro ⟨rfl | hmem, hc⟩
        · exact Or.inl ⟨hc, rfl⟩
        · exact Or.inr ⟨hmem, hc⟩

/-! ## The second loop -/

/-- What the second loop has done at the sockets `done`. -/
structure Swept (l : List Addr) (server : Nat) (s : Served) (done : List Addr) (s' : Served) :
    Prop where
  core : s'.family.core = s.family.core
  parent : s'.family.parent = s.family.parent
  port : s'.port = s.port
  allEars : s'.allEars = s.allEars
  either : ∀ a, (s'.arrays a).array.data = (s.arrays a).array.data ∨
    (s'.arrays a).array.data = (s.arrays a).array.data.filter (!isBound server ·)
  swept : ∀ sock ∈ done, Listening s sock → ∀ a, s.allEars sock = some a →
    (s'.arrays a).array.data = (s.arrays a).array.data.filter (!isBound server ·)
  others : ∀ a, (∀ sock ∈ done, Listening s sock → s.allEars sock ≠ some a) →
    s'.arrays a = s.arrays a
  killed : Searched (ChildOf s.family l) s.family.killed
    (fun sock => sock ∈ done ∧ Bereft s server sock) s'.family.killed

variable {done : List Addr}

theorem starts_append_of_bereft {sock : Addr} (hbereft : Bereft s server sock) :
    (fun x => x ∈ done ++ [sock] ∧ Bereft s server x) =
      fun x => (x ∈ done ∧ Bereft s server x) ∨ x = sock := by
  funext x
  refine propext ⟨?_, ?_⟩
  · rintro ⟨hx, hb⟩
    rcases List.mem_append.mp hx with hmem | hmem
    · exact Or.inl ⟨hmem, hb⟩
    · exact Or.inr (List.mem_singleton.mp hmem)
  · rintro (⟨hx, hb⟩ | rfl)
    · exact ⟨List.mem_append_left _ hx, hb⟩
    · exact ⟨List.mem_append_right _ List.mem_cons_self, hbereft⟩

theorem starts_append_of_not {sock : Addr} (hno : ¬ Bereft s server sock) :
    (fun x => x ∈ done ++ [sock] ∧ Bereft s server x) =
      fun x => x ∈ done ∧ Bereft s server x := by
  funext x
  refine propext ⟨?_, fun hx => ⟨List.mem_append_left _ hx.1, hx.2⟩⟩
  rintro ⟨hx, hb⟩
  rcases List.mem_append.mp hx with hmem | hmem
  · exact ⟨hmem, hb⟩
  · rw [List.mem_singleton.mp hmem] at hb
    exact absurd hb hno

/-- There is nothing to do at a socket. -/
theorem Swept.skip (h : Swept l server s done s') {sock : Addr} (hno : ¬ Listening s sock) :
    Swept l server s (done ++ [sock]) s' where
  core := h.core
  parent := h.parent
  port := h.port
  allEars := h.allEars
  either := h.either
  swept := fun x hx hlistening => by
    rcases List.mem_append.mp hx with hmem | hmem
    · exact h.swept x hmem hlistening
    · rw [List.mem_singleton.mp hmem] at hlistening
      exact absurd hlistening hno
  others := fun a ha => h.others a fun x hx => ha x (List.mem_append_left _ hx)
  killed := by
    rw [starts_append_of_not fun hbereft => hno hbereft.1]
    exact h.killed

/-- The array of the socket is swept. -/
def withArray (s : Served) (sock : Addr) (bindings : Bindings) : Served :=
  { s with arrays := (s.allEars sock).elim s.arrays fun a => Function.update s.arrays a bindings }

theorem Swept.array (h : Swept l server s done s') {sock : Addr} (hsock : Listening s sock)
    {bindings : Bindings}
    (hbindings : ∀ a, s.allEars sock = some a →
      bindings.array.data = (s.arrays a).array.data.filter (!isBound server ·))
    {killed : Addr → Bool}
    (hkilled : Searched (ChildOf s.family l) s.family.killed
      (fun x => x ∈ done ++ [sock] ∧ Bereft s server x) killed) :
    Swept l server s (done ++ [sock]) (withKilled (withArray s' sock bindings) killed) := by
  have harrays : ∀ a, (withKilled (withArray s' sock bindings) killed).arrays a =
      if s.allEars sock = some a then bindings else s'.arrays a := by
    intro a
    unfold withKilled withArray
    dsimp only
    rw [h.allEars]
    cases hears : s.allEars sock with
    | none => rfl
    | some b =>
      show Function.update s'.arrays b bindings a = _
      rw [Function.update_apply]
      by_cases hab : a = b
      · rw [if_pos hab, if_pos (congrArg some hab.symm)]
      · rw [if_neg hab, if_neg fun heq => hab (Option.some.inj heq).symm]
  refine ⟨h.core, h.parent, h.port, h.allEars, fun a => ?_, fun x hx hlistening a ha => ?_,
    fun a ha => ?_, hkilled⟩
  · rw [harrays]
    split
    · next heq => exact Or.inr (hbindings a heq)
    · exact h.either a
  · rw [harrays]
    split
    · next heq => exact hbindings a heq
    · next hne =>
      rcases List.mem_append.mp hx with hmem | hmem
      · exact h.swept x hmem hlistening a ha
      · rw [List.mem_singleton.mp hmem] at ha
        exact absurd ha hne
  · rw [harrays, if_neg (ha sock (List.mem_append_right _ List.mem_cons_self) hsock)]
    exact h.others a fun x hx => ha x (List.mem_append_left _ hx)

theorem all_filter_iff (bindings : List Bound) :
    (∀ b ∈ bindings.filter (·.server ≠ server), b.server = server) ↔
      ∀ b ∈ bindings, b.server = server := by
  refine ⟨fun h b hb => ?_, fun h b hb => h b (List.mem_of_mem_filter hb)⟩
  by_contra hne
  exact hne (h b (List.mem_filter.mpr ⟨hb, decide_eq_true hne⟩))

theorem svzSockBindingsZonkServer_spec (s : Served) (sock : Addr) (server : Nat) :
    ∃ bindings size, svzSockBindingsZonkServer s sock server =
        .ok (withArray s sock bindings, size) ∧
      (∀ a, s.allEars sock = some a →
        bindings.array.data = (s.arrays a).array.data.filter (!isBound server ·)) ∧
      (size = 0 ↔ ∀ b ∈ bindingsOf s sock, b.server = server) := by
  unfold svzSockBindingsZonkServer withArray bindingsOf
  cases hears : s.allEars sock with
  | none =>
    refine ⟨s.arrays 0, 0, rfl, fun a ha => absurd ha (Option.some_ne_none a).symm, ?_⟩
    exact iff_of_true rfl fun b hb => absurd hb List.not_mem_nil
  | some a =>
    obtain ⟨bindings, hzonk, hdata⟩ := zonk_spec server (s.arrays a)
    refine ⟨bindings, svzArraySize bindings.array, ?_, fun b hb => ?_, ?_⟩
    · dsimp only
      rw [hzonk]
      rfl
    · rw [← Option.some.inj hb]
      exact hdata
    · unfold svzArraySize
      rw [hdata, List.length_eq_zero_iff, List.filter_eq_nil_iff]
      constructor
      · intro hall b hb
        have hbound := hall (some b) (List.reduceOption_mem_iff.mp hb)
        by_contra hne
        have hother : isBound server (some b) = false := decide_eq_false hne
        rw [hother] at hbound
        exact hbound rfl
      · intro hall binding hbinding
        cases binding with
        | none => exact absurd hbinding (s.arrays a).bound
        | some b =>
          have hbound : isBound server (some b) = true :=
            decide_eq_true (hall b (List.reduceOption_mem_iff.mpr hbinding))
          rw [hbound]
          exact Bool.false_ne_true

/-- The arrays stay those of `Binding`, where no socket is killed. -/
theorem zonkServer_simulates {b : Binding.State} {sock : Binding.Sock} {p : Addr}
    (harrays : ∀ a, b.arrays a = some (s.arrays a).array.data.reduceOption)
    (hears : b.allEars sock.id = s.allEars p) :
    ∃ s' size, svzSockBindingsZonkServer s p server = .ok (s', size) ∧
      ∀ a, (Binding.zonkServer server b sock).arrays a =
        some (s'.arrays a).array.data.reduceOption := by
  obtain ⟨bindings, size, hzonk, hdata, -⟩ := svzSockBindingsZonkServer_spec s p server
  refine ⟨_, size, hzonk, fun a => ?_⟩
  unfold Binding.zonkServer withArray Binding.bindingsOf
  rw [hears]
  cases hp : s.allEars p with
  | none => exact harrays a
  | some own =>
    show Function.update b.arrays own _ a =
      some (Function.update s.arrays own bindings a).array.data.reduceOption
    by_cases hown : a = own
    · rw [hown, Function.update_self, Function.update_self, hdata own hp,
        reduceOption_filter_isBound, Option.bind_some, harrays, Option.getD_some]
    · rw [Function.update_of_ne hown, Function.update_of_ne hown]
      exact harrays a

/-- One round of the second loop. -/
theorem unbindListener_spec (h : Swept l server s done s') (hcoherent : Coherent s.family.core l)
    {sock : Addr} (hsock : sock ∈ l) :
    ∃ s'', unbindListener server s' sock = .ok s'' ∧ Swept l server s (done ++ [sock]) s'' := by
  obtain ⟨t, ht, -⟩ := hcoherent.live hsock
  have hload : s'.family.core.load sock = .ok t := by
    rw [h.core]
    exact load_eq ht
  unfold unbindListener
  rw [hload, ok_bind, h.port]
  by_cases hlistening : (t.attrs.flags.listening && s.port sock) = true
  · have hlisten : Listening s sock := by
      rw [Bool.and_eq_true] at hlistening
      exact ⟨⟨t, ht, hlistening.1⟩, hlistening.2⟩
    rw [if_pos hlistening]
    obtain ⟨bindings, size, hzonk, hdata, hsize⟩ := svzSockBindingsZonkServer_spec s' sock server
    -- the array may have been swept for another socket
    have hswept : ∀ a, s.allEars sock = some a →
        bindings.array.data = (s.arrays a).array.data.filter (!isBound server ·) := by
      intro a ha
      rw [hdata a (by rw [h.allEars]; exact ha)]
      rcases h.either a with hsame | hsame
      · rw [hsame]
      · rw [hsame, List.filter_filter]
        exact List.filter_congr fun binding _ => Bool.and_self _
    have hbereft : size = 0 ↔ Bereft s server sock := by
      rw [hsize]
      unfold Bereft bindingsOf
      rw [h.allEars, and_iff_right hlisten]
      cases hears : s.allEars sock with
      | none => exact Iff.rfl
      | some a =>
        rw [Option.elim_some, Option.elim_some]
        rcases h.either a with hsame | hsame
        · rw [hsame]
        · rw [hsame, reduceOption_filter_isBound, all_filter_iff]
    rw [hzonk, ok_bind]
    dsimp only
    by_cases hzero : size = 0
    · have hafter : Coherent (withArray s' sock bindings).family.core l := by
        show Coherent s'.family.core l
        rw [h.core]
        exact hcoherent
      obtain ⟨killed, hrun, hexplored⟩ := schedule_eq hafter hsock
      rw [if_pos hzero]
      refine ⟨_, hrun, h.array hlisten hswept ?_⟩
      rw [starts_append_of_bereft (hbereft.mp hzero)]
      refine h.killed.next ?_
      have hfamily : ChildOf (withArray s' sock bindings).family l = ChildOf s.family l := by
        show ChildOf s'.family l = ChildOf s.family l
        unfold ChildOf svzSockGetparent
        rw [h.core, h.parent]
      rw [← hfamily]
      exact hexplored
    · rw [if_neg hzero]
      have hkilled : Searched (ChildOf s.family l) s.family.killed
          (fun x => x ∈ done ++ [sock] ∧ Bereft s server x) s'.family.killed := by
        rw [starts_append_of_not fun hb => hzero (hbereft.mpr hb)]
        exact h.killed
      exact ⟨_, rfl, h.array hlisten hswept hkilled⟩
  · rw [if_neg hlistening]
    refine ⟨s', rfl, h.skip ?_⟩
    rintro ⟨⟨u, hu, hlisten⟩, hport⟩
    rw [ht] at hu
    obtain rfl := Option.some.inj hu
    exact hlistening (by rw [hlisten, hport]; rfl)

theorem listeners_spec (hcoherent : Coherent s.family.core l) (rest : List Addr) (done : List Addr)
    (hrest : ∀ sock ∈ rest, sock ∈ l) (h : Swept l server s done s') :
    ∃ s'', rest.foldlM (unbindListener server) s' = .ok s'' ∧
      Swept l server s (done ++ rest) s'' := by
  induction rest generalizing s' done with
  | nil => exact ⟨s', rfl, by rw [List.append_nil]; exact h⟩
  | cons sock rest ih =>
    obtain ⟨s₁, hrun, h₁⟩ := unbindListener_spec h hcoherent (hrest sock List.mem_cons_self)
    obtain ⟨s₂, hrun', h₂⟩ := ih (done ++ [sock])
      (fun x hx => hrest x (List.mem_cons_of_mem _ hx)) h₁
    refine ⟨s₂, ?_, ?_⟩
    · rw [List.foldlM_cons, hrun]
      exact hrun'
    · rw [List.append_assoc] at h₂
      exact h₂

/-! ## Both loops -/

/-- The clients have no children, so that what can be reached from a listener does not depend on
them. -/
theorem reaches_iff_of_clients {f : Family} {killed killed' : Addr → Bool}
    (hkeeps : ∀ q, killed q = true → killed' q = true)
    (hclients : ∀ q, killed' q = true → killed q = true ∨
      ∃ t, f.core.heap q = some t ∧ t.attrs.flags.listening = false) (p q : Addr) :
    Reaches (ChildOf f l) killed' p q ↔ Reaches (ChildOf f l) killed p q := by
  refine ⟨fun hreach => hreach.mono hkeeps, fun hreach => ?_⟩
  refine Relation.ReflTransGen.mono (fun a b hstep => ?_) _ _ hreach
  obtain ⟨hlive, ⟨t, ht, hlistening⟩, hb, hparent⟩ := hstep
  refine ⟨Bool.eq_false_iff.mpr fun hkilled => ?_, ⟨t, ht, hlistening⟩, hb, hparent⟩
  rcases hclients a hkilled with hold | ⟨u, hu, hclient⟩
  · rw [hlive] at hold
    cases hold
  · rw [ht] at hu
    obtain rfl := Option.some.inj hu
    rw [hlistening] at hclient
    cases hclient

/-- **Unbinding a server**, for all listeners, bindings, parents and flags. -/
theorem serverUnbind_spec (h : Coherent s.family.core l) (server : Nat) :
    ∃ s', serverUnbind s server = .ok s' ∧ Unbound l server s s' := by
  obtain ⟨killed, hfirst, hkilled⟩ := clients_spec h server l fun _ hq => hq
  have hstart : Swept l server (withKilled s killed) [] (withKilled s killed) :=
    ⟨rfl, rfl, rfl, rfl, fun _ => Or.inl rfl, fun x hx => absurd hx List.not_mem_nil,
      fun _ _ => rfl, Searched.none _ _ fun p hp => absurd hp.1 List.not_mem_nil⟩
  have hafter : Coherent (withKilled s killed).family.core l := h
  obtain ⟨s', hsecond, hswept⟩ := listeners_spec hafter l [] (fun _ hq => hq) hstart
  rw [List.nil_append] at hswept
  refine ⟨s', ?_, hswept.core, hswept.parent, hswept.port, hswept.allEars, ?_,
    fun a ha => hswept.others a ha, fun q => ?_⟩
  · unfold serverUnbind
    rw [svzSockForeach_eq h, hfirst, ok_bind]
    exact (svzSockForeach_eq h (unbindListener server) (withKilled s killed)).trans hsecond
  · intro sock hsock hlistening
    unfold bindingsOf
    rw [hswept.allEars]
    show (s.allEars sock).elim [] _ = _
    cases hears : s.allEars sock with
    | none => rfl
    | some a =>
      rw [Option.elim_some, hswept.swept sock hsock hlistening a hears,
        reduceOption_filter_isBound]
      rfl
  · rw [hswept.killed.iff_reaches]
    show killed q = true ∨ _ ↔ _
    rw [hkilled, or_assoc]
    refine or_congr_right (or_congr ⟨fun hc => hc.2, fun hc => ⟨hc.1, hc⟩⟩ ?_)
    have hreaches := reaches_iff_of_clients (l := l) (f := s.family)
      (fun q hq => (hkilled q).mpr (Or.inl hq))
      (fun q hq => ((hkilled q).mp hq).imp_right fun hc => hc.2.2.1)
    constructor
    · rintro ⟨p, ⟨hp, hbereft⟩, hreach⟩
      exact ⟨p, hp, hbereft, (hreaches p q).mp hreach⟩
    · rintro ⟨p, hp, hbereft, hreach⟩
      exact ⟨p, ⟨hp, hbereft⟩, (hreaches p q).mpr hreach⟩

theorem somePort_exclusive : (false && false) = false := rfl

def somePort : Binding.PortCfg :=
  ⟨.tcp, 1, 80, false, false, false, none, 0, "", "", somePort_exclusive⟩

def boundTo (server : Nat) : Bound := ⟨server, ⟨server, somePort⟩⟩

/-- The bindings of two servers. -/
def twoServers : Bindings :=
  ⟨⟨[some (boundTo 1), some (boundTo 2)], 2, 2⟩, by decide, by decide⟩

theorem serverUnbind_one : ∃ f s', familyRun threeSocketsRun = .ok f ∧
    serverUnbind ⟨f, fun sock => sock = 1, fun _ => some 0, fun _ => twoServers⟩ 1 = .ok s' ∧
      s'.family.killed 2 = true ∧ bindingsOf s' 1 = [boundTo 2] := by
  obtain ⟨f, l, hrun, h, hone, htwo, hmem, hmem', hparent, -⟩ := threeSocketsRun_coherent
  have hlistening : Listening ⟨f, fun sock => sock = 1, fun _ => some 0, fun _ => twoServers⟩ 1 :=
    ⟨hone, rfl⟩
  obtain ⟨s', hunbind, hunbound⟩ := serverUnbind_spec
    (s := ⟨f, fun sock => sock = 1, fun _ => some 0, fun _ => twoServers⟩) h 1
  refine ⟨f, s', hrun, hunbind, (hunbound.killed 2).mpr (Or.inr (Or.inl ⟨hmem', htwo, 1, hparent,
    hlistening, boundTo 1, List.mem_cons_self, rfl⟩)), ?_⟩
  exact hunbound.bindings 1 hmem hlistening

set_option maxRecDepth 100000 in
/-- A listener that the server is not bound to is killed, when no other server is. -/
theorem serverUnbind_kills_unbound : ∃ (s s' : Served) (l : List Addr), Coherent s.family.core l ∧
    serverUnbind s 1 = .ok s' ∧ 1 ∈ l ∧ Listening s 1 ∧ (∀ b ∈ bindingsOf s 1, b.server ≠ 1) ∧
    svzSockGetparent s.family 1 = .ok none ∧ s.family.killed 1 = false ∧
    s'.family.killed 1 = true := by
  obtain ⟨f, l, hrun, h, hone, -, hmem, -⟩ := threeSocketsRun_coherent
  obtain ⟨f', hrun', hparent, hlive, s', hunbind, hkilled⟩ : ∃ f',
      familyRun threeSocketsRun = .ok f' ∧ svzSockGetparent f' 1 = .ok none ∧
      f'.killed 1 = false ∧
      ∃ s', serverUnbind ⟨f', fun sock => sock = 1, fun _ => none, fun _ => twoServers⟩ 1 = .ok s' ∧
        s'.family.killed 1 = true := ⟨_, rfl, rfl, rfl, _, rfl, rfl⟩
  rw [hrun] at hrun'
  obtain rfl := Except.ok.inj hrun'
  exact ⟨_, s', l, h, hunbind, hmem, ⟨hone, rfl⟩, fun b hb => absurd hb List.not_mem_nil, hparent,
    hlive, hkilled⟩

end Serveez.Core
