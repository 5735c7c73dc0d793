import Serveez.Binding.Listeners
import Mathlib.Data.List.Pairwise

/-!
# Merging listeners

What is left when `svz_server_bind` has destroyed previous listeners and joined their
bindings.

* `join_spec`: the array of joined bindings after one listener.
* `mergeLoop_state`: the sockets, arrays and configurations after all of them.
* `mergeLoop_bindings`: the array after all of them.
-/

namespace Serveez.Binding

variable {s : State}

/-- No two bindings of one server are exactly equal. -/
def NoDuplicates (bindings : List Bound) : Prop :=
  bindings.Pairwise fun b c => ¬ (b.server = c.server ∧ exactlyEqual b.port.cfg c.port.cfg = true)

/-- A binding for the same server and port. -/
def SameBinding (b c : Bound) : Prop :=
  b.server = c.server ∧ exactlyEqual b.port.cfg c.port.cfg = true

theorem findBinding_eq_true_iff {bindings : List Bound} {server : Nat} {port : PortCfg} :
    findBinding bindings server port = true ↔
      ∃ b ∈ bindings, b.server = server ∧ exactlyEqual b.port.cfg port = true := by
  simp [findBinding]

theorem noDuplicates_append_singleton {bindings : List Bound} {b : Bound}
    (h : NoDuplicates bindings) (hnew : ¬ findBinding bindings b.server b.port.cfg = true) :
    NoDuplicates (bindings ++ [b]) := by
  rw [findBinding_eq_true_iff] at hnew
  refine List.pairwise_append.mpr ⟨h, List.pairwise_singleton _ _, fun c hc d hd hsame => ?_⟩
  cases List.mem_singleton.mp hd
  exact hnew ⟨c, hc, hsame⟩

/-- The port configurations of bindings are below a bound, and no two bindings have the same. -/
def OwnPorts (next : Nat) (bindings : List Bound) : Prop :=
  (∀ b ∈ bindings, b.port.addr < next) ∧
    ∀ b ∈ bindings, ∀ c ∈ bindings, b.port.addr = c.port.addr → b = c

theorem OwnPorts.append {next : Nat} {bindings : List Bound} (h : OwnPorts next bindings)
    {b : Bound} (hb : b.port.addr = next) : OwnPorts (next + 1) (bindings ++ [b]) := by
  have hne : ∀ c ∈ bindings, c.port.addr ≠ b.port.addr := fun c hc =>
    hb ▸ Nat.ne_of_lt (h.1 c hc)
  refine ⟨fun c hc => ?_, fun c hc d hd he => ?_⟩
  · rcases List.mem_append.mp hc with hc | hc
    · exact Nat.lt_succ_of_lt (h.1 c hc)
    · rw [List.mem_singleton.mp hc, hb]
      exact Nat.lt_succ_self _
  · rcases List.mem_append.mp hc with hc | hc <;> rcases List.mem_append.mp hd with hd | hd
    · exact h.2 c hc d hd he
    · exact absurd (List.mem_singleton.mp hd ▸ he) (hne c hc)
    · exact absurd (List.mem_singleton.mp hc ▸ he).symm (hne d hd)
    · rw [List.mem_singleton.mp hc, List.mem_singleton.mp hd]

/-- What `adjoin` makes of an array. -/
structure Joined (next : Nat) (bindings old : List Bound) (next' : Nat)
    (bindings' : List Bound) : Prop where
  le : next ≤ next'
  extends' : bindings <+: bindings'
  unique : NoDuplicates bindings → NoDuplicates bindings'
  ports : OwnPorts next bindings → OwnPorts next' bindings'
  kept : ∀ b ∈ old, ∃ c ∈ bindings', SameBinding c b
  origin : ∀ c ∈ bindings', c ∈ bindings ∨
    (next ≤ c.port.addr ∧ c.port.addr < next') ∧
      ∃ b ∈ old, c.server = b.server ∧ c.port.cfg = b.port.cfg

theorem join_spec (next : Nat) (bindings old : List Bound) :
    Joined next bindings old (join next bindings old).1 (join next bindings old).2 := by
  induction old generalizing next bindings with
  | nil => exact ⟨Nat.le_refl _, List.prefix_refl _, id, id, by simp, fun c hc => Or.inl hc⟩
  | cons b old ih =>
    rw [join]
    split
    · rename_i hin
      have h := ih next bindings
      refine ⟨h.le, h.extends', h.unique, h.ports, ?_, ?_⟩
      · intro d hd
        rcases List.mem_cons.mp hd with rfl | hd
        · obtain ⟨c, hc, hsame⟩ := findBinding_eq_true_iff.mp hin
          exact ⟨c, h.extends'.subset hc, hsame⟩
        · exact h.kept d hd
      · intro c hc
        rcases h.origin c hc with hold | ⟨hlt, d, hd, hsame⟩
        · exact Or.inl hold
        · exact Or.inr ⟨hlt, d, List.mem_cons_of_mem b hd, hsame⟩
    · rename_i hout
      have h := ih (next + 1) (bindings ++ [⟨b.server, ⟨next, b.port.cfg⟩⟩])
      refine ⟨Nat.le_trans (Nat.le_succ _) h.le, (List.prefix_append _ _).trans h.extends', ?_, ?_,
        ?_, ?_⟩
      · exact fun hold => h.unique (noDuplicates_append_singleton hold hout)
      · exact fun hold => h.ports (hold.append rfl)
      · intro d hd
        rcases List.mem_cons.mp hd with rfl | hd
        · exact ⟨_, h.extends'.subset (List.mem_append_right _ (List.mem_singleton_self _)), rfl,
            exactlyEqual_refl _⟩
        · exact h.kept d hd
      · intro c hc
        rcases h.origin c hc with hold | ⟨hlt, d, hd, hsame⟩
        · rcases List.mem_append.mp hold with hold | hnew
          · exact Or.inl hold
          · cases List.mem_singleton.mp hnew
            exact Or.inr ⟨⟨Nat.le_refl _, Nat.lt_of_lt_of_le (Nat.lt_succ_self _) h.le⟩, b,
              List.mem_cons_self, rfl, rfl⟩
        · exact Or.inr ⟨⟨Nat.le_of_succ_le hlt.1, hlt.2⟩, d, List.mem_cons_of_mem b hd, hsame⟩

/-! ## One listener -/

/-- The state without a listener that has been merged. -/
def dropListener (s : State) (sock : Sock) (next : Nat) : State where
  socks := s.socks.filter (·.id ≠ sock.id)
  allEars := Function.update s.allEars sock.id none
  arrays := fun a => if s.allEars sock.id = some a then none else s.arrays a
  freed := (bindingsOf s sock).map (·.port.addr) ++ s.freed
  next := next

theorem update_none (arrays : Nat → Option (List Bound)) (a : Nat) :
    Function.update arrays a none = fun b => if some a = some b then none else arrays b := by
  ext b : 1
  by_cases hb : b = a
  · simp [hb]
  · simp [hb, Ne.symm hb]

theorem adjoin_shutdown (s : State) (bindings : List Bound) (sock : Sock) :
    svzSockShutdown (adjoin s bindings sock).1 sock =
      dropListener s sock (join s.next bindings (bindingsOf s sock)).1 := by
  have hnone : (adjoin s bindings sock).1.allEars sock.id = none := Function.update_self _ _ _
  have hzonk : svzSockShutdown (adjoin s bindings sock).1 sock = { (adjoin s bindings sock).1 with
      socks := (adjoin s bindings sock).1.socks.filter (·.id ≠ sock.id) } := by
    unfold svzSockShutdown zonkSockEars
    split
    · dsimp only
      rw [hnone]
    · rfl
  rw [hzonk]
  unfold adjoin dropListener
  cases hears : s.allEars sock.id with
  | none => simp [bindingsOf, hears]
  | some a => simp only [destroyArray, freePorts, bindingsOf, hears, Option.bind_some, update_none]

theorem mergeLoop_cons (s : State) (bindings : List Bound) (sock : Sock) (socks : List Sock) :
    mergeLoop s bindings (sock :: socks) =
      mergeLoop (dropListener s sock (join s.next bindings (bindingsOf s sock)).1)
        (join s.next bindings (bindingsOf s sock)).2 socks := by
  rw [mergeLoop, adjoin_shutdown]
  rfl

/-- The bindings of another listener are as they were, unless it had the same array. -/
theorem bindingsOf_dropListener (s : State) (sock other : Sock) (next : Nat) :
    bindingsOf (dropListener s sock next) other = bindingsOf s other ∨
      bindingsOf (dropListener s sock next) other = [] ∧
        bindingsOf s other = bindingsOf s sock := by
  by_cases hid : other.id = sock.id
  · right
    simp [bindingsOf, dropListener, hid]
  · cases hother : s.allEars other.id with
    | none => left; simp [bindingsOf, dropListener, hid, hother]
    | some a =>
      by_cases hsame : s.allEars sock.id = some a
      · right
        simp [bindingsOf, dropListener, hid, hother, hsame]
      · left
        simp [bindingsOf, dropListener, hid, hother, hsame]

/-! ## All of them -/

/-- Some listeners are gone, with their arrays and the configurations in these. -/
structure Merged (s : State) (gone : List Sock) (s' : State) : Prop where
  le : s.next ≤ s'.next
  socks : s'.socks = s.socks.filter (·.id ∉ gone.map (·.id))
  allEars : ∀ id, s'.allEars id = if id ∈ gone.map (·.id) then none else s.allEars id
  arrays : ∀ a, s'.arrays a = if ∃ sock ∈ gone, s.allEars sock.id = some a then none else s.arrays a
  freed : ∀ p, p ∈ s'.freed ↔
    p ∈ s.freed ∨ ∃ sock ∈ gone, ∃ b ∈ bindingsOf s sock, b.port.addr = p

theorem mergeLoop_state (s : State) (bindings : List Bound) (socks : List Sock) :
    Merged s socks (mergeLoop s bindings socks).1 := by
  induction socks generalizing s bindings with
  | nil => exact ⟨Nat.le_refl _, by simp [mergeLoop], by simp [mergeLoop], by simp [mergeLoop],
      by simp [mergeLoop]⟩
  | cons sock socks ih =>
    rw [mergeLoop_cons]
    generalize hnext : (join s.next bindings (bindingsOf s sock)).1 = next
    have hle : s.next ≤ next := hnext ▸ (join_spec s.next bindings (bindingsOf s sock)).le
    have h := ih (dropListener s sock next) (join s.next bindings (bindingsOf s sock)).2
    refine ⟨Nat.le_trans hle h.le, ?_, fun id => ?_, fun a => ?_, fun p => ?_⟩
    · rw [h.socks, dropListener, List.filter_filter]
      refine List.filter_congr fun other _ => ?_
      by_cases hid : other.id = sock.id <;> simp [hid]
    · rw [h.allEars, dropListener, List.map_cons]
      by_cases hid : id = sock.id
      · simp [hid]
      · simp [hid]
    · rw [h.arrays]
      by_cases hsock : s.allEars sock.id = some a
      · simp [dropListener, hsock]
      · -- a later listener with the id of this one has no array any more
        have hiff : (∃ other ∈ socks, (dropListener s sock next).allEars other.id = some a) ↔
            ∃ other ∈ sock :: socks, s.allEars other.id = some a := by
          constructor
          · rintro ⟨other, hmem, hother⟩
            refine ⟨other, List.mem_cons_of_mem _ hmem, ?_⟩
            by_cases hid : other.id = sock.id
            · simp [dropListener, hid] at hother
            · simpa [dropListener, hid] using hother
          · rintro ⟨other, hmem, hother⟩
            rcases List.mem_cons.mp hmem with rfl | hmem
            · exact absurd hother hsock
            · refine ⟨other, hmem, ?_⟩
              have hid : other.id ≠ sock.id := fun he => hsock (he ▸ hother)
              simpa [dropListener, hid] using hother
        simp only [hiff]
        split
        · rfl
        · exact if_neg hsock
    · rw [h.freed]
      constructor
      · rintro (hfreed | ⟨other, hmem, b, hb, rfl⟩)
        · rcases List.mem_append.mp hfreed with hdrop | hold
          · obtain ⟨b, hb, rfl⟩ := List.mem_map.mp hdrop
            exact Or.inr ⟨sock, List.mem_cons_self, b, hb, rfl⟩
          · exact Or.inl hold
        · rcases bindingsOf_dropListener s sock other next with heq | ⟨hnil, -⟩
          · exact Or.inr ⟨other, List.mem_cons_of_mem _ hmem, b, heq ▸ hb, rfl⟩
          · rw [hnil] at hb
            cases hb
      · rintro (hold | ⟨other, hmem, b, hb, rfl⟩)
        · exact Or.inl (List.mem_append_right _ hold)
        · have hdrop : ∀ c ∈ bindingsOf s sock, c.port.addr ∈ (dropListener s sock next).freed :=
            fun c hc => List.mem_append_left _ (List.mem_map_of_mem hc)
          rcases List.mem_cons.mp hmem with rfl | hmem
          · exact Or.inl (hdrop b hb)
          · rcases bindingsOf_dropListener s sock other next with heq | ⟨-, hsame⟩
            · exact Or.inr ⟨other, hmem, b, heq ▸ hb, rfl⟩
            · exact Or.inl (hdrop b (hsame ▸ hb))

/-- The bindings of all listeners that were merged are there, once each, with configurations
of their own. -/
structure JoinedAll (s : State) (bindings : List Bound) (socks : List Sock) (next : Nat)
    (bindings' : List Bound) : Prop where
  extends' : bindings <+: bindings'
  unique : NoDuplicates bindings → NoDuplicates bindings'
  ports : OwnPorts s.next bindings → OwnPorts next bindings'
  kept : ∀ sock ∈ socks, ∀ b ∈ bindingsOf s sock, ∃ c ∈ bindings', SameBinding c b
  origin : ∀ c ∈ bindings', c ∈ bindings ∨ (s.next ≤ c.port.addr ∧ c.port.addr < next) ∧
    ∃ sock ∈ socks, ∃ b ∈ bindingsOf s sock, c.server = b.server ∧ c.port.cfg = b.port.cfg

theorem mergeLoop_bindings (s : State) (bindings : List Bound) (socks : List Sock) :
    JoinedAll s bindings socks (mergeLoop s bindings socks).1.next
      (mergeLoop s bindings socks).2 := by
  induction socks generalizing s bindings with
  | nil => exact ⟨List.prefix_refl _, id, id, by simp, fun c hc => Or.inl hc⟩
  | cons sock socks ih =>
    rw [mergeLoop_cons]
    have hjoin := join_spec s.next bindings (bindingsOf s sock)
    generalize (join s.next bindings (bindingsOf s sock)).1 = next at *
    generalize (join s.next bindings (bindingsOf s sock)).2 = joined at *
    have h := ih (dropListener s sock next) joined
    have hle := (mergeLoop_state (dropListener s sock next) joined socks).le
    refine ⟨hjoin.extends'.trans h.extends', fun hold => h.unique (hjoin.unique hold),
      fun hold => h.ports (hjoin.ports hold), ?_, ?_⟩
    · intro other hmem b hb
      have hfirst : ∀ d ∈ bindingsOf s sock,
          ∃ c ∈ (mergeLoop (dropListener s sock next) joined socks).2, SameBinding c d := by
        intro d hd
        obtain ⟨c, hc, hsame⟩ := hjoin.kept d hd
        exact ⟨c, h.extends'.subset hc, hsame⟩
      rcases List.mem_cons.mp hmem with rfl | hmem
      · exact hfirst b hb
      · rcases bindingsOf_dropListener s sock other next with heq | ⟨-, hsame⟩
        · exact h.kept other hmem b (heq ▸ hb)
        · exact hfirst b (hsame ▸ hb)
    · intro c hc
      rcases h.origin c hc with hold | ⟨⟨hge, hlt⟩, other, hmem, b, hb, hsame⟩
      · rcases hjoin.origin c hold with hold | ⟨⟨hge, hlt⟩, b, hb, hsame⟩
        · exact Or.inl hold
        · exact Or.inr ⟨⟨hge, Nat.lt_of_lt_of_le hlt hle⟩, sock, List.mem_cons_self, b, hb, hsame⟩
      · refine Or.inr ⟨⟨Nat.le_trans hjoin.le hge, hlt⟩, ?_⟩
        rcases bindingsOf_dropListener s sock other next with heq | ⟨hnil, -⟩
        · exact ⟨other, List.mem_cons_of_mem _ hmem, b, heq ▸ hb, hsame⟩
        · rw [hnil] at hb
          cases hb

end Serveez.Binding
