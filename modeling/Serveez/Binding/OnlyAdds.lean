import Serveez.Binding.WellFormed

/-!
# When binding a server only adds

`svz_server_bind` replaces listeners for single addresses by one for any address. It destroys
them first: if the new listener cannot be made their bindings are lost, and if one of them has
the binding that is to be added, the configuration that the new listener uses is freed.

* `mergeLoop_wellFormed`: what the destroyed listeners leave.
* `svzServerBind_onlyAdds_iff`: a call keeps all bindings, adds none twice and leaves no
  listener without its configuration exactly if it is none of these two.
-/

namespace Serveez.Binding

/-- Every binding is still there, no listener has one twice, and every listener has its port
configuration. -/
structure OnlyAdds (s s' : State) : Prop where
  kept : ∀ x ∈ listeners s, ∀ b ∈ bindingsOf s x, ∃ y ∈ listeners s', ∃ c ∈ bindingsOf s' y,
    SameBinding c b ∧ c.port.addr ∉ s'.freed
  unique : ∀ y ∈ listeners s', NoDuplicates (bindingsOf s' y)
  portLive : ∀ y ∈ listeners s', ∀ own, y.port = some own → own.addr ∉ s'.freed

/-- The listeners that a call replaces. -/
def replaced (s : State) (port : PortCfg) : List Sock :=
  match s.socks.find? (isMatch port) with
  | none => []
  | some sock => if port.any && !hasAny sock then s.socks.filter (isMatch port) else []

/-- A binding of a listener that a call replaces which no listener that stays has as well, when
the new listener cannot be made; or that is the one to be added. -/
def Breaks (s : State) (server : Nat) (port : PortCfg) (outcome : Option UInt16) : Prop :=
  ∃ x ∈ replaced s port, ∃ b ∈ bindingsOf s x,
    match outcome with
    | none => ¬ ∃ y ∈ listeners s, isMatch port y = false ∧ ∃ c ∈ bindingsOf s y, SameBinding c b
    | some chosen => b.server = server ∧
      exactlyEqual b.port.cfg (serverCreated port chosen) = true

variable {s s' : State} {sock x : Sock} {server : Nat} {port : PortCfg}

theorem onlyAdds_of_extends (h : WellFormed s') (hext : Extends s s') : OnlyAdds s s' where
  kept := by
    intro x hx b hb
    obtain ⟨hx', hb'⟩ := hext x hx
    refine ⟨x, hx', b, hb' b hb, ⟨rfl, exactlyEqual_refl _⟩, ?_⟩
    exact (h.live x hx' _ (List.mem_append_right _ (List.mem_map_of_mem (hb' b hb)))).2
  unique := h.unique
  portLive := fun y hy own hown => (h.live y hy own.addr (by simp [owned, hown])).2

/-! ## After the merge -/

section Merge

variable {gone : List Sock}

theorem mem_listeners_merged (h : WellFormed s) (hgone : ∀ y ∈ gone, y ∈ listeners s)
    (hm : Merged s gone s') : x ∈ listeners s' ↔ x ∈ listeners s ∧ x ∉ gone := by
  rw [mem_listeners, mem_listeners, hm.socks, List.mem_filter]
  have hiff : x ∈ s.socks → (x.id ∈ gone.map (·.id) ↔ x ∈ gone) := by
    intro hx
    rw [List.mem_map]
    constructor
    · rintro ⟨y, hy, hid⟩
      exact h.eq_of_id (listeners_subset (hgone y hy)) hx hid ▸ hy
    · exact fun hx => ⟨x, hx, rfl⟩
  constructor
  · rintro ⟨⟨hx, hid⟩, hrest⟩
    exact ⟨⟨hx, hrest⟩, fun hmem => absurd ((hiff hx).mpr hmem) (by simpa using hid)⟩
  · rintro ⟨⟨hx, hrest⟩, hstays⟩
    exact ⟨⟨hx, by simpa using mt (hiff hx).mp hstays⟩, hrest⟩

theorem bindingsOf_merged (h : WellFormed s) (hgone : ∀ y ∈ gone, y ∈ listeners s)
    (hm : Merged s gone s') (hx : x ∈ listeners s) (hstays : x ∉ gone) :
    bindingsOf s' x = bindingsOf s x := by
  have hne : ∀ y ∈ gone, y ≠ x := by
    rintro y hy rfl
    exact hstays hy
  have hid : x.id ∉ gone.map (·.id) := by
    rintro hmem
    obtain ⟨y, hy, hid⟩ := List.mem_map.mp hmem
    exact hne y hy (h.eq_of_id (listeners_subset (hgone y hy)) (listeners_subset hx) hid)
  rw [bindingsOf, bindingsOf, hm.allEars, if_neg hid]
  cases hears : s.allEars x.id with
  | none => rfl
  | some a =>
    have hkeep : ¬ ∃ y ∈ gone, s.allEars y.id = some a := by
      rintro ⟨y, hy, hya⟩
      exact hne y hy (h.own y (hgone y hy) x hx a hya hears)
    rw [Option.bind_some, hm.arrays, if_neg hkeep, Option.bind_some]

theorem mergeLoop_wellFormed (h : WellFormed s) (hgone : ∀ y ∈ gone, y ∈ listeners s)
    (hm : Merged s gone s') : WellFormed s' := by
  have hl := fun y => mem_listeners_merged (x := y) h hgone hm
  have hb : ∀ y ∈ listeners s', bindingsOf s' y = bindingsOf s y := fun y hy =>
    bindingsOf_merged h hgone hm ((hl y).mp hy).1 ((hl y).mp hy).2
  have howned : ∀ y ∈ listeners s', owned s' y = owned s y := fun y hy =>
    owned_eq_of_bindingsOf (hb y hy)
  have hears : ∀ id a, s'.allEars id = some a → s.allEars id = some a := by
    intro id a ha
    rw [hm.allEars] at ha
    split at ha
    · cases ha
    · exact ha
  have hsocks : ∀ y ∈ s'.socks, y ∈ s.socks := by
    intro y hy
    rw [hm.socks] at hy
    exact List.mem_of_mem_filter hy
  obtain ⟨hlive, hapart⟩ := h.held_of_subset s' hm.le
    (fun y hy => ⟨((hl y).mp hy).1, fun p hp => howned y hy ▸ hp⟩)
    (fun p hp => by
      rcases (hm.freed p).mp hp with hold | ⟨z, hz, b, hb, rfl⟩
      · exact Or.inl hold
      · refine Or.inr fun y hy hmem => ?_
        rw [howned y hy] at hmem
        have hzy : z ≠ y := by
          rintro rfl
          exact ((hl z).mp hy).2 hz
        exact h.apart z (hgone z hz) y ((hl y).mp hy).1 hzy _
          (List.mem_append_right _ (List.mem_map_of_mem hb)) hmem)
  refine ⟨?_, ?_, ?_, ?_, ?_, ?_, ?_, hlive, hapart⟩
  · rw [hm.socks]
    exact (List.filter_sublist.map _).nodup h.ids
  · exact fun y hy => Nat.lt_of_lt_of_le (h.idLt y (hsocks y hy)) hm.le
  · intro id a ha
    obtain ⟨hid, ha⟩ := h.earsLt id a (hears id a ha)
    exact ⟨Nat.lt_of_lt_of_le hid hm.le, Nat.lt_of_lt_of_le ha hm.le⟩
  · intro p hp
    rcases (hm.freed p).mp hp with hold | ⟨y, hy, b, hb, rfl⟩
    · exact Nat.lt_of_lt_of_le (h.freedLt p hold) hm.le
    · have hlive := h.live y (hgone y hy) b.port.addr
        (List.mem_append_right _ (List.mem_map_of_mem hb))
      exact Nat.lt_of_lt_of_le hlive.1 hm.le
  · exact fun y hy => h.ports y (hsocks y hy)
  · exact fun y hy z hz a hya hza => h.own y ((hl y).mp hy).1 z ((hl z).mp hz).1 a
      (hears _ a hya) (hears _ a hza)
  · intro y hy
    rw [hb y hy]
    exact h.unique y ((hl y).mp hy).1

end Merge

/-! ## The new listener -/

theorem matching_listeners : ∀ y ∈ s.socks.filter (isMatch port), y ∈ listeners s := by
  intro y hy
  obtain ⟨hy, hmatch⟩ := List.mem_filter.mp hy
  exact mem_listeners_of_isMatch hy hmatch

theorem mem_listeners_replaced (h : WellFormed s)
    (hm : Merged (takeBlock s) (s.socks.filter (isMatch port)) s') :
    x ∈ listeners s' ↔ x ∈ listeners s ∧ isMatch port x = false := by
  rw [mem_listeners_merged (takeBlock_wellFormed h) matching_listeners hm]
  refine and_congr_right fun hx => ?_
  have hx := listeners_subset hx
  simp [hx]

theorem bindingsOf_replaced (h : WellFormed s)
    (hm : Merged (takeBlock s) (s.socks.filter (isMatch port)) s') (hx : x ∈ listeners s)
    (hmatch : isMatch port x = false) : bindingsOf s' x = bindingsOf s x := by
  have hstays : x ∉ s.socks.filter (isMatch port) := by simp [hmatch]
  have hmerged : bindingsOf s' x = bindingsOf (takeBlock s) x :=
    bindingsOf_merged (takeBlock_wellFormed h) matching_listeners hm hx hstays
  exact hmerged

theorem replaced_wellFormed (h : WellFormed s)
    (hm : Merged (takeBlock s) (s.socks.filter (isMatch port)) s') : WellFormed s' :=
  mergeLoop_wellFormed (takeBlock_wellFormed h) matching_listeners hm

/-- What is allocated after a merge has begun is neither freed in it nor held by a listener. -/
theorem fresh_merged (h : WellFormed s)
    (hm : Merged (takeBlock s) (s.socks.filter (isMatch port)) s') {p : Nat} (hp : s.next ≤ p) :
    p ∉ s'.freed ∧ ∀ y ∈ listeners s', p ∉ owned s' y := by
  obtain ⟨hlive, hfree⟩ := h.fresh hp
  refine ⟨fun hfreed => ?_, fun y hy hmem => ?_⟩
  · rcases (hm.freed p).mp hfreed with hold | ⟨y, hy, b, hb, rfl⟩
    · exact hlive hold
    · exact hfree y (matching_listeners y hy) (List.mem_append_right _ (List.mem_map_of_mem hb))
  · obtain ⟨hy, hmatch⟩ := (mem_listeners_replaced h hm).mp hy
    rw [owned_eq_of_bindingsOf (bindingsOf_replaced h hm hy hmatch)] at hmem
    exact hfree y hy hmem

theorem replace_none_wellFormed (h : WellFormed s)
    (hm : Merged (takeBlock s) (s.socks.filter (isMatch port)) s') {bindings : List Bound}
    (hj : JoinedAll (takeBlock s) [] (s.socks.filter (isMatch port)) s'.next bindings) :
    WellFormed (replace s' bindings server ⟨s.next, port⟩ none) := by
  refine freePorts_wellFormed (replaced_wellFormed h hm) fun b hb => ?_
  rcases List.mem_cons.mp hb with rfl | hb
  · exact ⟨hm.le, (fresh_merged h hm (Nat.le_refl _)).2⟩
  · rcases hj.origin b hb with hnil | ⟨⟨hge, hlt⟩, -⟩
    · cases hnil
    · exact ⟨hlt, (fresh_merged h hm (Nat.le_of_succ_le hge)).2⟩

/-- The new listener cannot be made: what the destroyed ones had is gone. -/
theorem replace_none (h : WellFormed s)
    (hm : Merged (takeBlock s) (s.socks.filter (isMatch port)) s') {bindings : List Bound}
    (hj : JoinedAll (takeBlock s) [] (s.socks.filter (isMatch port)) s'.next bindings) :
    OnlyAdds s (replace s' bindings server ⟨s.next, port⟩ none) ↔
      ∀ x ∈ s.socks.filter (isMatch port), ∀ b ∈ bindingsOf s x,
        ∃ y ∈ listeners s, isMatch port y = false ∧ ∃ c ∈ bindingsOf s y, SameBinding c b := by
  have hl := fun y => mem_listeners_replaced (x := y) h hm
  have hb := fun y => bindingsOf_replaced (x := y) h hm
  have hwf' : WellFormed (replace s' bindings server ⟨s.next, port⟩ none) :=
    replace_none_wellFormed h hm hj
  constructor
  · intro hadds x hx b hbx
    obtain ⟨hx, hmatch⟩ := List.mem_filter.mp hx
    obtain ⟨y, hy, c, hc, hsame, -⟩ :=
      hadds.kept x (mem_listeners_of_isMatch hx hmatch) b hbx
    obtain ⟨hy, hstays⟩ := (hl y).mp hy
    have hc : c ∈ bindingsOf s' y := hc
    rw [hb y hy hstays] at hc
    exact ⟨y, hy, hstays, c, hc, hsame⟩
  · intro hstays
    refine ⟨fun x hx b hbx => ?_, hwf'.unique, fun y hy own hown =>
      (hwf'.live y hy own.addr (by simp [owned, hown])).2⟩
    -- the binding itself where the listener stays, the one like it where it does not
    obtain ⟨y, hy, hno, c, hc, hsame⟩ : ∃ y ∈ listeners s, isMatch port y = false ∧
        ∃ c ∈ bindingsOf s y, SameBinding c b := by
      cases hmatch : isMatch port x with
      | false => exact ⟨x, hx, hmatch, b, hbx, rfl, exactlyEqual_refl _⟩
      | true => exact hstays x (List.mem_filter.mpr ⟨listeners_subset hx, hmatch⟩) b hbx
    have hy' : y ∈ listeners (replace s' bindings server ⟨s.next, port⟩ none) :=
      (hl y).mpr ⟨hy, hno⟩
    have hc' : c ∈ bindingsOf (replace s' bindings server ⟨s.next, port⟩ none) y := by
      have hc : c ∈ bindingsOf s' y := (hb y hy hno).symm ▸ hc
      exact hc
    exact ⟨y, hy', c, hc', hsame,
      (hwf'.live y hy' _ (List.mem_append_right _ (List.mem_map_of_mem hc'))).2⟩

section NewListener

variable {bindings : List Bound} {chosen : UInt16}

theorem newListener_wellFormed (h : WellFormed s)
    (hm : Merged (takeBlock s) (s.socks.filter (isMatch port)) s')
    (hj : JoinedAll (takeBlock s) [] (s.socks.filter (isMatch port)) s'.next bindings)
    (hsock : sock = newListener s' ⟨s.next, port⟩ chosen) :
    WellFormed (newArray (enqueueListener s' sock) sock bindings) ∧
      Extends s' (newArray (enqueueListener s' sock) sock bindings) ∧
      Unbound (newArray (enqueueListener s' sock) sock bindings) sock
        ⟨s.next, serverCreated port chosen⟩ := by
  have hwf := replaced_wellFormed h hm
  obtain ⟨hlive, hfree⟩ := fresh_merged h hm (Nat.le_refl _)
  have hwf' : WellFormed (enqueueListener s' sock) :=
    enqueueListener_wellFormed hwf hsock hm.le hlive hfree
  have hmem : sock ∈ listeners (enqueueListener s' sock) :=
    mem_listeners_enqueue.mpr (Or.inr ⟨rfl, by rw [hsock]; rfl, _, by rw [hsock]; rfl⟩)
  have hnil : bindingsOf (enqueueListener s' sock) sock = [] := by
    simp [bindingsOf, enqueueListener, hsock, newListener, hwf.allEars_next]
  have hnew : ∀ b ∈ bindings, s.next < b.port.addr ∧ b.port.addr < s'.next := by
    intro b hb
    rcases hj.origin b hb with hold | ⟨⟨hge, hlt⟩, -⟩
    · cases hold
    · exact ⟨hge, hlt⟩
  obtain ⟨hwf'', hext⟩ := newArray_wellFormed hwf' hmem hnil (hj.unique List.Pairwise.nil)
    fun b hb => by
      obtain ⟨hge, hlt⟩ := hnew b hb
      obtain ⟨hblive, hbfree⟩ := fresh_merged h hm (Nat.le_of_lt hge)
      refine ⟨Nat.lt_succ_of_lt hlt, hblive, fun y hy hne => ?_⟩
      rcases mem_listeners_enqueue.mp hy with hy | ⟨he, -⟩
      · exact hbfree y hy
      · exact absurd he hne
  refine ⟨hwf'', fun y hy => hext y (mem_listeners_enqueue.mpr (Or.inl hy)),
    ⟨Nat.lt_succ_of_lt (Nat.lt_succ_of_lt hm.le), hlive, fun y hy hne => ?_⟩⟩
  rcases mem_listeners_enqueue.mp hy with hold | ⟨he, -⟩
  · have hid : y.id ≠ sock.id := fun he => hne (hwf'.eq_of_id (listeners_subset hy)
      (listeners_subset hmem) he)
    rw [owned_eq_of_bindingsOf (bindingsOf_newArray_of_ne hwf' hid bindings)]
    exact hfree y hold
  · exact absurd he hne

/-- The new binding is among those joined exactly if a destroyed listener had it. -/
theorem findBinding_joined_iff
    (hj : JoinedAll (takeBlock s) [] (s.socks.filter (isMatch port)) s'.next bindings)
    (copy : PortCfg) : findBinding bindings server copy = true ↔
      ∃ x ∈ s.socks.filter (isMatch port), ∃ b ∈ bindingsOf s x,
        b.server = server ∧ exactlyEqual b.port.cfg copy = true := by
  rw [findBinding_eq_true_iff]
  constructor
  · rintro ⟨c, hc, hserver, heq⟩
    rcases hj.origin c hc with hnil | ⟨-, x, hx, b, hb, hsame, hcfg⟩
    · cases hnil
    · exact ⟨x, hx, b, hb, hsame ▸ hserver, hcfg ▸ heq⟩
  · rintro ⟨x, hx, b, hb, hserver, heq⟩
    obtain ⟨c, hc, hsame, hcfg⟩ := hj.kept x hx b hb
    exact ⟨c, hc, hsame.trans hserver, exactlyEqual_trans hcfg heq⟩

theorem replace_some_eq (chosen : UInt16) :
    replace s' bindings server ⟨s.next, port⟩ (some chosen) =
      addServer (newArray (enqueueListener s' (newListener s' ⟨s.next, port⟩ chosen))
        (newListener s' ⟨s.next, port⟩ chosen) bindings) (newListener s' ⟨s.next, port⟩ chosen)
        server ⟨s.next, serverCreated port chosen⟩ := rfl

theorem replace_some_grows (h : WellFormed s)
    (hm : Merged (takeBlock s) (s.socks.filter (isMatch port)) s')
    (hj : JoinedAll (takeBlock s) [] (s.socks.filter (isMatch port)) s'.next bindings)
    (hsock : sock = newListener s' ⟨s.next, port⟩ chosen)
    (hnew : ¬ findBinding bindings server (serverCreated port chosen) = true) :
    WellFormed (replace s' bindings server ⟨s.next, port⟩ (some chosen)) ∧
      Extends (newArray (enqueueListener s' sock) sock bindings)
        (replace s' bindings server ⟨s.next, port⟩ (some chosen)) := by
  obtain ⟨hwf, -, hunbound⟩ := newListener_wellFormed h hm hj hsock
  have hmem : sock ∈ listeners (newArray (enqueueListener s' sock) sock bindings) :=
    mem_listeners_enqueue.mpr (Or.inr ⟨rfl, by rw [hsock]; rfl, _, by rw [hsock]; rfl⟩)
  rw [replace_some_eq, ← hsock]
  refine addServer_grows hwf hmem hunbound fun hfound => ?_
  rw [bindingsOf_newArray_self] at hfound
  exact absurd hfound hnew

/-- The new listener is made: it has all bindings, and its configuration unless this was freed
with the binding to be added. -/
theorem replace_some (h : WellFormed s)
    (hm : Merged (takeBlock s) (s.socks.filter (isMatch port)) s')
    (hj : JoinedAll (takeBlock s) [] (s.socks.filter (isMatch port)) s'.next bindings)
    (chosen : UInt16) :
    OnlyAdds s (replace s' bindings server ⟨s.next, port⟩ (some chosen)) ↔
      ¬ ∃ x ∈ s.socks.filter (isMatch port), ∃ b ∈ bindingsOf s x,
        b.server = server ∧ exactlyEqual b.port.cfg (serverCreated port chosen) = true := by
  rw [← findBinding_joined_iff hj]
  obtain ⟨sock, hsock⟩ : ∃ sock, sock = newListener s' ⟨s.next, port⟩ chosen := ⟨_, rfl⟩
  obtain ⟨-, hext, -⟩ := newListener_wellFormed h hm hj hsock
  have hmem : sock ∈ listeners (newArray (enqueueListener s' sock) sock bindings) :=
    mem_listeners_enqueue.mpr (Or.inr ⟨rfl, by rw [hsock]; rfl, _, by rw [hsock]; rfl⟩)
  have hself := bindingsOf_newArray_self (enqueueListener s' sock) sock bindings
  constructor
  · intro hadds hfound
    have hfreed : replace s' bindings server ⟨s.next, port⟩ (some chosen) =
        freePorts (newArray (enqueueListener s' sock) sock bindings)
          [⟨server, ⟨s.next, serverCreated port chosen⟩⟩] := by
      rw [replace_some_eq, ← hsock, addServer, newArray_allEars_self]
      dsimp only
      rw [hself, if_pos hfound]
    rw [hfreed] at hadds
    refine hadds.portLive sock hmem ⟨s.next, serverCreated port chosen⟩ ?_ List.mem_cons_self
    rw [hsock]
    rfl
  · intro hnew
    obtain ⟨hwf', hext'⟩ := replace_some_grows h hm hj hsock hnew
    refine ⟨fun x hx b hb => ?_, hwf'.unique, fun y hy own hown =>
      (hwf'.live y hy own.addr (by simp [owned, hown])).2⟩
    -- where the binding is now
    obtain ⟨y, hy, c, hc, hsame⟩ : ∃ y ∈ listeners (newArray (enqueueListener s' sock) sock
        bindings), ∃ c ∈ bindingsOf (newArray (enqueueListener s' sock) sock bindings) y,
          SameBinding c b := by
      cases hmatch : isMatch port x with
      | true =>
        obtain ⟨c, hc, hsame⟩ := hj.kept x (List.mem_filter.mpr ⟨listeners_subset hx, hmatch⟩) b hb
        exact ⟨sock, hmem, c, hself.symm ▸ hc, hsame⟩
      | false =>
        obtain ⟨hy, hkept⟩ := hext x ((mem_listeners_replaced h hm).mpr ⟨hx, hmatch⟩)
        have hb' : b ∈ bindingsOf s' x := (bindingsOf_replaced h hm hx hmatch).symm ▸ hb
        exact ⟨x, hy, b, hkept b hb', rfl, exactlyEqual_refl _⟩
    obtain ⟨hy', hc'⟩ := hext' y hy
    exact ⟨y, hy', c, hc' c hc, hsame,
      (hwf'.live y hy' _ (List.mem_append_right _ (List.mem_map_of_mem (hc' c hc)))).2⟩

end NewListener

/-! ## One call -/

theorem replaced_eq (hfind : s.socks.find? (isMatch port) = some sock)
    (hmerge : (port.any && !hasAny sock) = true) :
    replaced s port = s.socks.filter (isMatch port) := by
  rw [replaced, hfind]
  exact if_pos hmerge

theorem replaced_eq_nil (hkeep : ∀ sock, s.socks.find? (isMatch port) = some sock →
    (port.any && !hasAny sock) = false) : replaced s port = [] := by
  unfold replaced
  cases hfind : s.socks.find? (isMatch port) with
  | none => rfl
  | some sock => exact if_neg (by simp [hkeep sock hfind])

/-- A call that replaces no listener adds to what there is. -/
theorem svzServerBind_grows (h : WellFormed s) (interfaces : List UInt32) (server : Nat)
    (outcomes : Nat → Option UInt16) (hnil : replaced s port = []) :
    ∃ s', svzServerBind s interfaces server port outcomes = .ok s' ∧ WellFormed s' ∧
      Extends s s' := by
  cases hany : port.any with
  | true =>
    rw [svzServerBind_any hany]
    refine bindCopy_grows h fun sock hfind => ?_
    by_contra hmerge
    rw [Bool.not_eq_false] at hmerge
    rw [replaced_eq hfind hmerge] at hnil
    have hmem := List.mem_filter.mpr ⟨List.mem_of_find?_eq_some hfind, List.find?_some hfind⟩
    rw [hnil] at hmem
    cases hmem
  | false =>
    refine bindLoop_invariant (fun r => ∃ s', r = .ok s' ∧ WellFormed s' ∧ Extends s s') ?_ 0
      ⟨s, rfl, h, Extends.refl s⟩
    rintro s₁ n copy hcopy ⟨s₂, heq, hwf, hext⟩
    cases heq
    have hcopy' := any_of_mem_expand hany hcopy
    have hkeep : ∀ sock, s₁.socks.find? (isMatch copy) = some sock →
        (copy.any && !hasAny sock) = false := fun sock _ => by simp [hcopy']
    obtain ⟨s', hok, hwf', hext'⟩ := bindCopy_grows hwf hkeep
    exact ⟨s', hok, hwf', hext.trans hext'⟩

/-- The ways of a call: nothing is replaced, or some listeners are. -/
theorem svzServerBind_cases (h : WellFormed s) (interfaces : List UInt32) (server : Nat)
    (port : PortCfg) (outcomes : Nat → Option UInt16) :
    replaced s port = [] ∨
    replaced s port = s.socks.filter (isMatch port) ∧
      svzServerBind s interfaces server port outcomes =
        .ok (replace (mergeLoop (takeBlock s) [] (s.socks.filter (isMatch port))).1
          (mergeLoop (takeBlock s) [] (s.socks.filter (isMatch port))).2 server ⟨s.next, port⟩
          (outcomes 0)) := by
  rcases bindCopy_keep_or_merge s server port (outcomes 0) with
    ⟨-, x, hx, hd⟩ | hkeep | ⟨sock, hfind, hmerge, -, heq⟩
  · exact absurd hd (h.not_dangling x hx)
  · exact Or.inl (replaced_eq_nil hkeep)
  · rw [svzServerBind_any (Bool.and_eq_true_iff.mp hmerge).1, heq]
    exact Or.inr ⟨replaced_eq hfind hmerge, rfl⟩

/-- A call only adds exactly if it does not lose the bindings of listeners that it replaces,
and does not replace a listener that has the binding already. -/
theorem svzServerBind_onlyAdds_iff (h : WellFormed s) (interfaces : List UInt32) (server : Nat)
    (port : PortCfg) (outcomes : Nat → Option UInt16) :
    (∃ s', svzServerBind s interfaces server port outcomes = .ok s' ∧ OnlyAdds s s') ↔
      ¬ Breaks s server port (outcomes 0) := by
  rcases svzServerBind_cases h interfaces server port outcomes with hnil | ⟨hgone, heq⟩
  · obtain ⟨s', hok, hwf, hext⟩ := svzServerBind_grows h interfaces server outcomes hnil
    refine iff_of_true ⟨s', hok, onlyAdds_of_extends hwf hext⟩ ?_
    rintro ⟨x, hx, -⟩
    rw [hnil] at hx
    cases hx
  · have hm := mergeLoop_state (takeBlock s) [] (s.socks.filter (isMatch port))
    have hj := mergeLoop_bindings (takeBlock s) [] (s.socks.filter (isMatch port))
    have hok : ∀ r : State, (∃ s', Except.ok (ε := Fault) r = .ok s' ∧ OnlyAdds s s') ↔
        OnlyAdds s r := by
      intro r
      constructor
      · rintro ⟨s', he, hadds⟩
        cases he
        exact hadds
      · exact fun hadds => ⟨r, rfl, hadds⟩
    rw [heq, hok, Breaks, hgone]
    cases outcomes 0 with
    | none =>
      rw [replace_none h hm hj]
      push Not
      rfl
    | some chosen => exact replace_some h hm hj chosen

theorem initial_wellFormed : WellFormed initial := by
  constructor <;> simp [initial, listeners]

/-- Port 80 of one address. -/
def oneAddress : PortCfg :=
  ⟨.tcp, 0x0a000001, 80, false, false, false, none, 0, "", "", rfl⟩

/-- Port 80 of any address. -/
def anyAddress : PortCfg :=
  ⟨.tcp, 0, 80, true, false, false, none, 0, "", "", rfl⟩

/-- Server 1 is bound to one address. -/
def oneBound : State := create (takeBlock initial) 1 ⟨0, oneAddress⟩ (some 80)

/-- The listener is replaced by one for any address, which has the binding of server 1. -/
theorem svzServerBind_onlyAdds_replaced :
    WellFormed oneBound ∧ replaced oneBound anyAddress = oneBound.socks ∧
      ∃ s', svzServerBind oneBound [] 2 anyAddress (fun _ => some 80) = .ok s' ∧
        OnlyAdds oneBound s' := by
  have hwf : WellFormed oneBound := by
    have hnil : replaced initial oneAddress = [] := rfl
    obtain ⟨s', hok, hwf, -⟩ := svzServerBind_grows initial_wellFormed [] 1 (fun _ => some 80) hnil
    cases hok
    exact hwf
  refine ⟨hwf, rfl, (svzServerBind_onlyAdds_iff hwf [] 2 anyAddress fun _ => some 80).mpr ?_⟩
  rintro ⟨x, hx, b, hb, hserver, -⟩
  have hx : x ∈ oneBound.socks := hx
  cases List.mem_singleton.mp hx
  cases List.mem_singleton.mp hb
  cases hserver

/-- The listener for any address cannot be made: server 1 is not bound any more. -/
theorem not_onlyAdds_anyFails :
    svzServerBind initial [] 1 oneAddress (fun _ => some 80) = .ok oneBound ∧
      ∃ s', svzServerBind oneBound [] 2 anyAddress (fun _ => none) = .ok s' ∧
        ¬ OnlyAdds oneBound s' := by
  refine ⟨rfl, _, rfl, fun hadds => ?_⟩
  obtain ⟨y, hy, -⟩ := hadds.kept ⟨1, true, some ⟨0, oneAddress⟩, .tcp⟩ (by decide)
    ⟨1, ⟨0, oneAddress⟩⟩ (by decide)
  exact absurd hy List.not_mem_nil

end Serveez.Binding
