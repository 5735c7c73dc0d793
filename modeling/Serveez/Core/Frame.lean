import Serveez.Core.Splices

/-!
# Steps that leave the list alone

Looking up a socket, closing descriptors and freeing a socket that is not listed do not
change the list. `Touched p` is the frame of a step that changes attributes only, `Spares p`
that of a step about the socket `p`: what the core remembers of the other sockets is as
before.

* `svzSockFind_spec`: a lookup answers the listed socket with the id and the version.
* `disconnect_touched`: closing the descriptors of a socket touches it and its referrer.
* `coherent_freed`: a socket that is not listed can be freed.
-/

namespace Serveez.Core

open Lib

/-! ## Attributes -/

/-- A socket without its attributes. -/
def Sock.bare (s : Sock) : Sock := { s with attrs := newSock.attrs }

/-- Steps that only change attributes: those of `p` in any way, those of other sockets
without an effect on the validity of their descriptors. -/
structure Touched (p : Addr) (c c' : State) : Prop where
  root : c'.svzSockRoot = c.svzSockRoot
  last : c'.lastSocket = c.lastSocket
  socktab : c'.socktab = c.socktab
  sockId : c'.sockId = c.sockId
  sockVersion : c'.sockVersion = c.sockVersion
  sockLimit : c'.sockLimit = c.sockLimit
  bare : ∀ z, (c'.heap z).map Sock.bare = (c.heap z).map Sock.bare
  valid : ∀ z, z ≠ p → (c'.heap z).map (fun s => descriptorsValid s.attrs) =
    (c.heap z).map (fun s => descriptorsValid s.attrs)

theorem Touched.refl (p : Addr) (c : State) : Touched p c c :=
  ⟨rfl, rfl, rfl, rfl, rfl, rfl, fun _ => rfl, fun _ _ => rfl⟩

variable {p : Addr} {c : State} {l : List Addr} {s : Sock}

theorem Touched.trans {c₁ c₂ c₃ : State} (a : Touched p c₁ c₂) (b : Touched p c₂ c₃) :
    Touched p c₁ c₃ :=
  ⟨b.root.trans a.root, b.last.trans a.last, b.socktab.trans a.socktab, b.sockId.trans a.sockId,
    b.sockVersion.trans a.sockVersion, b.sockLimit.trans a.sockLimit,
    fun z => (b.bare z).trans (a.bare z), fun z hz => (b.valid z hz).trans (a.valid z hz)⟩

/-- A field that the attributes are no part of is the same before and after. -/
theorem Touched.heap_map {α : Type} {c c' : State} (t : Touched p c c') (z : Addr) (f : Sock → α)
    (hf : ∀ s, f s.bare = f s) : (c'.heap z).map f = (c.heap z).map f := by
  have hbare : ∀ o : Option Sock, o.map f = (o.map Sock.bare).map f := by
    intro o
    cases o with
    | none => rfl
    | some s => rw [Option.map_some, Option.map_some, Option.map_some, hf]
  rw [hbare, t.bare z, ← hbare]

theorem Touched.live {c c' : State} (t : Touched p c c') {z : Addr} (hs : c.heap z = some s) :
    ∃ s', c'.heap z = some s' := by
  have h := t.bare z
  rw [hs] at h
  obtain ⟨s', hs', -⟩ := Option.map_eq_some_iff.mp h
  exact ⟨s', hs'⟩

theorem Touched.coherent {c c' : State} (t : Touched p c c') (h : Coherent c l) :
    Coherent c' l := by
  refine h.relink (fun z => t.heap_map z Sock.badge (fun _ => rfl)) (List.Perm.refl l)
    (t.root.trans h.root) (t.last.trans h.last) ?_ t.socktab t.sockId t.sockLimit
  have hjoin : ∀ (d : State) (f : Sock → Option Addr) (z : Addr),
      (d.heap z).bind f = ((d.heap z).map f).join := by
    intro d f z
    cases d.heap z <;> rfl
  refine h.links.congr ?_ ?_
  · intro z _
    unfold State.nextOf
    rw [hjoin, hjoin, t.heap_map z Sock.next (fun _ => rfl)]
  · intro z _
    unfold State.prevOf
    rw [hjoin, hjoin, t.heap_map z Sock.prev (fun _ => rfl)]

theorem storeAttrs_touched {z : Addr} (hs : c.heap z = some s) (p : Addr) (f : Attrs → Attrs)
    (hf : z ≠ p → ∀ a, descriptorsValid (f a) = descriptorsValid a) :
    ∃ c', c.storeAttrs z f = .ok c' ∧ Touched p c c' ∧
      c'.heap z = some { s with attrs := f s.attrs } := by
  refine ⟨_, store_eq hs _, ⟨rfl, rfl, rfl, rfl, rfl, rfl, ?_, ?_⟩, Function.update_self _ _ _⟩
  · intro y
    dsimp only
    by_cases hy : y = z
    · subst hy
      rw [Function.update_self, hs]
      rfl
    · rw [Function.update_of_ne hy]
  · intro y hyp
    dsimp only
    by_cases hy : y = z
    · subst hy
      rw [Function.update_self, hs, Option.map_some, Option.map_some, hf hyp]
    · rw [Function.update_of_ne hy]

/-! ## Lookup -/

theorem Coherent.maskOut_eq_zero_iff (h : Coherent c l) (id : Int32) :
    maskOut id c.sockLimit = 0 ↔ 0 ≤ id.toInt ∧ id.toInt < c.sockLimit := by
  obtain ⟨k, hk, hlimit⟩ := h.limit
  rw [hlimit, Lib.maskOut_eq_zero_iff id (by omega)]
  push_cast
  rfl

/-- The socket at the entry `i` is the only listed one with the id `i`. -/
theorem Coherent.eq_of_entry (h : Coherent c l) {i : Nat} {p q : Addr}
    (he : c.socktab[i]? = some (some p)) (hq : q ∈ l) {t : Sock} (ht : c.heap q = some t)
    (hid : t.id = i) : q = p := by
  have hentry := (h.table i q).mpr ⟨hq, t, ht, hid⟩
  rw [he] at hentry
  exact (Option.some.inj (Option.some.inj hentry)).symm

/-- The socket that `svz_sock_find` looks for. -/
def Wanted (c : State) (l : List Addr) (id version : Int32) (q : Addr) : Prop :=
  q ∈ l ∧ ∃ s, c.heap q = some s ∧ (s.id : Int) = id.toInt ∧ (version = -1 ∨ s.version = version)

/-- `svz_sock_find` answers the listed socket with this id and version. -/
theorem svzSockFind_spec (h : Coherent c l) (id version : Int32) :
    ∃ r, svzSockFind c id version = .ok r ∧ ∀ q, r = some q ↔ Wanted c l id version q := by
  unfold svzSockFind
  by_cases hmask : maskOut id c.sockLimit ≠ 0
  · refine ⟨none, if_pos hmask, ?_⟩
    intro q
    refine iff_of_false (by simp) ?_
    rintro ⟨-, s, hs, hid, -⟩
    have hlt := h.ids q s hs
    exact hmask ((h.maskOut_eq_zero_iff id).mpr ⟨by omega, by omega⟩)
  · rw [if_neg hmask]
    obtain ⟨hpos, hlt⟩ := (h.maskOut_eq_zero_iff id).mp (not_not.mp hmask)
    obtain ⟨i, hi⟩ : ∃ i : Nat, id.toInt = i := ⟨id.toInt.toNat, by omega⟩
    obtain ⟨e, he⟩ : ∃ e, c.socktab[i]? = some e :=
      ⟨_, List.getElem?_eq_getElem (by rw [h.length]; omega)⟩
    rw [hi, Int.toNat_natCast, entry_eq he, ok_bind]
    cases e with
    | none =>
      refine ⟨none, rfl, ?_⟩
      intro q
      refine iff_of_false (by simp) ?_
      rintro ⟨hq, s, hs, hid, -⟩
      have hentry := (h.table i q).mpr ⟨hq, s, hs, by omega⟩
      rw [he] at hentry
      cases hentry
    | some p =>
      obtain ⟨hp, s, hs, hid⟩ := (h.table i p).mp he
      have hwanted : (version = -1 ∨ s.version = version) →
          ∀ q, some p = some q ↔ Wanted c l id version q := by
        intro hver q
        constructor
        · intro hq
          cases hq
          exact ⟨hp, s, hs, by omega, hver⟩
        · rintro ⟨hq, t, ht, htid, -⟩
          rw [h.eq_of_entry he hq ht (by omega)]
      dsimp only
      by_cases hv : version = -1
      · exact ⟨some p, if_pos hv, hwanted (Or.inl hv)⟩
      · rw [if_neg hv, load_eq hs, ok_bind]
        by_cases hsv : s.version = version
        · exact ⟨some p, if_neg (not_not.mpr hsv), hwanted (Or.inr hsv)⟩
        · refine ⟨none, if_pos hsv, ?_⟩
          intro q
          refine iff_of_false (by simp) ?_
          rintro ⟨hq, t, ht, htid, htv⟩
          obtain rfl := h.eq_of_entry he hq ht (by omega)
          rw [hs] at ht
          cases ht
          exact htv.elim hv hsv

/-! ## Disconnecting -/

theorem svzSockDisconnect_touched (hs : c.heap p = some s) :
    ∃ c', svzSockDisconnect c p = .ok c' ∧ Touched p c c' := by
  unfold svzSockDisconnect
  rw [load_eq hs, ok_bind]
  split
  · obtain ⟨c', hc', ht, -⟩ := storeAttrs_touched
      (c := { c with svzSockConnections := c.svzSockConnections - 1 }) hs p
      (fun a => { a with sockDesc := invalid }) (fun hne => absurd rfl hne)
    exact ⟨c', hc', ht.root, ht.last, ht.socktab, ht.sockId, ht.sockVersion, ht.sockLimit,
      ht.bare, ht.valid⟩
  · obtain ⟨c', hc', ht, -⟩ := storeAttrs_touched hs p
      (fun a => { a with sockDesc := invalid }) (fun hne => absurd rfl hne)
    exact ⟨c', hc', ht⟩

theorem storeReferrer_touched (h : Coherent c l) (p : Addr) (sock : Sock) {f : Attrs → Attrs}
    (hf : ∀ a, descriptorsValid (f a) = descriptorsValid a) :
    ∃ c', c.storeReferrer sock f = .ok c' ∧ Touched p c c' := by
  obtain ⟨r, hr, hfind⟩ := svzSockFind_spec h sock.attrs.referrerId sock.attrs.referrerVersion
  unfold State.storeReferrer svzSockGetreferrer
  rw [hr, ok_bind]
  cases r with
  | none => exact ⟨c, rfl, Touched.refl p c⟩
  | some q =>
    obtain ⟨-, t, ht, -⟩ := (hfind q).mp rfl
    obtain ⟨c', hc', htouch, -⟩ := storeAttrs_touched ht p f (fun _ => hf)
    exact ⟨c', hc', htouch⟩

/-- The branches of `svz_pipe_disconnect`: the referrer is changed, then the pipes of `p`. -/
theorem storeReferrer_noPipes_touched (h : Coherent c l) (hs : c.heap p = some s)
    {f : Attrs → Attrs} (hf : ∀ a, descriptorsValid (f a) = descriptorsValid a) :
    ∃ c', (c.storeReferrer s f >>= fun c => c.storeAttrs p Attrs.noPipes) = .ok c' ∧
      Touched p c c' := by
  obtain ⟨c₁, hc₁, ht₁⟩ := storeReferrer_touched h p s hf
  obtain ⟨s₁, hs₁⟩ := ht₁.live hs
  obtain ⟨c₂, hc₂, ht₂, -⟩ := storeAttrs_touched hs₁ p Attrs.noPipes (fun hne => absurd rfl hne)
  exact ⟨c₂, by rw [hc₁, ok_bind, hc₂], ht₁.trans ht₂⟩

theorem svzPipeDisconnect_touched (h : Coherent c l) (hs : c.heap p = some s) :
    ∃ c', svzPipeDisconnect c p = .ok c' ∧ Touched p c c' := by
  have hconnected : ∃ c', disconnectConnected c p = .ok c' ∧ Touched p c c' := by
    unfold disconnectConnected
    rw [load_eq hs, ok_bind]
    split
    · exact storeReferrer_noPipes_touched h hs (fun _ => rfl)
    · exact ⟨c, rfl, Touched.refl p c⟩
  obtain ⟨c₁, hc₁, ht₁⟩ := hconnected
  obtain ⟨s₁, hs₁⟩ := ht₁.live hs
  have hlistening : ∃ c', disconnectListening c₁ p = .ok c' ∧ Touched p c₁ c' := by
    unfold disconnectListening
    rw [load_eq hs₁, ok_bind]
    split
    · exact storeReferrer_noPipes_touched (ht₁.coherent h) hs₁ (fun _ => rfl)
    · exact ⟨c₁, rfl, Touched.refl p c₁⟩
  obtain ⟨c₂, hc₂, ht₂⟩ := hlistening
  refine ⟨c₂, ?_, ht₁.trans ht₂⟩
  unfold svzPipeDisconnect
  rw [hc₁, ok_bind, hc₂]

/-- Both descriptors are closed before the socket is freed. -/
theorem disconnect_touched (h : Coherent c l) (hs : c.heap p = some s) :
    ∃ c₁ c₂, disconnectSock c p = .ok c₁ ∧ disconnectPipe c₁ p = .ok c₂ ∧ Touched p c c₂ := by
  have hsock : ∃ c', disconnectSock c p = .ok c' ∧ Touched p c c' := by
    unfold disconnectSock
    rw [load_eq hs, ok_bind]
    split
    · exact svzSockDisconnect_touched hs
    · exact ⟨c, rfl, Touched.refl p c⟩
  obtain ⟨c₁, hc₁, ht₁⟩ := hsock
  obtain ⟨s₁, hs₁⟩ := ht₁.live hs
  have hpipe : ∃ c', disconnectPipe c₁ p = .ok c' ∧ Touched p c₁ c' := by
    unfold disconnectPipe
    rw [load_eq hs₁, ok_bind]
    split
    · exact svzPipeDisconnect_touched (ht₁.coherent h) hs₁
    · exact ⟨c₁, rfl, Touched.refl p c₁⟩
  obtain ⟨c₂, hc₂, ht₂⟩ := hpipe
  exact ⟨c₁, c₂, hc₁, hc₂, ht₁.trans ht₂⟩

/-! ## The other sockets -/

/-- What the core remembers of a socket besides its place in the list. -/
def Sock.stamp (s : Sock) : Nat × Int32 × Bool × Bool :=
  (s.id, s.version, s.enqueued, descriptorsValid s.attrs)

/-- A step that is about `p` alone. -/
structure Spares (p : Addr) (c c' : State) : Prop where
  sockId : c'.sockId = c.sockId
  sockVersion : c'.sockVersion = c.sockVersion
  sockLimit : c'.sockLimit = c.sockLimit
  others : ∀ z, z ≠ p → (c'.heap z).map Sock.stamp = (c.heap z).map Sock.stamp

theorem Spares.trans {c₁ c₂ c₃ : State} (a : Spares p c₁ c₂) (b : Spares p c₂ c₃) :
    Spares p c₁ c₃ :=
  ⟨b.sockId.trans a.sockId, b.sockVersion.trans a.sockVersion, b.sockLimit.trans a.sockLimit,
    fun z hz => (b.others z hz).trans (a.others z hz)⟩

theorem Touched.spares {c c' : State} (t : Touched p c c') : Spares p c c' := by
  refine ⟨t.sockId, t.sockVersion, t.sockLimit, ?_⟩
  intro z hz
  have hbare := t.heap_map z (fun s => (s.id, s.version, s.enqueued)) (fun _ => rfl)
  have hvalid := t.valid z hz
  cases hc : c.heap z with
  | none =>
    rw [hc] at hbare
    rw [Option.map_eq_none_iff.mp hbare]
  | some s =>
    rw [hc] at hbare hvalid
    obtain ⟨s', hs', heq⟩ := Option.map_eq_some_iff.mp hbare
    rw [hs'] at hvalid ⊢
    simp only [Option.map_some, Option.some.injEq, Prod.mk.injEq, Sock.stamp] at heq hvalid ⊢
    exact ⟨heq.1, heq.2.1, heq.2.2, hvalid⟩

theorem unlinked_spares (c : State) (p : Addr) (s : Sock) : Spares p c (unlinked c p s) := by
  refine ⟨rfl, rfl, rfl, ?_⟩
  intro z hz
  change (if z = p then _ else _ : Option Sock).map Sock.stamp = _
  rw [if_neg hz]
  cases c.heap z <;> rfl

theorem appended_spares (c : State) (p : Addr) (s : Sock) : Spares p c (appended c p s) := by
  refine ⟨rfl, rfl, rfl, ?_⟩
  intro z hz
  change (if z = p then _ else _ : Option Sock).map Sock.stamp = _
  rw [if_neg hz]
  cases c.heap z <;> rfl

theorem rechained_spares (c : State) (sock : Addr) (s : Sock) (before : Option Addr) (q e : Addr) :
    Spares sock c (rechained c sock s before q e) := by
  refine ⟨rfl, rfl, rfl, ?_⟩
  intro z hz
  change (if z = sock then _ else _ : Option Sock).map Sock.stamp = _
  rw [if_neg hz]
  cases c.heap z <;> rfl

def freed (c : State) (p : Addr) : State := { c with heap := Function.update c.heap p none }

theorem svzSockFree_eq (hs : c.heap p = some s) :
    svzSockFree c p = .ok (freed c p) := by
  unfold svzSockFree
  rw [load_eq hs]
  rfl

theorem freed_spares (c : State) (p : Addr) : Spares p c (freed c p) := by
  refine ⟨rfl, rfl, rfl, ?_⟩
  intro z hz
  change (Function.update c.heap p none z).map _ = _
  rw [Function.update_of_ne hz]

/-- A block that is no listed socket can become any other unlisted socket, or be freed. -/
theorem coherent_update (h : Coherent c l) (hp : p ∉ l) {o : Option Sock}
    (ho : ∀ s, o = some s → s.enqueued = false ∧ s.id < c.sockLimit) :
    Coherent { c with heap := Function.update c.heap p o } l := by
  have hself : Function.update c.heap p o p = o := Function.update_self _ _ _
  have hother : ∀ z, z ≠ p → Function.update c.heap p o z = c.heap z :=
    fun z hz => Function.update_of_ne hz _ _
  have hne : ∀ z ∈ l, z ≠ p := fun z hz heq => hp (heq ▸ hz)
  refine ⟨h.nodup, h.root, h.last, ?_, ?_, ?_, ?_, h.length, h.limit, h.cursor⟩
  · refine h.links.congr ?_ ?_
    · intro z hz
      unfold State.nextOf
      dsimp only
      rw [hother z (hne z hz)]
    · intro z hz
      unfold State.prevOf
      dsimp only
      rw [hother z (hne z hz)]
  · intro z
    dsimp only
    by_cases hz : z = p
    · subst hz
      rw [hself]
      refine iff_of_false hp ?_
      rintro ⟨s, hs, hen⟩
      simp [(ho s hs).1] at hen
    · rw [hother z hz, h.enqueued]
  · intro i z
    dsimp only
    rw [h.table]
    by_cases hz : z = p
    · subst hz
      simp [hp]
    · rw [hother z hz]
  · intro z s hs
    dsimp only at hs
    by_cases hz : z = p
    · subst hz
      rw [hself] at hs
      exact (ho s hs).2
    · exact h.ids z s (hother z hz ▸ hs)

theorem coherent_freed (h : Coherent c l) (hp : p ∉ l) :
    Coherent (freed c p) l := by
  refine coherent_update h hp ?_
  intro s hs
  cases hs

end Serveez.Core
