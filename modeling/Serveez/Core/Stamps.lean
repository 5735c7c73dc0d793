import Serveez.Core.Coherence

/-!
# Ids and versions

`svz_sock_unique_id` is the only function that writes the id and the version of a socket. This is so
whatever the list looks like.

* `store_keepsIds`: a write of other fields.
* `apply_stamps`: every operation but an allocation.
-/

namespace Serveez.Core

variable {c c' c'' : State}

theorem KeepsIds.refl (c : State) : KeepsIds c c :=
  ⟨rfl, rfl, fun _ s hs => ⟨s, hs, rfl, rfl⟩⟩

theorem KeepsIds.trans (h : KeepsIds c c') (h' : KeepsIds c' c'') : KeepsIds c c'' := by
  refine ⟨h'.sockVersion.trans h.sockVersion, h'.sockLimit.trans h.sockLimit, fun z s'' hs'' => ?_⟩
  obtain ⟨s', hs', hid', hversion'⟩ := h'.heap z s'' hs''
  obtain ⟨s, hs, hid, hversion⟩ := h.heap z s' hs'
  exact ⟨s, hs, hid.trans hid', hversion.trans hversion'⟩

/-- The function changes no id and no version. -/
def Stamped (f : Sock → Sock) : Prop := ∀ s, (f s).id = s.id ∧ (f s).version = s.version

theorem store_keepsIds {p : Addr} {f : Sock → Sock} (hstore : c.store p f = .ok c')
    (hf : Stamped f) : KeepsIds c c' := by
  obtain ⟨s, hload, hstore⟩ := of_bind_eq_ok hstore
  obtain rfl := Except.ok.inj hstore
  have hs : c.heap p = some s := by
    unfold State.load at hload
    split at hload
    · cases hload
    · next t ht =>
      obtain rfl := Except.ok.inj hload
      exact ht
  refine ⟨rfl, rfl, fun z t ht => ?_⟩
  by_cases hz : z = p
  · subst hz
    dsimp only at ht
    rw [Function.update_self] at ht
    obtain rfl := Option.some.inj ht
    exact ⟨s, hs, (hf s).1.symm, (hf s).2.symm⟩
  · dsimp only at ht
    rw [Function.update_of_ne hz] at ht
    exact ⟨t, ht, rfl, rfl⟩

theorem setEntry_keepsIds {i : Nat} {e : Option Addr} (hset : c.setEntry i e = .ok c') :
    KeepsIds c c' := by
  unfold State.setEntry at hset
  split at hset
  · obtain rfl := Except.ok.inj hset
    exact ⟨rfl, rfl, fun _ s hs => ⟨s, hs, rfl, rfl⟩⟩
  · cases hset

theorem linkLast_keepsIds {p : Addr} (hlink : linkLast c p = .ok c') : KeepsIds c c' := by
  unfold linkLast at hlink
  split at hlink
  · obtain rfl := Except.ok.inj hlink
    exact ⟨rfl, rfl, fun _ s hs => ⟨s, hs, rfl, rfl⟩⟩
  · obtain ⟨last, -, hlink⟩ := of_bind_eq_ok hlink
    obtain ⟨c₁, hfirst, hlink⟩ := of_bind_eq_ok hlink
    exact (store_keepsIds hfirst fun _ => ⟨rfl, rfl⟩).trans
      (store_keepsIds hlink fun _ => ⟨rfl, rfl⟩)

theorem svzSockEnqueue_keepsIds {p : Addr} {r : Int} (hrun : svzSockEnqueue c p = .ok (c', r)) :
    KeepsIds c c' := by
  rcases svzSockEnqueue_cases hrun with
    ⟨rfl, -⟩ | ⟨-, sock, c₁, c₂, c₃, -, h₁, h₂, h₃, h₄⟩
  · exact KeepsIds.refl c'
  · have hlast : KeepsIds c₂ { c₂ with lastSocket := some p } :=
      ⟨rfl, rfl, fun _ s hs => ⟨s, hs, rfl, rfl⟩⟩
    exact (((store_keepsIds h₁ fun _ => ⟨rfl, rfl⟩).trans (linkLast_keepsIds h₂)).trans
      hlast).trans ((store_keepsIds h₃ fun _ => ⟨rfl, rfl⟩).trans (setEntry_keepsIds h₄))

theorem setPrevOfNext_keepsIds {next v : Option Addr} (hset : c.setPrevOfNext next v = .ok c') :
    KeepsIds c c' := by
  cases next with
  | some z =>
    have hstore : c.store z (fun s => { s with prev := v }) = .ok c' := hset
    exact store_keepsIds hstore fun _ => ⟨rfl, rfl⟩
  | none =>
    obtain rfl := Except.ok.inj hset
    exact ⟨rfl, rfl, fun _ s hs => ⟨s, hs, rfl, rfl⟩⟩

theorem setNextOfPrev_keepsIds {prev v : Option Addr} (hset : c.setNextOfPrev prev v = .ok c') :
    KeepsIds c c' := by
  cases prev with
  | some z =>
    have hstore : c.store z (fun s => { s with next := v }) = .ok c' := hset
    exact store_keepsIds hstore fun _ => ⟨rfl, rfl⟩
  | none =>
    obtain rfl := Except.ok.inj hset
    exact ⟨rfl, rfl, fun _ s hs => ⟨s, hs, rfl, rfl⟩⟩

theorem dequeue_keepsIds {p : Addr} {r : Int} (hrun : dequeue c p = .ok (c', r)) :
    KeepsIds c c' := by
  rcases dequeue_cases hrun with
    ⟨rfl, -⟩ | ⟨-, sock, c₁, c₂, c₃, -, h₁, h₂, h₃, h₄⟩
  · exact KeepsIds.refl c'
  · exact ((setPrevOfNext_keepsIds h₁).trans (setNextOfPrev_keepsIds h₂)).trans
      ((store_keepsIds h₃ fun _ => ⟨rfl, rfl⟩).trans (setEntry_keepsIds h₄))

theorem putAfter_keepsIds {sock : Addr} {l : Option Addr} (hput : putAfter c sock l = .ok c') :
    KeepsIds c c' := by
  cases l with
  | some l =>
    have hbehind : putBehind c sock l = .ok c' := hput
    unfold putBehind at hbehind
    obtain ⟨ll, -, hbehind⟩ := of_bind_eq_ok hbehind
    obtain ⟨c₁, h₁, hbehind⟩ := of_bind_eq_ok hbehind
    obtain ⟨next, -, hbehind⟩ := of_bind_eq_ok hbehind
    obtain ⟨c₂, h₂, hbehind⟩ := of_bind_eq_ok hbehind
    obtain ⟨c₃, h₃, hbehind⟩ := of_bind_eq_ok hbehind
    exact ((store_keepsIds h₁ fun _ => ⟨rfl, rfl⟩).trans
      (store_keepsIds h₂ fun _ => ⟨rfl, rfl⟩)).trans
      ((store_keepsIds h₃ fun _ => ⟨rfl, rfl⟩).trans
        (store_keepsIds hbehind fun _ => ⟨rfl, rfl⟩))
  | none =>
    have hroot : putAtRoot c sock = .ok c' := hput
    unfold putAtRoot at hroot
    obtain ⟨c₁, h₁, hroot⟩ := of_bind_eq_ok hroot
    obtain ⟨next, -, hroot⟩ := of_bind_eq_ok hroot
    obtain ⟨c₂, h₂, hroot⟩ := of_bind_eq_ok hroot
    obtain rfl := Except.ok.inj hroot
    exact ((store_keepsIds h₁ fun _ => ⟨rfl, rfl⟩).trans
      (store_keepsIds h₂ fun _ => ⟨rfl, rfl⟩)).trans
      ⟨rfl, rfl, fun _ s hs => ⟨s, hs, rfl, rfl⟩⟩

theorem rechainListOfSocks_keepsIds (hrun : rechainListOfSocks c = .ok c') : KeepsIds c c' := by
  unfold rechainListOfSocks at hrun
  split at hrun
  · obtain rfl := Except.ok.inj hrun
    exact KeepsIds.refl c
  · obtain ⟨s, -, hrun⟩ := of_bind_eq_ok hrun
    split at hrun
    · obtain rfl := Except.ok.inj hrun
      exact KeepsIds.refl c
    · obtain ⟨q, -, hrun⟩ := of_bind_eq_ok hrun
      split at hrun
      · obtain rfl := Except.ok.inj hrun
        exact KeepsIds.refl c
      · split at hrun
        · obtain rfl := Except.ok.inj hrun
          exact KeepsIds.refl c
        · obtain ⟨t, -, hrun⟩ := of_bind_eq_ok hrun
          obtain ⟨c₁, h₁, hrun⟩ := of_bind_eq_ok hrun
          obtain ⟨c₂, h₂, hrun⟩ := of_bind_eq_ok hrun
          obtain rfl := Except.ok.inj hrun
          exact ((putAfter_keepsIds h₁).trans (store_keepsIds h₂ fun _ => ⟨rfl, rfl⟩)).trans
            ⟨rfl, rfl, fun _ s hs => ⟨s, hs, rfl, rfl⟩⟩

theorem storeAttrs_keepsIds {p : Addr} {f : Attrs → Attrs} (hstore : c.storeAttrs p f = .ok c') :
    KeepsIds c c' := by
  have hs : c.store p (fun s => { s with attrs := f s.attrs }) = .ok c' := hstore
  exact store_keepsIds hs fun _ => ⟨rfl, rfl⟩

theorem storeReferrer_keepsIds {sock : Sock} {f : Attrs → Attrs}
    (hstore : c.storeReferrer sock f = .ok c') : KeepsIds c c' := by
  unfold State.storeReferrer at hstore
  obtain ⟨r, -, hstore⟩ := of_bind_eq_ok hstore
  cases r with
  | some rsock => exact storeAttrs_keepsIds hstore
  | none =>
    obtain rfl := Except.ok.inj hstore
    exact KeepsIds.refl c

theorem disconnectSock_keepsIds {p : Addr} (hrun : disconnectSock c p = .ok c') :
    KeepsIds c c' := by
  unfold disconnectSock at hrun
  obtain ⟨sock, -, hrun⟩ := of_bind_eq_ok hrun
  split at hrun
  · obtain ⟨s, -, hrun⟩ := of_bind_eq_ok hrun
    have hkeep := storeAttrs_keepsIds hrun
    split at hkeep
    · exact ⟨hkeep.sockVersion, hkeep.sockLimit, hkeep.heap⟩
    · exact hkeep
  · obtain rfl := Except.ok.inj hrun
    exact KeepsIds.refl c

theorem disconnectBranch_keepsIds {p : Addr} {sock : Sock} {branch : Bool} {f : Attrs → Attrs}
    (hrun : (if branch = true then do
        let c ← c.storeReferrer sock f
        c.storeAttrs p Attrs.noPipes
      else return c) = .ok c') : KeepsIds c c' := by
  split at hrun
  · obtain ⟨c₁, h₁, hrun⟩ := of_bind_eq_ok hrun
    exact (storeReferrer_keepsIds h₁).trans (storeAttrs_keepsIds hrun)
  · obtain rfl := Except.ok.inj hrun
    exact KeepsIds.refl c

theorem disconnectPipe_keepsIds {p : Addr} (hrun : disconnectPipe c p = .ok c') :
    KeepsIds c c' := by
  unfold disconnectPipe at hrun
  obtain ⟨sock, -, hrun⟩ := of_bind_eq_ok hrun
  split at hrun
  · obtain ⟨c₁, h₁, h₂⟩ := of_bind_eq_ok hrun
    obtain ⟨s₁, -, h₁⟩ := of_bind_eq_ok h₁
    obtain ⟨s₂, -, h₂⟩ := of_bind_eq_ok h₂
    exact (disconnectBranch_keepsIds h₁).trans (disconnectBranch_keepsIds h₂)
  · obtain rfl := Except.ok.inj hrun
    exact KeepsIds.refl c

theorem svzSockFree_keepsIds {p : Addr} (hrun : svzSockFree c p = .ok c') : KeepsIds c c' := by
  obtain ⟨s, -, hrun⟩ := of_bind_eq_ok hrun
  obtain rfl := Except.ok.inj hrun
  refine ⟨rfl, rfl, fun z t ht => ?_⟩
  dsimp only at ht
  rw [Function.update_apply] at ht
  split at ht
  · cases ht
  · exact ⟨t, ht, rfl, rfl⟩

theorem svzSockShutdown_keepsIds {p : Addr} {callback : Callback}
    (hrun : svzSockShutdown c p callback = .ok c') : KeepsIds c c' := by
  unfold svzSockShutdown at hrun
  obtain ⟨c₁, h₁, hrun⟩ := of_bind_eq_ok hrun
  obtain ⟨⟨c₂, r⟩, h₂, hrun⟩ := of_bind_eq_ok hrun
  obtain ⟨c₃, h₃, hrun⟩ := of_bind_eq_ok hrun
  obtain ⟨c₄, h₄, hrun⟩ := of_bind_eq_ok hrun
  have hcallback : KeepsIds c c₁ := by
    cases callback with
    | some a =>
      have hstore : c.storeAttrs p (fun _ => a) = .ok c₁ := h₁
      exact storeAttrs_keepsIds hstore
    | none =>
      obtain rfl := Except.ok.inj h₁
      exact KeepsIds.refl c
  exact ((hcallback.trans (dequeue_keepsIds h₂)).trans (disconnectSock_keepsIds h₃)).trans
    ((disconnectPipe_keepsIds h₄).trans (svzSockFree_keepsIds hrun))

theorem apply_stamps {op : Op} (hop : op.isAllocate = false) (hrun : op.apply c = .ok c') :
    KeepsIds c c' := by
  cases op with
  | allocate p => cases hop
  | modify p attrs =>
    have hstore : c.storeAttrs p (fun _ => attrs) = .ok c' := hrun
    exact storeAttrs_keepsIds hstore
  | enqueue p =>
    obtain ⟨⟨c₁, r⟩, h₁, hrun⟩ := of_bind_eq_ok hrun
    obtain rfl := Except.ok.inj hrun
    exact svzSockEnqueue_keepsIds h₁
  | shutdown p callback => exact svzSockShutdown_keepsIds hrun
  | rechain => exact rechainListOfSocks_keepsIds hrun

end Serveez.Core
