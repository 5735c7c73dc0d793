import Serveez.Nut.Route

/-!
# The time to live of forwarded packets

A packet that `nut_validate_packet` accepts has lost one from its time to live and is within the
maximum, but its hop count is a byte and goes from 255 to 0. A packet that it declares dead is
not routed; `nut_route` returns zero for it all the same, and so the handler of push requests
passes it on.

* `hopsAndTtls_ok_iff`, `hopsAndTtls_accepted`: which headers are accepted, and what is left of
  them.
* `handlePacket_forwards`: the header of every copy is the validated one, and only a push
  request is passed on without having been accepted.
* `disciplined_iff`: for which packets the time to live is kept in order in every state.
-/

namespace Serveez.Nut

/-! ## Hops and time to live -/

theorem decreaseTtl_eq (maxTtl : Nat) (hdr : NutHeader) :
    decreaseTtl maxTtl hdr = { hdr with ttl := (decreaseTtl maxTtl hdr).ttl } := by
  unfold decreaseTtl
  dsimp only
  split_ifs <;> rfl

/-- Validation changes the hop count and the time to live only. -/
theorem hopsAndTtls_eq (maxTtl : Nat) (hdr : NutHeader) :
    (hopsAndTtls maxTtl hdr).2 =
      { hdr with
        ttl := (hopsAndTtls maxTtl hdr).2.ttl
        hop := (hopsAndTtls maxTtl hdr).2.hop } := by
  unfold hopsAndTtls
  dsimp only
  split_ifs
  · rfl
  · rfl
  · rfl
  · rw [decreaseTtl_eq]

@[simp] theorem hopsAndTtls_function (maxTtl : Nat) (hdr : NutHeader) :
    (hopsAndTtls maxTtl hdr).2.function = hdr.function := by rw [hopsAndTtls_eq]

@[simp] theorem hopsAndTtls_id (maxTtl : Nat) (hdr : NutHeader) :
    (hopsAndTtls maxTtl hdr).2.id = hdr.id := by rw [hopsAndTtls_eq]

@[simp] theorem hopsAndTtls_length (maxTtl : Nat) (hdr : NutHeader) :
    (hopsAndTtls maxTtl hdr).2.length = hdr.length := by rw [hopsAndTtls_eq]

theorem toNat_ofNat_of_le_fifty {n : Nat} (h : n ≤ 50) : (UInt8.ofNat n).toNat = n :=
  UInt8.toNat_ofNat_of_lt' (Nat.lt_of_le_of_lt h (by decide))

variable {hdr : NutHeader} {packet : List UInt8} {maxTtl : Nat}

/-- Both rules together cut the time to live to what the maximum leaves above the hops. -/
theorem decreaseTtl_ttl (hdr : NutHeader) (hhop : hdr.hop.toNat ≤ maxTtl)
    (httl : hdr.ttl.toNat ≤ 50) :
    (decreaseTtl maxTtl hdr).ttl.toNat = min hdr.ttl.toNat (maxTtl - hdr.hop.toNat) := by
  unfold decreaseTtl
  by_cases hmax : hdr.ttl.toNat > maxTtl
  · have hcut := toNat_ofNat_of_le_fifty (n := maxTtl) (by omega)
    have hcut' := toNat_ofNat_of_le_fifty (n := maxTtl - hdr.hop.toNat) (by omega)
    simp only [if_pos hmax, hcut]
    split_ifs with hsum
    · rw [hcut']
      omega
    · rw [hcut]
      omega
  · simp only [if_neg hmax]
    split_ifs with hsum
    · rw [toNat_ofNat_of_le_fifty (by omega)]
      omega
    · omega

theorem toNat_pred {ttl : UInt8} (h : ¬ ttl ≤ 1) : (ttl - 1).toNat = ttl.toNat - 1 := by
  have hle : (1 : UInt8) ≤ ttl := by
    rw [UInt8.le_iff_toNat_le] at h ⊢
    exact Nat.le_of_lt (Nat.lt_of_not_le h)
  exact UInt8.toNat_sub_of_le _ _ hle

theorem hopsAndTtls_ok_iff :
    (hopsAndTtls maxTtl hdr).1 = .ok ↔
      2 ≤ hdr.ttl.toNat ∧ hdr.ttl.toNat ≤ 51 ∧ (hdr.hop + 1).toNat ≤ maxTtl := by
  unfold hopsAndTtls
  by_cases hdead : hdr.ttl ≤ 1
  · rw [if_pos hdead]
    rw [UInt8.le_iff_toNat_le] at hdead
    have hone : (1 : UInt8).toNat = 1 := rfl
    refine ⟨nofun, fun h => ?_⟩
    omega
  · have hpred := toNat_pred hdead
    rw [if_neg hdead]
    rw [UInt8.le_iff_toNat_le, show (1 : UInt8).toNat = 1 from rfl] at hdead
    dsimp only
    by_cases hhop : (hdr.hop + 1).toNat > maxTtl
    · rw [if_pos hhop]
      refine ⟨nofun, fun h => ?_⟩
      omega
    · rw [if_neg hhop]
      by_cases hbig : hdr.ttl - 1 > 50
      · rw [if_pos hbig]
        rw [gt_iff_lt, UInt8.lt_iff_toNat_lt, hpred, show (50 : UInt8).toNat = 50 from rfl] at hbig
        refine ⟨nofun, fun h => ?_⟩
        omega
      · rw [if_neg hbig]
        rw [gt_iff_lt, UInt8.lt_iff_toNat_lt, hpred, show (50 : UInt8).toNat = 50 from rfl] at hbig
        refine ⟨fun _ => ⟨?_, ?_, ?_⟩, fun _ => rfl⟩ <;> omega

theorem hopsAndTtls_accepted (h : (hopsAndTtls maxTtl hdr).1 = .ok) :
    (hopsAndTtls maxTtl hdr).2.ttl < hdr.ttl ∧
      (hopsAndTtls maxTtl hdr).2.hop = hdr.hop + 1 ∧
      (hopsAndTtls maxTtl hdr).2.ttl.toNat + (hopsAndTtls maxTtl hdr).2.hop.toNat ≤ maxTtl := by
  obtain ⟨hlow, hhigh, hhop⟩ := hopsAndTtls_ok_iff.mp h
  have hdead : ¬ hdr.ttl ≤ 1 := by
    rw [UInt8.le_iff_toNat_le, show (1 : UInt8).toNat = 1 from rfl]
    omega
  have hpred := toNat_pred hdead
  have hbig : ¬ hdr.ttl - 1 > 50 := by
    rw [gt_iff_lt, UInt8.lt_iff_toNat_lt, hpred, show (50 : UInt8).toNat = 50 from rfl]
    omega
  have hfinal : hopsAndTtls maxTtl hdr =
      (.ok, decreaseTtl maxTtl { hdr with hop := hdr.hop + 1, ttl := hdr.ttl - 1 }) := by
    unfold hopsAndTtls
    simp only [if_neg hdead, if_neg (Nat.not_lt.mpr hhop), if_neg hbig]
  have httl := decreaseTtl_ttl { hdr with hop := hdr.hop + 1, ttl := hdr.ttl - 1 } hhop
    (by dsimp only; omega)
  rw [hfinal, UInt8.lt_iff_toNat_lt, decreaseTtl_eq]
  dsimp only at httl ⊢
  rw [httl]
  exact ⟨by omega, rfl, by omega⟩

/-! ## The headers of copies -/

theorem foldl_routeInternal_hdr (w : World) (hdr : NutHeader) (body : List UInt8) (avoid : Nat)
    (conn : List Nat) :
    ∀ x : RouteClosure, (∀ copy ∈ x.copies, copy.hdr = hdr) →
      ∀ copy ∈ (conn.foldl (routeInternal w hdr body avoid) x).copies, copy.hdr = hdr := by
  induction conn with
  | nil => exact fun _ h => h
  | cons sock conn ih =>
    intro x h
    apply ih
    unfold routeInternal
    split_ifs
    · exact h
    · intro copy hcopy
      rcases List.mem_append.mp hcopy with hcopy | hcopy
      · exact h copy hcopy
      · rw [List.mem_singleton.mp hcopy, sendCopy_hdr]

theorem nutRoute_forwards {w : World} {nut : NutConfig} {sock : Nat} :
    (nutRoute w nut sock hdr packet).hdr = (nutValidatePacket w.now nut sock hdr packet).2.2 ∧
    ∀ copy ∈ (nutRoute w nut sock hdr packet).forwards,
      (nutValidatePacket w.now nut sock hdr packet).2.1 = .ok ∧
        copy.hdr = (nutValidatePacket w.now nut sock hdr packet).2.2 := by
  obtain ⟨nut', verdict, hdr', hv, hcases⟩ := nutRoute_cases w nut sock hdr packet
  rw [hv]
  rcases hcases with ⟨rfl, hrun⟩ | ⟨rfl, hrun⟩ | ⟨rfl, haccepted⟩
  · rw [hrun]
    exact ⟨rfl, nofun⟩
  · rw [hrun]
    exact ⟨rfl, nofun⟩
  · generalize nutRoute w nut sock hdr packet = routed at haccepted
    cases haccepted with
    | reply xsock hreply hroute =>
      refine ⟨rfl, ?_⟩
      intro copy hcopy
      rw [List.mem_singleton.mp hcopy, sendCopy_hdr]
      exact ⟨rfl, rfl⟩
    | own ret hreply hroute => exact ⟨rfl, nofun⟩
    | dropped hreply hpush hseen => exact ⟨rfl, nofun⟩
    | query hreply hpush hroute hpacket x hx =>
      refine ⟨rfl, fun copy hcopy => ⟨rfl, ?_⟩⟩
      subst hx
      exact foldl_routeInternal_hdr w hdr' _ sock _ _ (fun _ h => absurd h List.not_mem_nil) copy
        hcopy
    | push hpush => exact ⟨rfl, nofun⟩

/-- The packet has the size that its function asks for, and a query has a text. -/
def Valid (hdr : NutHeader) (packet : List UInt8) : Prop :=
  (hdr.function = nutPingReq ∧ hdr.length = 0) ∨
  (hdr.function = nutPingAck ∧ hdr.length.toNat = sizeofNutPong) ∨
  (hdr.function = nutPushReq ∧ hdr.length.toNat = sizeofNutPush) ∨
  (hdr.function = nutSearchReq ∧ hdr.length.toNat ≤ 257 ∧
    cString (packet.drop sizeofNutQuery) ≠ []) ∨
  (hdr.function = nutSearchAck ∧ hdr.length.toNat ≤ (sizeofNutRecord + 256) * 256)

theorem valid_of_validateSize {now : Nat} {nut : NutConfig} {sock : Nat}
    (h : (validateSize now nut sock hdr packet).2 = true) :
    Valid hdr packet := by
  unfold validateSize at h
  split at h
  · next hf => exact Or.inl ⟨hf, by simpa using h⟩
  split at h
  · next hf => exact Or.inr (Or.inl ⟨hf, by simpa using h⟩)
  split at h
  · next hf => exact Or.inr (Or.inr (Or.inl ⟨hf, by simpa using h⟩))
  split at h
  · next hf =>
    split at h
    · cases h
    · next hlen =>
      refine Or.inr (Or.inr (Or.inr (Or.inl ⟨hf, Nat.le_of_not_lt hlen, ?_⟩)))
      intro hempty
      rw [nutCanonizeQuery, if_pos hempty] at h
      cases h
  split at h
  · next hf => exact Or.inr (Or.inr (Or.inr (Or.inr ⟨hf, by simpa using h⟩)))
  · cases h

/-- The copies of a packet: those that were routed, and that of a push request. -/
theorem handlePacket_forwards (w : World) (nut : NutConfig) (sock : Nat) (hdr : NutHeader)
    (packet : List UInt8) :
    (handlePacket w nut sock hdr packet).forwards =
      (nutRoute w nut sock hdr packet).forwards ++
        if (nutRoute w nut sock hdr packet).ret = 0 ∧
          (nutRoute w nut sock hdr packet).hdr.function = nutPushReq then
          (nutPushRequest w (nutRoute w nut sock hdr packet).nut
            (nutRoute w nut sock hdr packet).hdr packet).2
        else [] := by
  unfold handlePacket
  generalize nutRoute w nut sock hdr packet = routed
  dsimp only
  by_cases hret : routed.ret = 0
  · simp only [hret, ne_eq, not_true_eq_false, if_false, true_and]
    by_cases hpush : routed.hdr.function = nutPushReq
    · have hping : routed.hdr.function ≠ nutPingReq := by rw [hpush]; decide
      simp only [if_neg hping, if_pos hpush]
    · simp only [if_neg hpush, List.append_nil]
      split_ifs <;> rfl
  · simp only [ne_eq, hret, not_false_eq_true, if_true, false_and, if_false, List.append_nil]

/-! ## The order of hops and time to live -/

/-- Every copy of the packet has less time to live, one more hop and is within the maximum; a
packet that validation does not accept has no copies. -/
def Disciplined (w : World) (nut : NutConfig) (sock : Nat) (hdr : NutHeader)
    (packet : List UInt8) : Prop :=
  (∀ copy ∈ (handlePacket w nut sock hdr packet).forwards,
    copy.hdr.ttl < hdr.ttl ∧ copy.hdr.hop.toNat = hdr.hop.toNat + 1 ∧
      copy.hdr.ttl.toNat + copy.hdr.hop.toNat ≤ nut.maxTtl) ∧
  ((nutValidatePacket w.now nut sock hdr packet).2.1 ≠ .ok →
    (handlePacket w nut sock hdr packet).forwards = [])

/-- A push request has from 2 to 51 of time to live and fewer hops than the maximum; another
packet with such a time to live does not have 255 hops. -/
def TtlFits (maxTtl : Nat) (hdr : NutHeader) (packet : List UInt8) : Prop :=
  Valid hdr packet →
    if hdr.function = nutPushReq then
      2 ≤ hdr.ttl.toNat ∧ hdr.ttl.toNat ≤ 51 ∧ hdr.hop.toNat < maxTtl
    else 2 ≤ hdr.ttl.toNat → hdr.ttl.toNat ≤ 51 → hdr.hop.toNat ≠ 255

theorem toNat_succ {hop : UInt8} (h : hop.toNat ≠ 255) : (hop + 1).toNat = hop.toNat + 1 := by
  have hlt := hop.toNat_lt
  rw [UInt8.toNat_add, show (1 : UInt8).toNat = 1 from rfl, Nat.mod_eq_of_lt (by omega)]

theorem accepted_disciplined (h : (hopsAndTtls maxTtl hdr).1 = .ok) (hhop : hdr.hop.toNat ≠ 255) :
    (hopsAndTtls maxTtl hdr).2.ttl < hdr.ttl ∧
      (hopsAndTtls maxTtl hdr).2.hop.toNat = hdr.hop.toNat + 1 ∧
      (hopsAndTtls maxTtl hdr).2.ttl.toNat + (hopsAndTtls maxTtl hdr).2.hop.toNat ≤ maxTtl := by
  obtain ⟨httl, hnext, hsum⟩ := hopsAndTtls_accepted h
  refine ⟨httl, ?_, hsum⟩
  rw [hnext, toNat_succ hhop]

theorem handlePacket_push (w : World) (nut : NutConfig) (sock : Nat) (packet : List UInt8)
    (hfun : hdr.function = nutPushReq) (hlen : hdr.length.toNat = sizeofNutPush) :
    (handlePacket w nut sock hdr packet).forwards =
        (nutPushRequest w nut (hopsAndTtls nut.maxTtl hdr).2 packet).2 ∧
      (nutValidatePacket w.now nut sock hdr packet).2 = hopsAndTtls nut.maxTtl hdr := by
  have hsize : validateSize w.now nut sock hdr packet = (nut, true) := by
    have h1 : nutPushReq ≠ nutPingReq := by decide
    have h2 : nutPushReq ≠ nutPingAck := by decide
    simp [validateSize, hfun, h1, h2, hlen]
  have hvalid : nutValidatePacket w.now nut sock hdr packet =
      (nut, hopsAndTtls nut.maxTtl hdr) := by simp [nutValidatePacket, hsize]
  have hroute : nutRoute w nut sock hdr packet = ⟨nut, 0, (hopsAndTtls nut.maxTtl hdr).2, []⟩ := by
    obtain ⟨nut', verdict, hdr', hv, hcases⟩ := nutRoute_cases w nut sock hdr packet
    rw [hvalid, Prod.mk.injEq] at hv
    obtain ⟨rfl, hv⟩ := hv
    have hpush : hdr'.function = nutPushReq := by
      rw [← hfun, ← hopsAndTtls_function nut.maxTtl hdr, hv]
    rw [hv]
    rcases hcases with ⟨rfl, hrun⟩ | ⟨rfl, hrun⟩ | ⟨rfl, haccepted⟩
    · -- the checks of the header do not call it invalid
      exfalso
      have hinvalid := congrArg Prod.fst hv
      unfold hopsAndTtls at hinvalid
      dsimp only at hinvalid
      split_ifs at hinvalid
    · exact hrun
    · generalize nutRoute w nut sock hdr packet = routed at haccepted
      have hnot : isReply hdr' = false := by rw [isReply, hpush]; decide
      cases haccepted with
      | reply xsock hreply hroute => exact absurd (hnot.symm.trans hreply) nofun
      | own ret hreply hroute => exact absurd (hnot.symm.trans hreply) nofun
      | dropped hreply hpush' hseen => exact absurd hpush hpush'
      | query hreply hpush' hroute hpacket x hx => exact absurd hpush hpush'
      | push => rfl
  refine ⟨?_, by rw [hvalid]⟩
  rw [handlePacket_forwards, hroute]
  simp [hfun]

theorem handlePacket_of_not_push {w : World} {nut : NutConfig} {sock : Nat}
    (hfun : hdr.function ≠ nutPushReq) :
    (handlePacket w nut sock hdr packet).forwards = (nutRoute w nut sock hdr packet).forwards := by
  have hhdr : (nutRoute w nut sock hdr packet).hdr.function = hdr.function := by
    rw [nutRoute_forwards.1]
    rcases nutValidatePacket_cases w.now nut sock hdr packet with ⟨-, hv⟩ | ⟨-, hv⟩ <;> rw [hv]
    exact hopsAndTtls_function _ _
  rw [handlePacket_forwards, hhdr, if_neg (fun h => hfun h.2), List.append_nil]

theorem disciplined_of_ttlFits {w : World} {nut : NutConfig} {sock : Nat}
    (hmax : nut.maxTtl ≤ 255) (h : TtlFits nut.maxTtl hdr packet) :
    Disciplined w nut sock hdr packet := by
  rcases nutValidatePacket_cases w.now nut sock hdr packet with ⟨hsize, hv⟩ | ⟨hsize, hv⟩
  · have hfits := h (valid_of_validateSize hsize)
    by_cases hfun : hdr.function = nutPushReq
    · rw [if_pos hfun] at hfits
      obtain ⟨hlow, hhigh, hhop⟩ := hfits
      have hlen : hdr.length.toNat = sizeofNutPush := by
        have h1 : nutPushReq ≠ nutPingReq := by decide
        have h2 : nutPushReq ≠ nutPingAck := by decide
        simpa [validateSize, hfun, h1, h2] using hsize
      have hne : hdr.hop.toNat ≠ 255 := by omega
      have hok : (hopsAndTtls nut.maxTtl hdr).1 = .ok := by
        rw [hopsAndTtls_ok_iff, toNat_succ hne]
        exact ⟨hlow, hhigh, hhop⟩
      obtain ⟨hforwards, hverdict⟩ :=
        handlePacket_push w nut sock packet hfun hlen
      refine ⟨?_, fun hnot => absurd (hverdict ▸ hok) hnot⟩
      intro copy hcopy
      have hhdr : copy.hdr = (hopsAndTtls nut.maxTtl hdr).2 := by
        rw [hforwards, nutPushRequest] at hcopy
        split at hcopy
        · cases hcopy
        · rw [List.mem_singleton.mp hcopy, sendCopy_hdr]
      rw [hhdr]
      exact accepted_disciplined hok hne
    · rw [if_neg hfun] at hfits
      rw [Disciplined, handlePacket_of_not_push hfun, hv]
      refine ⟨?_, ?_⟩
      · intro copy hcopy
        obtain ⟨hok, hhdr⟩ := nutRoute_forwards.2 copy hcopy
        rw [hv] at hok hhdr
        obtain ⟨hlow, hhigh, -⟩ := hopsAndTtls_ok_iff.mp hok
        rw [hhdr]
        exact accepted_disciplined hok (hfits hlow hhigh)
      · intro hnot
        refine List.eq_nil_iff_forall_not_mem.mpr (fun copy hcopy => hnot ?_)
        have hok := (nutRoute_forwards.2 copy hcopy).1
        rwa [hv] at hok
  · -- an invalid packet is neither routed nor handled
    have hnone : (handlePacket w nut sock hdr packet).forwards = [] := by
      obtain ⟨nut', verdict, hdr', hv', hcases⟩ := nutRoute_cases w nut sock hdr packet
      rw [hv] at hv'
      cases hv'
      rcases hcases with ⟨-, hrun⟩ | ⟨hdead, -⟩ | ⟨hok, -⟩
      · rw [handlePacket_forwards, hrun]
        rfl
      · cases hdead
      · cases hok
    rw [Disciplined, hnone]
    exact ⟨fun _ h => absurd h List.not_mem_nil, fun _ => rfl⟩

/-! ## States in which the packet is passed on -/

/-- Two connections; everything that can be routed goes to the second of them. -/
def openConfig (maxTtl : Nat) (hdr : NutHeader) : NutConfig where
  maxTtl := maxTtl
  conn := [0, 1]
  route := fun _ => if isReply hdr then some 1 else none
  packet := fun _ => false
  reply := fun _ => some 1
  query := fun _ => 0
  invalid := fun _ => 0
  killed := fun _ => false

/-- Every write succeeds. -/
def openWorld : World := ⟨1, fun _ => (none, none), [], fun _ => none⟩

theorem validateSize_openConfig (maxTtl : Nat) (h : Valid hdr packet) :
    (validateSize openWorld.now (openConfig maxTtl hdr) 0 hdr packet).2 = true := by
  unfold validateSize
  rcases h with ⟨hf, hlen⟩ | ⟨hf, hlen⟩ | ⟨hf, hlen⟩ | ⟨hf, hlen, htext⟩ | ⟨hf, hlen⟩
  · simp [hf, hlen]
  · have h1 : nutPingAck ≠ nutPingReq := by decide
    simp [hf, h1, hlen]
  · have h1 : nutPushReq ≠ nutPingReq := by decide
    have h2 : nutPushReq ≠ nutPingAck := by decide
    simp [hf, h1, h2, hlen]
  · have h1 : nutSearchReq ≠ nutPingReq := by decide
    have h2 : nutSearchReq ≠ nutPingAck := by decide
    have h3 : nutSearchReq ≠ nutPushReq := by decide
    simp [hf, h1, h2, h3, Nat.not_lt.mpr hlen, nutCanonizeQuery, htext, openConfig]
  · have h1 : nutSearchAck ≠ nutPingReq := by decide
    have h2 : nutSearchAck ≠ nutPingAck := by decide
    have h3 : nutSearchAck ≠ nutPushReq := by decide
    have h4 : nutSearchAck ≠ nutSearchReq := by decide
    simp [hf, h1, h2, h3, h4, hlen]

theorem flood_ne_nil (w : World) (hdr : NutHeader) (body : List UInt8) (nut : NutConfig)
    (hconn : nut.conn = [0, 1]) : (flood w hdr body 0 nut).copies ≠ [] := by
  rw [flood, hconn]
  simp [routeInternal]

/-- A packet that is accepted in this state has a copy. -/
theorem nutRoute_openConfig (maxTtl : Nat) (hvalid : Valid hdr packet)
    (hfun : hdr.function ≠ nutPushReq) (hok : (hopsAndTtls maxTtl hdr).1 = .ok) :
    (nutRoute openWorld (openConfig maxTtl hdr) 0 hdr packet).forwards ≠ [] := by
  have hsize := validateSize_openConfig maxTtl hvalid
  obtain ⟨⟨-, hconn, hroute, hpacket, -⟩, hkilled⟩ :=
    validateSize_sameTables openWorld.now (openConfig maxTtl hdr) 0 hdr packet
  obtain ⟨nut', verdict, hdr', hv', hcases⟩ :=
    nutRoute_cases openWorld (openConfig maxTtl hdr) 0 hdr packet
  rcases nutValidatePacket_cases openWorld.now (openConfig maxTtl hdr) 0 hdr packet with
    ⟨-, hv⟩ | ⟨hbad, -⟩
  · rw [hv, Prod.mk.injEq] at hv'
    obtain ⟨rfl, hhdr⟩ := hv'
    have hverdict : verdict = .ok := by rw [← hok, show (hopsAndTtls maxTtl hdr) = _ from hhdr]
    have hfunction : hdr'.function = hdr.function := by
      rw [← hopsAndTtls_function maxTtl hdr, show (hopsAndTtls maxTtl hdr) = _ from hhdr]
    have hreply : isReply hdr' = isReply hdr := by rw [isReply, isReply, hfunction]
    rcases hcases with ⟨hbad, -⟩ | ⟨hbad, -⟩ | ⟨-, haccepted⟩
    · rw [hverdict] at hbad
      cases hbad
    · rw [hverdict] at hbad
      cases hbad
    · generalize nutRoute openWorld (openConfig maxTtl hdr) 0 hdr packet = routed at haccepted
      cases haccepted with
      | reply xsock _ _ => exact List.cons_ne_nil _ _
      | own ret hrep hnone =>
        rw [hroute] at hnone
        rw [hreply] at hrep
        simp [openConfig, hrep] at hnone
      | dropped hrep _ hseen =>
        rw [hroute, hpacket] at hseen
        rw [hreply] at hrep
        simp [openConfig, hrep] at hseen
      | query _ _ _ _ x hx =>
        subst hx
        exact flood_ne_nil _ _ _ _ hconn
      | push hpush => exact absurd (hfunction ▸ hpush) hfun
  · rw [hsize] at hbad
    cases hbad

theorem ttlFits_of_disciplined (h : Disciplined openWorld (openConfig maxTtl hdr) 0 hdr packet) :
    TtlFits maxTtl hdr packet := by
  intro hvalid
  obtain ⟨hall, hdead⟩ := h
  by_cases hfun : hdr.function = nutPushReq
  · rw [if_pos hfun]
    have hlen : hdr.length.toNat = sizeofNutPush := by
      rcases hvalid with ⟨hf, -⟩ | ⟨hf, -⟩ | ⟨-, hlen⟩ | ⟨hf, -⟩ | ⟨hf, -⟩
      · exact absurd (hfun.symm.trans hf) (by decide)
      · exact absurd (hfun.symm.trans hf) (by decide)
      · exact hlen
      · exact absurd (hfun.symm.trans hf) (by decide)
      · exact absurd (hfun.symm.trans hf) (by decide)
    obtain ⟨hforwards, hverdict⟩ := handlePacket_push openWorld
      (openConfig maxTtl hdr) 0 packet hfun hlen
    have hcopy : (sendCopy openWorld (openConfig maxTtl hdr) 1 (hopsAndTtls maxTtl hdr).2
        (packet.take sizeofNutPush)).2 ∈
        (handlePacket openWorld (openConfig maxTtl hdr) 0 hdr packet).forwards := by
      rw [hforwards]
      exact List.mem_singleton_self _
    -- it is passed on, so it has been accepted
    have hok : (hopsAndTtls maxTtl hdr).1 = .ok := by
      by_contra hnot
      rw [hverdict] at hdead
      rw [hdead hnot] at hcopy
      cases hcopy
    obtain ⟨hlow, hhigh, hhop⟩ := hopsAndTtls_ok_iff.mp hok
    obtain ⟨-, hnext, -⟩ := hopsAndTtls_accepted hok
    have hexact := (hall _ hcopy).2.1
    rw [sendCopy_hdr, hnext] at hexact
    omega
  · rw [if_neg hfun]
    intro hlow hhigh hwrap
    have hzero : hdr.hop + 1 = 0 := by
      rw [← UInt8.toNat_inj, UInt8.toNat_add, hwrap]
      rfl
    have hok : (hopsAndTtls maxTtl hdr).1 = .ok := by
      rw [hopsAndTtls_ok_iff, hzero]
      exact ⟨hlow, hhigh, Nat.zero_le _⟩
    have hne := nutRoute_openConfig maxTtl hvalid hfun hok
    rw [← handlePacket_of_not_push hfun] at hne
    obtain ⟨copy, hcopy⟩ := List.exists_mem_of_ne_nil _ hne
    have hexact := (hall copy hcopy).2.1
    rw [hwrap] at hexact
    have hlt := copy.hdr.hop.toNat_lt
    omega

/-- **Time to live.** In every state a received packet is passed on with its hops and its time to
live in order, exactly if it is a push request that validation accepts without a wrapping hop
count, or another packet that is not accepted with 255 hops. -/
theorem disciplined_iff (maxTtl : Nat) (hmax : maxTtl ≤ 255) (hdr : NutHeader)
    (packet : List UInt8) :
    (∀ (w : World) (nut : NutConfig) (sock : Nat), nut.maxTtl = maxTtl →
      Disciplined w nut sock hdr packet) ↔ TtlFits maxTtl hdr packet := by
  constructor
  · exact fun h => ttlFits_of_disciplined (h openWorld (openConfig maxTtl hdr) 0 rfl)
  · rintro h w nut sock rfl
    exact disciplined_of_ttlFits hmax h

/-- A ping in the middle of its way. -/
def pingHeader : NutHeader := ⟨List.replicate nutGuidSize 0, nutPingReq, 3, 1, 0⟩

theorem disciplined_pingHeader : 5 ≤ 255 ∧ ∀ (w : World) (nut : NutConfig) (sock : Nat),
    nut.maxTtl = 5 → Disciplined w nut sock pingHeader [] := by
  refine ⟨by decide, (disciplined_iff 5 (by decide) pingHeader []).mpr ?_⟩
  intro _
  rw [if_neg (by decide)]
  exact fun _ _ => by decide

/-- A push request at the end of its way. -/
def deadPush : NutHeader := ⟨List.replicate nutGuidSize 0, nutPushReq, 1, 3, 26⟩

theorem deadPush_forwarded :
    ¬ Disciplined openWorld (openConfig 5 deadPush) 0 deadPush (List.replicate 26 0) := by
  intro h
  have hfits := ttlFits_of_disciplined h (Or.inr (Or.inr (Or.inl ⟨rfl, rfl⟩)))
  rw [if_pos (by rfl)] at hfits
  exact absurd hfits.1 (by decide)

end Serveez.Nut
