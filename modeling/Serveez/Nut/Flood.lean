import Serveez.Nut.Ttl
import Mathlib.Data.List.Nodup

/-!
# The copies of queries and replies

The flood of a query stops at the first connection that a write fails on, because the closure of
the iteration has one flag for all connections: those behind it in the hash get no copy.

* `flood_copies`: the copies that a flood makes.
* `floodsRight_iff`: a new query reaches every other live connection, exactly if none of them is
  behind one that a write fails on.
* `repliesRight`: a reply goes to the connection in the routing table, and nowhere else.
-/

namespace Serveez.Nut

/-! ## Copies of a flood -/

/-- The writes to a connection that a packet with this header needs all succeed. -/
def WritesOk (w : World) (hdr : NutHeader) (dest : Nat) : Prop :=
  (w.writes dest).1 = none ∧ (hdr.length ≠ 0 → (w.writes dest).2 = none)

theorem sendCopy_killed_ne {w : World} {nut : NutConfig} {dest other : Nat} {hdr : NutHeader}
    {body : List UInt8} (h : other ≠ dest) :
    (sendCopy w nut dest hdr body).1.killed other = nut.killed other := by
  have hkill : (nut.kill dest).killed other = nut.killed other := Function.update_of_ne h _ _
  unfold sendCopy
  split
  · rfl
  · split
    · exact hkill
    · split
      · rfl
      · split
        · exact hkill
        · rfl

theorem sendCopy_sameTables (w : World) (nut : NutConfig) (dest : Nat) (hdr : NutHeader)
    (body : List UInt8) : SameTables nut (sendCopy w nut dest hdr body).1 := by
  unfold sendCopy
  split
  · exact .refl nut
  · split
    · exact ⟨rfl, rfl, rfl, rfl, rfl⟩
    · split
      · exact .refl nut
      · split <;> exact ⟨rfl, rfl, rfl, rfl, rfl⟩

theorem sendCopy_congr {w : World} {nut nut' : NutConfig} {dest : Nat} {hdr : NutHeader}
    {body : List UInt8} (h : nut'.killed dest = nut.killed dest) :
    (sendCopy w nut' dest hdr body).2 = (sendCopy w nut dest hdr body).2 := by
  unfold sendCopy
  rw [h]
  split
  · rfl
  · split
    · rfl
    · split
      · rfl
      · split <;> rfl

theorem sendCopy_failed_iff {w : World} {nut : NutConfig} {dest : Nat} {hdr : NutHeader}
    {body : List UInt8} :
    (sendCopy w nut dest hdr body).2.failed = true ↔
      nut.killed dest = false ∧ ¬ WritesOk w hdr dest := by
  unfold sendCopy WritesOk
  cases hkilled : nut.killed dest with
  | true => simp
  | false =>
    rcases hw : w.writes dest with ⟨_ | n, second⟩
    · by_cases hlen : hdr.length = 0
      · simp [hlen]
      · cases second with
        | none => simp [hlen]
        | some m => simp [hlen]
    · simp

/-- The packet as it is sent to a connection. -/
def wholePacket (hdr : NutHeader) (packet : List UInt8) : List UInt8 :=
  nutPutHeader hdr ++ bodyOf hdr packet

theorem sendCopy_of_writesOk {w : World} {nut : NutConfig} {dest : Nat} {hdr : NutHeader}
    {packet : List UInt8} (hlive : nut.killed dest = false) (hok : WritesOk w hdr dest) :
    (sendCopy w nut dest hdr (bodyOf hdr packet)).2 =
      ⟨dest, hdr, wholePacket hdr packet, false⟩ := by
  unfold sendCopy
  rw [hlive]
  rcases hw : w.writes dest with ⟨first, second⟩
  obtain ⟨hfirst, hsecond⟩ := hok
  rw [hw] at hfirst hsecond
  dsimp only at hfirst hsecond
  subst hfirst
  by_cases hlen : hdr.length = 0
  · simp [hlen, wholePacket, bodyOf]
  · rw [hsecond hlen]
    simp [hlen, wholePacket]

/-- The copies up to the first that failed, this one included. -/
def uptoFailure : List Copy → List Copy
  | [] => []
  | copy :: copies => if copy.failed then [copy] else copy :: uptoFailure copies

/-- The connections that a flood goes to. -/
def others (nut : NutConfig) (avoid : Nat) : List Nat := nut.conn.filter (· ≠ avoid)

theorem foldl_routeInternal_problemp (w : World) (hdr : NutHeader) (body : List UInt8)
    (avoid : Nat) (conn : List Nat) {x : RouteClosure} (h : x.problemp = true) :
    conn.foldl (routeInternal w hdr body avoid) x = x := by
  induction conn with
  | nil => rfl
  | cons sock conn ih =>
    have hskip : routeInternal w hdr body avoid x sock = x := if_pos (Or.inl h)
    rw [List.foldl_cons, hskip, ih]

theorem foldl_routeInternal_copies (w : World) (hdr : NutHeader) (body : List UInt8)
    (avoid : Nat) (nut : NutConfig) (conn : List Nat) :
    ∀ x : RouteClosure, x.problemp = false → conn.Nodup →
      (∀ d ∈ conn, x.nut.killed d = nut.killed d) →
      (conn.foldl (routeInternal w hdr body avoid) x).copies =
        x.copies ++ uptoFailure
          ((conn.filter (· ≠ avoid)).map (fun d => (sendCopy w nut d hdr body).2)) := by
  induction conn with
  | nil => simp [uptoFailure]
  | cons sock conn ih =>
    intro x hprob hnodup hkilled
    obtain ⟨hfresh, hnodup⟩ := List.nodup_cons.mp hnodup
    rw [List.foldl_cons]
    by_cases havoid : avoid = sock
    · have hskip : routeInternal w hdr body avoid x sock = x := if_pos (Or.inr havoid)
      rw [hskip, List.filter_cons_of_neg (by simp [havoid])]
      exact ih x hprob hnodup (fun d hd => hkilled d (List.mem_cons_of_mem _ hd))
    · have hsend : routeInternal w hdr body avoid x sock =
          ⟨(sendCopy w x.nut sock hdr body).1, (sendCopy w x.nut sock hdr body).2.failed,
            x.copies ++ [(sendCopy w x.nut sock hdr body).2]⟩ := by
        rw [routeInternal, if_neg (by simp [hprob, havoid])]
      rw [hsend, sendCopy_congr (hkilled sock List.mem_cons_self),
        List.filter_cons_of_pos (by simpa using Ne.symm havoid), List.map_cons, uptoFailure]
      cases hfailed : (sendCopy w nut sock hdr body).2.failed with
      | true =>
        rw [foldl_routeInternal_problemp _ _ _ _ _ rfl]
        rfl
      | false =>
        rw [ih _ rfl hnodup]
        · simp
        · intro d hd
          have hne : d ≠ sock := fun h => hfresh (h ▸ hd)
          dsimp only
          rw [sendCopy_killed_ne hne]
          exact hkilled d (List.mem_cons_of_mem _ hd)

theorem flood_copies (w : World) (hdr : NutHeader) (body : List UInt8) (avoid : Nat)
    {nut : NutConfig} (hnodup : nut.conn.Nodup) :
    (flood w hdr body avoid nut).copies =
      uptoFailure ((others nut avoid).map (fun d => (sendCopy w nut d hdr body).2)) := by
  rw [flood, foldl_routeInternal_copies w hdr body avoid nut nut.conn _ rfl hnodup
    (fun _ _ => rfl)]
  rfl

theorem uptoFailure_prefix (copies : List Copy) : uptoFailure copies <+: copies := by
  induction copies with
  | nil => exact List.prefix_rfl
  | cons copy copies ih =>
    rw [uptoFailure]
    split
    · exact ⟨copies, rfl⟩
    · exact (List.prefix_cons_inj copy).mpr ih

theorem uptoFailure_append {before : List Copy} (h : ∀ copy ∈ before, copy.failed = false)
    (copies : List Copy) : uptoFailure (before ++ copies) = before ++ uptoFailure copies := by
  induction before with
  | nil => rfl
  | cons copy before ih =>
    rw [List.cons_append, uptoFailure, h copy List.mem_cons_self, List.cons_append]
    exact congrArg (copy :: ·) (ih (fun c hc => h c (List.mem_cons_of_mem _ hc)))

theorem mem_uptoFailure_head (copy : Copy) (copies : List Copy) :
    copy ∈ uptoFailure (copy :: copies) := by
  rw [uptoFailure]
  split <;> simp

theorem uptoFailure_subset {before copies : List Copy} {copy : Copy} (h : copy.failed = true) :
    ∀ c ∈ uptoFailure (before ++ copy :: copies), c ∈ before ∨ c = copy := by
  induction before with
  | nil =>
    intro c hc
    rw [List.nil_append, uptoFailure, if_pos h] at hc
    exact Or.inr (List.mem_singleton.mp hc)
  | cons first before ih =>
    intro c hc
    rw [List.cons_append, uptoFailure] at hc
    split at hc
    · exact Or.inl (by simp [List.mem_singleton.mp hc])
    · rcases List.mem_cons.mp hc with rfl | hc
      · exact Or.inl List.mem_cons_self
      · exact (ih c hc).imp (List.mem_cons_of_mem _) id

/-! ## A new query -/

/-- A query or ping: what is neither a reply nor a push request. -/
def IsQuery (hdr : NutHeader) : Prop := isReply hdr = false ∧ hdr.function ≠ nutPushReq

/-- The header of the copies of an accepted packet. -/
def passedOn (nut : NutConfig) (hdr : NutHeader) : NutHeader := (hopsAndTtls nut.maxTtl hdr).2

/-- What the flood of a query is for: only an id that is not in the routing table is flooded, and
it is in the table afterwards; nothing goes back; and each other live connection gets one copy,
which is whole unless a write to this connection fails. -/
structure FloodsRight (w : World) (nut : NutConfig) (sock : Nat) (hdr : NutHeader)
    (packet : List UInt8) : Prop where
  once : (handlePacket w nut sock hdr packet).forwards ≠ [] →
    nut.route hdr.id = none ∧ (handlePacket w nut sock hdr packet).nut.route hdr.id = some sock
  notBack : ∀ copy ∈ (handlePacket w nut sock hdr packet).forwards, copy.dest ≠ sock
  others : nut.route hdr.id = none →
    (handlePacket w nut sock hdr packet).nut.route hdr.id ≠ none →
    ∀ d ∈ nut.conn, d ≠ sock → nut.killed d = false →
      ∃ copy, (handlePacket w nut sock hdr packet).forwards.filter (·.dest = d) = [copy] ∧
        (WritesOk w hdr d → copy.delivered = wholePacket (passedOn nut hdr) packet)

/-- The query is accepted, and neither known nor one of the server's own. -/
def Taken (w : World) (nut : NutConfig) (sock : Nat) (hdr : NutHeader) (packet : List UInt8) :
    Prop :=
  (nutValidatePacket w.now nut sock hdr packet).2.1 = .ok ∧ nut.route hdr.id = none ∧
    nut.packet hdr.id = false

/-- No live connection is behind one that a write fails on, in the order of the hash. -/
def NoneBehindFailure (w : World) (nut : NutConfig) (sock : Nat) (hdr : NutHeader) : Prop :=
  ∀ before c after, nut.conn = before ++ c :: after → c ≠ sock → nut.killed c = false →
    ¬ WritesOk w hdr c → ∀ d ∈ after, d = sock ∨ nut.killed d = true

theorem SameTables.trans {a b c : NutConfig} (h : SameTables a b) (h' : SameTables b c) :
    SameTables a c where
  maxTtl := h'.maxTtl.trans h.maxTtl
  conn := h'.conn.trans h.conn
  route := h'.route.trans h.route
  packet := h'.packet.trans h.packet
  reply := h'.reply.trans h.reply

/-- The handlers change neither the routing table nor the connections. -/
theorem handlePacket_tables (w : World) (nut : NutConfig) (sock : Nat) (hdr : NutHeader)
    (packet : List UInt8) :
    (handlePacket w nut sock hdr packet).nut.route = (nutRoute w nut sock hdr packet).nut.route ∧
      (handlePacket w nut sock hdr packet).nut.conn =
        (nutRoute w nut sock hdr packet).nut.conn := by
  have hsent : ∀ (nut : NutConfig) dest hdr body,
      (sendCopy w nut dest hdr body).1.route = nut.route ∧
        (sendCopy w nut dest hdr body).1.conn = nut.conn :=
    fun nut dest hdr body => ⟨(sendCopy_sameTables w nut dest hdr body).route,
      (sendCopy_sameTables w nut dest hdr body).conn⟩
  unfold handlePacket
  generalize nutRoute w nut sock hdr packet = routed
  dsimp only
  split_ifs
  · exact ⟨rfl, rfl⟩
  · exact hsent _ _ _ _
  · rw [nutPushRequest]
    split
    · exact ⟨rfl, rfl⟩
    · exact hsent _ _ _ _
  · rw [nutQuery]
    split <;> exact ⟨rfl, rfl⟩
  · rw [nutReply]
    split_ifs <;> exact ⟨rfl, rfl⟩
  · exact ⟨rfl, rfl⟩

theorem foldl_routeInternal_sameTables (w : World) (hdr : NutHeader) (body : List UInt8)
    (avoid : Nat) (conn : List Nat) (x : RouteClosure) :
    SameTables x.nut (conn.foldl (routeInternal w hdr body avoid) x).nut := by
  induction conn generalizing x with
  | nil => exact .refl _
  | cons sock conn ih =>
    rw [List.foldl_cons]
    refine SameTables.trans ?_ (ih _)
    rw [routeInternal]
    split_ifs
    · exact .refl _
    · exact sendCopy_sameTables _ _ _ _ _

/-- Routing in terms of the state before: a packet that is not accepted leaves no copies and
does not enter the table. -/
theorem nutRoute_verdict (w : World) (nut : NutConfig) (sock : Nat) (hdr : NutHeader)
    (packet : List UInt8) :
    ((nutValidatePacket w.now nut sock hdr packet).2.1 ≠ .ok ∧
      (nutRoute w nut sock hdr packet).forwards = [] ∧
      SameTables nut (nutRoute w nut sock hdr packet).nut) ∨
    ((nutValidatePacket w.now nut sock hdr packet).2.1 = .ok ∧
      ∃ nut', SameTables nut nut' ∧ nut'.killed = nut.killed ∧
        Accepted w nut' sock (passedOn nut hdr) packet (nutRoute w nut sock hdr packet)) := by
  obtain ⟨htables, hkilled⟩ := validateSize_sameTables w.now nut sock hdr packet
  obtain ⟨nut', verdict, hdr', hv', hcases⟩ := nutRoute_cases w nut sock hdr packet
  rw [hv']
  rcases nutValidatePacket_cases w.now nut sock hdr packet with ⟨hsize, hv⟩ | ⟨-, hv⟩ <;>
    rw [hv] at hv'
  · obtain ⟨rfl, hheader⟩ := Prod.mk.inj hv'
    rcases hcases with ⟨rfl, hrun⟩ | ⟨rfl, hrun⟩ | ⟨rfl, haccepted⟩
    · exact Or.inl ⟨nofun, by rw [hrun], by rw [hrun]; exact htables⟩
    · exact Or.inl ⟨nofun, by rw [hrun], by rw [hrun]; exact htables⟩
    · refine Or.inr ⟨rfl, _, htables, hkilled hsize, ?_⟩
      rwa [passedOn, hheader]
  · cases hv'
    rcases hcases with ⟨-, hrun⟩ | ⟨hbad, -⟩ | ⟨hbad, -⟩
    · exact Or.inl ⟨nofun, by rw [hrun], by rw [hrun]; exact htables⟩
    · cases hbad
    · cases hbad

@[simp] theorem passedOn_id (nut : NutConfig) (hdr : NutHeader) :
    (passedOn nut hdr).id = hdr.id := hopsAndTtls_id _ _

@[simp] theorem passedOn_function (nut : NutConfig) (hdr : NutHeader) :
    (passedOn nut hdr).function = hdr.function := hopsAndTtls_function _ _

@[simp] theorem isReply_passedOn (nut : NutConfig) (hdr : NutHeader) :
    isReply (passedOn nut hdr) = isReply hdr := by rw [isReply, passedOn_function, isReply]

/-- What happens with a query: it leaves no copies and does not enter the table, or it is taken
and flooded. -/
theorem nutRoute_query (w : World) (nut : NutConfig) (sock : Nat) {hdr : NutHeader}
    (packet : List UInt8) (hquery : IsQuery hdr) (hnodup : nut.conn.Nodup) :
    (¬ Taken w nut sock hdr packet ∧ (nutRoute w nut sock hdr packet).forwards = [] ∧
      (nutRoute w nut sock hdr packet).nut.route = nut.route) ∨
    (Taken w nut sock hdr packet ∧
      (nutRoute w nut sock hdr packet).nut.route =
        Function.update nut.route hdr.id (some sock) ∧
      (nutRoute w nut sock hdr packet).forwards =
        uptoFailure ((others nut sock).map (fun d =>
          (sendCopy w nut d (passedOn nut hdr) (bodyOf (passedOn nut hdr) packet)).2))) := by
  rcases nutRoute_verdict w nut sock hdr packet with
    ⟨hbad, hforwards, htables⟩ | ⟨hok, nut', htables, hkilled, haccepted⟩
  · exact Or.inl ⟨fun htaken => hbad htaken.1, hforwards, htables.route⟩
  have hreply : isReply (passedOn nut hdr) = false := (isReply_passedOn nut hdr).trans hquery.1
  generalize nutRoute w nut sock hdr packet = routed at haccepted
  cases haccepted with
  | reply xsock hrep _ => exact absurd (hreply.symm.trans hrep) nofun
  | own ret hrep _ => exact absurd (hreply.symm.trans hrep) nofun
  | dropped _ _ hseen =>
    rw [htables.route, htables.packet, passedOn_id] at hseen
    refine Or.inl ⟨?_, rfl, htables.route⟩
    rintro ⟨-, hroute, hpacket⟩
    rw [hroute, hpacket] at hseen
    simp at hseen
  | query _ _ hroute hpacket x hx =>
    rw [htables.route, passedOn_id] at hroute
    rw [htables.packet, passedOn_id] at hpacket
    refine Or.inr ⟨⟨hok, hroute, hpacket⟩, ?_, ?_⟩
    · subst hx
      dsimp only
      rw [flood, (foldl_routeInternal_sameTables _ _ _ _ _ _).route]
      dsimp only
      rw [htables.route, passedOn_id]
    · subst hx
      dsimp only
      rw [flood_copies w _ _ _ (by dsimp only; rw [htables.conn]; exact hnodup),
        show others _ sock = others nut sock by simp only [others, htables.conn]]
      refine congrArg uptoFailure (List.map_congr_left (fun d _ => sendCopy_congr ?_))
      dsimp only
      rw [hkilled]
  | push hpush => exact absurd (passedOn_function nut hdr ▸ hpush) hquery.2

theorem mem_others {nut : NutConfig} {sock d : Nat} :
    d ∈ others nut sock ↔ d ∈ nut.conn ∧ d ≠ sock := by
  rw [others, List.mem_filter, decide_eq_true_iff]

theorem writesOk_passedOn {w : World} {nut : NutConfig} {hdr : NutHeader} {d : Nat} :
    WritesOk w (passedOn nut hdr) d ↔ WritesOk w hdr d := by
  rw [WritesOk, WritesOk, passedOn, hopsAndTtls_length]

/-- The copies to one connection, among copies to different ones. -/
theorem filter_dest_eq {copies : List Copy} {copy : Copy} (hin : copy ∈ copies)
    (hnodup : (copies.map Copy.dest).Nodup) : copies.filter (·.dest = copy.dest) = [copy] := by
  induction copies with
  | nil => cases hin
  | cons first copies ih =>
    rw [List.map_cons, List.nodup_cons] at hnodup
    rcases List.mem_cons.mp hin with rfl | hin
    · rw [List.filter_cons_of_pos (by simp), List.filter_eq_nil_iff.mpr]
      intro c hc
      have hne : c.dest ≠ copy.dest := fun h => hnodup.1 (h ▸ List.mem_map_of_mem hc)
      simpa using hne
    · have hne : first.dest ≠ copy.dest := fun h => hnodup.1 (h ▸ List.mem_map_of_mem hin)
      rw [List.filter_cons_of_neg (by simpa using hne)]
      exact ih hin hnodup.2

section Query

variable {w : World} {nut : NutConfig} {sock : Nat} {hdr : NutHeader} {packet : List UInt8}

/-- The copy for a connection, as its own writes make it. -/
def copyFor (w : World) (nut : NutConfig) (hdr : NutHeader) (packet : List UInt8) (d : Nat) :
    Copy :=
  (sendCopy w nut d (passedOn nut hdr) (bodyOf (passedOn nut hdr) packet)).2

theorem copyFor_dest (d : Nat) : (copyFor w nut hdr packet d).dest = d := sendCopy_dest _ _ _ _ _

theorem copyFor_failed_iff {d : Nat} :
    (copyFor w nut hdr packet d).failed = true ↔ nut.killed d = false ∧ ¬ WritesOk w hdr d := by
  rw [copyFor, sendCopy_failed_iff, writesOk_passedOn]

theorem map_dest_copyFor (l : List Nat) :
    (l.map (copyFor w nut hdr packet)).map Copy.dest = l := by
  rw [List.map_map]
  conv => rhs; rw [← List.map_id l]
  exact List.map_congr_left (fun d _ => copyFor_dest d)

theorem copyFor_mem_uptoFailure {before after : List Nat} {d : Nat}
    (h : ∀ c ∈ before, (copyFor w nut hdr packet c).failed = false) :
    copyFor w nut hdr packet d ∈
      uptoFailure ((before ++ d :: after).map (copyFor w nut hdr packet)) := by
  rw [List.map_append, List.map_cons, uptoFailure_append]
  · exact List.mem_append_right _ (mem_uptoFailure_head _ _)
  · intro copy hcopy
    obtain ⟨c, hc, rfl⟩ := List.mem_map.mp hcopy
    exact h c hc

theorem noneBehindFailure_others (h : NoneBehindFailure w nut sock hdr) {before after : List Nat}
    {c d : Nat} (hsplit : others nut sock = before ++ d :: after) (hc : c ∈ before)
    (hfailed : (copyFor w nut hdr packet c).failed = true) : nut.killed d = true := by
  obtain ⟨front, back, rfl⟩ := List.append_of_mem hc
  -- the two connections in the order of the hash
  have hsub : List.Sublist [c, d] nut.conn := by
    refine List.Sublist.trans ?_ (List.filter_sublist (p := (· ≠ sock)))
    rw [show nut.conn.filter (· ≠ sock) = _ from hsplit, List.append_assoc]
    refine List.Sublist.trans ?_ (List.sublist_append_right front _)
    exact (List.Sublist.refl [c]).append
      ((List.singleton_sublist.mpr (by simp)) : List.Sublist [d] (back ++ d :: after))
  obtain ⟨lead, tail, hconn, hmem, hrest⟩ := List.cons_sublist_iff.mp hsub
  obtain ⟨u, v, rfl⟩ := List.append_of_mem hmem
  have hnot : c ≠ sock := (mem_others.mp (hsplit ▸ (by simp) : c ∈ others nut sock)).2
  have hnotd : d ≠ sock := (mem_others.mp (hsplit ▸ (by simp) : d ∈ others nut sock)).2
  obtain ⟨hlive, hwrites⟩ := copyFor_failed_iff.mp hfailed
  have hbehind := h u c (v ++ tail) (by rw [hconn]; simp) hnot hlive hwrites d
    (List.mem_append_right _ (List.singleton_sublist.mp hrest))
  exact hbehind.resolve_left hnotd

theorem floodsRight_of_not_taken (hquery : IsQuery hdr)
    (hforwards : (nutRoute w nut sock hdr packet).forwards = [])
    (hroute : (nutRoute w nut sock hdr packet).nut.route = nut.route) :
    FloodsRight w nut sock hdr packet := by
  have hnone : (handlePacket w nut sock hdr packet).forwards = [] := by
    rw [handlePacket_of_not_push hquery.2, hforwards]
  refine ⟨fun hne => absurd hnone hne, ?_, ?_⟩
  · intro copy hcopy
    rw [hnone] at hcopy
    cases hcopy
  · intro hbefore hafter
    rw [(handlePacket_tables _ _ _ _ _).1, hroute] at hafter
    exact absurd hbefore hafter

section Forwarding

variable (hquery : IsQuery hdr) (hnodup : nut.conn.Nodup) (htaken : Taken w nut sock hdr packet)
  (hroute : (nutRoute w nut sock hdr packet).nut.route =
    Function.update nut.route hdr.id (some sock))
  (hforwards : (nutRoute w nut sock hdr packet).forwards =
    uptoFailure ((others nut sock).map (copyFor w nut hdr packet)))

include hquery hnodup htaken hroute hforwards

theorem floodsRight_of_taken (hnone : NoneBehindFailure w nut sock hdr) :
    FloodsRight w nut sock hdr packet := by
  have hcopies : (handlePacket w nut sock hdr packet).forwards =
      uptoFailure ((others nut sock).map (copyFor w nut hdr packet)) := by
    rw [handlePacket_of_not_push hquery.2, hforwards]
  have hpre := uptoFailure_prefix ((others nut sock).map (copyFor w nut hdr packet))
  refine ⟨?_, ?_, ?_⟩
  · intro _
    rw [(handlePacket_tables _ _ _ _ _).1, hroute, Function.update_self]
    exact ⟨htaken.2.1, rfl⟩
  · intro copy hcopy
    rw [hcopies] at hcopy
    obtain ⟨d, hd, rfl⟩ := List.mem_map.mp (hpre.subset hcopy)
    rw [copyFor_dest]
    exact (mem_others.mp hd).2
  · intro _ _ d hd hne hlive
    obtain ⟨before, after, hsplit⟩ := List.append_of_mem (mem_others.mpr ⟨hd, hne⟩)
    have hin : copyFor w nut hdr packet d ∈ (handlePacket w nut sock hdr packet).forwards := by
      rw [hcopies, hsplit]
      apply copyFor_mem_uptoFailure
      intro c hc
      by_contra hfailed
      have hkilled := noneBehindFailure_others hnone hsplit hc (Bool.not_eq_false _ ▸ hfailed)
      exact absurd (hlive.symm.trans hkilled) nofun
    have hdests : ((handlePacket w nut sock hdr packet).forwards.map Copy.dest).Nodup := by
      rw [hcopies]
      refine List.Nodup.sublist (hpre.sublist.map Copy.dest) ?_
      rw [map_dest_copyFor]
      exact hnodup.filter _
    refine ⟨copyFor w nut hdr packet d, ?_, ?_⟩
    · have honly := filter_dest_eq hin hdests
      rwa [copyFor_dest] at honly
    · intro hok
      rw [copyFor, sendCopy_of_writesOk hlive (writesOk_passedOn.mpr hok)]

theorem noneBehindFailure_of_floodsRight (h : FloodsRight w nut sock hdr packet) :
    NoneBehindFailure w nut sock hdr := by
  intro before c after hconn hc hlive hwrites d hd
  by_contra hnot
  push Not at hnot
  obtain ⟨hne, hlived⟩ := hnot
  have hafter : (handlePacket w nut sock hdr packet).nut.route hdr.id ≠ none := by
    rw [(handlePacket_tables _ _ _ _ _).1, hroute, Function.update_self]
    exact nofun
  obtain ⟨copy, hfilter, -⟩ := h.others htaken.2.1 hafter d (by rw [hconn]; simp [hd]) hne
    (Bool.eq_false_iff.mpr hlived)
  have hcopy : copy ∈ (handlePacket w nut sock hdr packet).forwards.filter (·.dest = d) := by
    rw [hfilter]
    exact List.mem_singleton_self _
  obtain ⟨hin, hdest⟩ := List.mem_filter.mp hcopy
  have hdest : copy.dest = d := of_decide_eq_true hdest
  rw [handlePacket_of_not_push hquery.2, hforwards, others, hconn, List.filter_append,
    List.filter_cons_of_pos (by simpa using hc), List.map_append, List.map_cons] at hin
  -- the copy is not behind the failed one, but its connection is
  have hplace := uptoFailure_subset (copyFor_failed_iff.mpr ⟨hlive, hwrites⟩) copy hin
  rw [hconn, List.nodup_append] at hnodup
  obtain ⟨-, hback, hdisjoint⟩ := hnodup
  rcases hplace with hfront | rfl
  · obtain ⟨e, he, rfl⟩ := List.mem_map.mp hfront
    rw [copyFor_dest] at hdest
    exact hdisjoint e (List.mem_filter.mp he).1 d (List.mem_cons_of_mem _ hd) hdest
  · rw [copyFor_dest] at hdest
    exact (List.nodup_cons.mp hback).1 (hdest ▸ hd)

end Forwarding

theorem floodsRight_iff (hquery : IsQuery hdr) (hnodup : nut.conn.Nodup) :
    FloodsRight w nut sock hdr packet ↔
      (Taken w nut sock hdr packet → NoneBehindFailure w nut sock hdr) := by
  rcases nutRoute_query w nut sock packet hquery hnodup with
    ⟨hnot, hforwards, hroute⟩ | ⟨htaken, hroute, hforwards⟩
  · exact ⟨fun _ htaken => absurd htaken hnot,
      fun _ => floodsRight_of_not_taken hquery hforwards hroute⟩
  · exact ⟨fun h _ => noneBehindFailure_of_floodsRight hquery hnodup htaken hroute hforwards h,
      fun h => floodsRight_of_taken hquery hnodup htaken hroute hforwards (h htaken)⟩

end Query

/-! ## Replies -/

/-- A reply goes to the connection that its query came from, and nowhere else; an accepted one is
written whole, unless a write to that connection fails. -/
structure RepliesRight (w : World) (nut : NutConfig) (sock : Nat) (hdr : NutHeader)
    (packet : List UInt8) : Prop where
  only : ∀ copy ∈ (handlePacket w nut sock hdr packet).forwards,
    nut.route hdr.id = some copy.dest
  whole : ∀ d, nut.route hdr.id = some d → nut.killed d = false → WritesOk w hdr d →
    (nutValidatePacket w.now nut sock hdr packet).2.1 = .ok →
    (handlePacket w nut sock hdr packet).forwards =
      [⟨d, passedOn nut hdr, wholePacket (passedOn nut hdr) packet, false⟩]

theorem repliesRight (w : World) (nut : NutConfig) (sock : Nat) {hdr : NutHeader}
    (packet : List UInt8) (hreply : isReply hdr = true) :
    RepliesRight w nut sock hdr packet := by
  have hfun : hdr.function ≠ nutPushReq := by
    intro h
    rw [isReply, h] at hreply
    exact absurd hreply (by decide)
  have hforwards : (handlePacket w nut sock hdr packet).forwards =
      (nutRoute w nut sock hdr packet).forwards := handlePacket_of_not_push hfun
  rcases nutRoute_verdict w nut sock hdr packet with
    ⟨hbad, hnone, -⟩ | ⟨hok, nut', htables, hkilled, haccepted⟩
  · rw [hnone] at hforwards
    refine ⟨?_, fun _ _ _ _ hok => absurd hok hbad⟩
    rw [hforwards]
    exact fun _ h => absurd h List.not_mem_nil
  have hrep : isReply (passedOn nut hdr) = true := (isReply_passedOn nut hdr).trans hreply
  generalize nutRoute w nut sock hdr packet = routed at haccepted hforwards
  cases haccepted with
  | reply xsock _ hroute =>
    rw [htables.route, passedOn_id] at hroute
    rw [sendCopy_congr (congrFun hkilled xsock)] at hforwards
    constructor
    · intro copy hcopy
      rw [hforwards] at hcopy
      rw [List.mem_singleton.mp hcopy, sendCopy_dest, hroute]
    · intro d hd hlive hwrites _
      rw [hroute, Option.some_inj] at hd
      subst hd
      rw [hforwards, sendCopy_of_writesOk hlive (writesOk_passedOn.mpr hwrites)]
  | own ret _ hroute =>
    rw [htables.route, passedOn_id] at hroute
    constructor
    · rw [hforwards]
      exact fun _ h => absurd h List.not_mem_nil
    · intro d hd
      rw [hroute] at hd
      cases hd
  | dropped hnot _ _ => exact Bool.noConfusion (hrep.symm.trans hnot)
  | query hnot _ _ _ _ _ => exact Bool.noConfusion (hrep.symm.trans hnot)
  | push hpush => exact absurd (passedOn_function nut hdr ▸ hpush) hfun

end Serveez.Nut
