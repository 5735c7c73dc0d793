import Serveez.Nut.Routing

/-!
# Connections in the Gnutella tables

The tables of routes, of replies, of the server's own packets and of connections hold pointers to
connections. `nut_disconnect` takes a connection out of them: all its entries in the first two,
and the first that it meets in the table of own packets.

* `handlePacket_entries`: a packet enters the connection that it comes from and no other.
* `refersToLive_iff`: in all states of a run the tables refer to live connections only, exactly if
  no connection is closed with more than one own packet in the table.
-/

namespace Serveez.Nut

open Lib

/-- The tables and the live connections. The entries of `packets` have different ids. -/
structure NutTables where
  nut : NutConfig
  packets : List (List UInt8 × Nat)
  live : List Nat

/-- What becomes of the connections. A connection is closed by `nut_disconnect`; `found` is the
place, among its entries in the table of own packets, of the one that the walk through the hash
meets first, and `order` the order of the hash of connections after the change. -/
inductive TableEvent
  /-- `nut_connect_socket` for a Gnutella host, with the ping of `nut_init_ping`. -/
  | connect (sock : Nat) (id : List UInt8) (pinged : Bool) (order : List Nat)
  | packet (w : World) (sock : Nat) (hdr : NutHeader) (packet : List UInt8)
  /-- `nut_idle_searching` -/
  | search (sock : Nat) (id : List UInt8) (written : Bool)
  /-- `nut_send_push` by way of the connection that the query hit came from. -/
  | push (sock : Nat) (id : List UInt8) (written : Bool)
  /-- `nut_disconnect` -/
  | disconnect (sock : Nat) (found : Nat) (order : List Nat)
  /-- An own packet is dropped because of its age. -/
  | expire (id : List UInt8)
  /-- A query text is dropped because of its age. -/
  | forget (key : List UInt8)
  /-- A connection is scheduled for shutdown elsewhere. -/
  | kill (sock : Nat)

/-- `svz_hash_put` in the table of own packets. -/
def putPacket (packets : List (List UInt8 × Nat)) (id : List UInt8) (sock : Nat) :
    List (List UInt8 × Nat) := (id, sock) :: packets.filter (·.1 ≠ id)

def deletePacket (packets : List (List UInt8 × Nat)) (id : List UInt8) :
    List (List UInt8 × Nat) := packets.filter (·.1 ≠ id)

/-- The own packets that a connection has been sent. -/
def ownPackets (t : NutTables) (sock : Nat) : List (List UInt8 × Nat) :=
  t.packets.filter (·.2 = sock)

/-- The configuration as the handlers of a packet see it. -/
def NutTables.view (t : NutTables) : NutConfig :=
  { t.nut with packet := fun id => t.packets.any (·.1 = id) }

section Step

variable {κ : Type} [DecidableEq κ]

/-- The connections with another address than `sock`. -/
def otherKeys (key : Nat → κ) (conn : List Nat) (sock : Nat) : List Nat :=
  conn.filter (fun other => key other ≠ key sock)

/-- The connections in the order that their hash has after a change. -/
def inOrder (order conn : List Nat) : List Nat := if order.Perm conn then order else conn

/-- `key` is the remote address of a connection, under which it is in the hash. -/
def tableStep (key : Nat → κ) (t : NutTables) : TableEvent → NutTables
  | .connect sock id pinged order =>
    if sock ∉ t.live then
      let nut := { t.nut with
        killed := Function.update t.nut.killed sock false
        invalid := Function.update t.nut.invalid sock 0 }
      { nut :=
          if pinged then
            { nut with conn := inOrder order (sock :: otherKeys key t.nut.conn sock) }
          else nut.kill sock
        packets := putPacket t.packets id sock
        live := sock :: t.live }
    else t
  | .packet w sock hdr packet =>
    if sock ∈ t.live ∧ t.nut.killed sock = false then
      { t with nut := (handlePacket w t.view sock hdr packet).nut }
    else t
  | .search sock id written =>
    if sock ∈ t.live then
      if written then { t with packets := putPacket t.packets id sock }
      else { t with nut := t.nut.kill sock }
    else t
  | .push sock id written =>
    if sock ∈ t.live then
      if written then { t with packets := putPacket t.packets id sock }
      else { t with nut := t.nut.kill sock }
    else t
  | .disconnect sock found order =>
    if sock ∈ t.live then
      { nut := { t.nut with
          conn := inOrder order (otherKeys key t.nut.conn sock)
          route := without t.nut.route sock
          reply := without t.nut.reply sock }
        packets :=
          match (ownPackets t sock)[found % (ownPackets t sock).length]? with
          | none => t.packets
          | some entry => deletePacket t.packets entry.1
        live := t.live.filter (· ≠ sock) }
    else t
  | .expire id => { t with packets := deletePacket t.packets id }
  | .forget key => { t with nut := { t.nut with query := Function.update t.nut.query key 0 } }
  | .kill sock => { t with nut := t.nut.kill sock }

def startTables (maxTtl : Nat) : NutTables := ⟨startConfig maxTtl, [], []⟩

def tableRun (key : Nat → κ) (maxTtl : Nat) (events : List TableEvent) : NutTables :=
  events.foldl (tableStep key) (startTables maxTtl)

/-- All entries of the tables are live connections. -/
structure RefersToLive (t : NutTables) : Prop where
  route : ∀ id sock, t.nut.route id = some sock → sock ∈ t.live
  reply : ∀ id sock, t.nut.reply id = some sock → sock ∈ t.live
  packet : ∀ entry ∈ t.packets, entry.2 ∈ t.live
  conn : ∀ sock ∈ t.nut.conn, sock ∈ t.live

/-- A connection is closed with at most one own packet in the table. -/
def OneOwnPacket (t : NutTables) : TableEvent → Prop
  | .disconnect sock _ _ => sock ∈ t.live → (ownPackets t sock).length ≤ 1
  | _ => True

/-! ## Packets -/

theorem handlePacket_reply (w : World) (nut : NutConfig) (sock : Nat) (hdr : NutHeader)
    (packet : List UInt8) {id : List UInt8} {s : Nat}
    (h : (handlePacket w nut sock hdr packet).nut.reply id = some s) :
    nut.reply id = some s ∨ s = sock := by
  have hrouted : (nutRoute w nut sock hdr packet).nut.reply = nut.reply := by
    rcases nutRoute_verdict w nut sock hdr packet with
      ⟨-, -, htables⟩ | ⟨-, nut', htables, -, haccepted⟩
    · exact htables.reply
    generalize nutRoute w nut sock hdr packet = routed at haccepted
    cases haccepted with
    | reply xsock _ _ => exact (htables.trans (sendCopy_sameTables _ _ _ _ _)).reply
    | own ret _ _ => exact htables.reply
    | dropped _ _ _ => exact htables.reply
    | query _ _ _ _ x hx =>
      subst hx
      exact (foldl_routeInternal_sameTables _ _ _ _ _ _).reply.trans htables.reply
    | push _ => exact htables.reply
  rw [← hrouted]
  revert h
  unfold handlePacket
  generalize nutRoute w nut sock hdr packet = routed
  dsimp only
  split_ifs
  · exact Or.inl
  · intro h
    exact Or.inl ((sendCopy_sameTables _ _ _ _ _).reply ▸ h)
  · rw [nutPushRequest]
    split
    · exact Or.inl
    · intro h
      exact Or.inl ((sendCopy_sameTables _ _ _ _ _).reply ▸ h)
  · rw [nutQuery]
    split <;> exact Or.inl
  · rw [nutReply]
    split_ifs
    · exact Or.inl
    · exact Or.inl
    · intro h
      dsimp only at h
      rw [Function.update_apply] at h
      split at h
      · exact Or.inr (Option.some.inj h).symm
      · exact Or.inl h
  · exact Or.inl

/-- What a packet adds to the tables is the connection that it comes from. -/
theorem handlePacket_entries (w : World) (nut : NutConfig) (sock : Nat) (hdr : NutHeader)
    (packet : List UInt8) :
    (∀ id s, (handlePacket w nut sock hdr packet).nut.route id = some s →
        nut.route id = some s ∨ s = sock) ∧
      (∀ id s, (handlePacket w nut sock hdr packet).nut.reply id = some s →
        nut.reply id = some s ∨ s = sock) ∧
      (handlePacket w nut sock hdr packet).nut.conn = nut.conn := by
  refine ⟨fun id s h => ?_, fun id s h => handlePacket_reply w nut sock hdr packet h,
    handlePacket_conn w nut sock hdr packet⟩
  rw [(handlePacket_tables w nut sock hdr packet).1] at h
  exact (nutRoute_route w nut sock hdr packet h).imp_right And.left

/-! ## Steps -/

theorem mem_putPacket {packets : List (List UInt8 × Nat)} {id : List UInt8} {sock : Nat}
    {entry : List UInt8 × Nat} (h : entry ∈ putPacket packets id sock) :
    entry = (id, sock) ∨ entry ∈ packets := by
  rcases List.mem_cons.mp h with h | h
  · exact Or.inl h
  · exact Or.inr (List.mem_filter.mp h).1

theorem RefersToLive.put {t : NutTables} (h : RefersToLive t) {sock : Nat} (hlive : sock ∈ t.live)
    (id : List UInt8) : RefersToLive { t with packets := putPacket t.packets id sock } where
  route := h.route
  reply := h.reply
  packet := by
    intro entry hentry
    rcases mem_putPacket hentry with rfl | hentry
    · exact hlive
    · exact h.packet entry hentry
  conn := h.conn

theorem RefersToLive.kill {t : NutTables} (h : RefersToLive t) (sock : Nat) :
    RefersToLive { t with nut := t.nut.kill sock } := ⟨h.route, h.reply, h.packet, h.conn⟩

theorem RefersToLive.delete {t : NutTables} (h : RefersToLive t) (id : List UInt8) :
    RefersToLive { t with packets := deletePacket t.packets id } where
  route := h.route
  reply := h.reply
  packet := fun entry hentry => h.packet entry (List.mem_filter.mp hentry).1
  conn := h.conn

theorem mem_inOrder {order conn : List Nat} {sock : Nat} :
    sock ∈ inOrder order conn ↔ sock ∈ conn := by
  unfold inOrder
  split
  · next hperm => exact hperm.mem_iff
  · exact Iff.rfl

/-- The ids of the own packets stay different. -/
theorem tableStep_nodup (key : Nat → κ) (t : NutTables) (ev : TableEvent)
    (h : (t.packets.map Prod.fst).Nodup) : ((tableStep key t ev).packets.map Prod.fst).Nodup := by
  have hdelete : ∀ id, ((deletePacket t.packets id).map Prod.fst).Nodup :=
    fun id => h.sublist (List.filter_sublist.map _)
  have hput : ∀ id sock, ((putPacket t.packets id sock).map Prod.fst).Nodup := by
    intro id sock
    refine List.nodup_cons.mpr ⟨fun hmem => ?_, hdelete id⟩
    obtain ⟨entry, hentry, hid⟩ := List.mem_map.mp hmem
    exact of_decide_eq_true (List.mem_filter.mp hentry).2 hid
  cases ev with
  | connect sock id pinged order =>
    rw [tableStep]
    split
    · exact hput id sock
    · exact h
  | packet w sock hdr packet =>
    rw [tableStep]
    split <;> exact h
  | search sock id written =>
    rw [tableStep]
    split_ifs
    · exact hput id sock
    · exact h
    · exact h
  | push sock id written =>
    rw [tableStep]
    split_ifs
    · exact hput id sock
    · exact h
    · exact h
  | disconnect sock found order =>
    rw [tableStep]
    split
    · dsimp only
      split
      · exact h
      · exact hdelete _
    · exact h
  | expire id => exact hdelete id
  | forget key => exact h
  | kill sock => exact h

/-- The entry that `nut_disconnect` deletes from the table of own packets. -/
theorem closed_packets {t : NutTables} (sock : Nat) (found : Nat)
    (hids : (t.packets.map Prod.fst).Nodup) :
    (∀ entry ∈ (match (ownPackets t sock)[found % (ownPackets t sock).length]? with
      | none => t.packets
      | some entry => deletePacket t.packets entry.1), entry.2 ≠ sock) ↔
      (ownPackets t sock).length ≤ 1 := by
  have hown : ∀ entry, entry ∈ ownPackets t sock ↔ entry ∈ t.packets ∧ entry.2 = sock := by
    intro entry
    rw [ownPackets, List.mem_filter, decide_eq_true_iff]
  rcases Nat.eq_zero_or_pos (ownPackets t sock).length with hnone | hpos
  · rw [List.length_eq_zero_iff.mp hnone]
    refine ⟨fun _ => Nat.zero_le _, fun _ entry hentry hsock => ?_⟩
    have hmem := (hown entry).mpr ⟨hentry, hsock⟩
    rw [List.length_eq_zero_iff.mp hnone] at hmem
    exact nomatch hmem
  · have hlt := Nat.mod_lt found hpos
    rw [List.getElem?_eq_getElem hlt]
    dsimp only
    generalize hk : found % (ownPackets t sock).length = k at hlt
    constructor
    · intro hall
      by_contra hmany
      -- another entry of the connection, which has another id
      obtain ⟨j, hj, hne⟩ : ∃ j, ∃ hj : j < (ownPackets t sock).length, j ≠ k :=
        if hzero : k = 0 then ⟨1, by omega, by omega⟩ else ⟨0, hpos, Ne.symm hzero⟩
      have hidown : ((ownPackets t sock).map Prod.fst).Nodup :=
        hids.sublist (List.filter_sublist.map _)
      obtain ⟨hmem, hsock⟩ := (hown _).mp (List.getElem_mem hj)
      refine hall _ (List.mem_filter.mpr ⟨hmem, decide_eq_true fun hsame => hne ?_⟩) hsock
      have hplace {n : Nat} (hn : n < (ownPackets t sock).length) :
          n < ((ownPackets t sock).map Prod.fst).length := by rwa [List.length_map]
      have hjids := hplace hj
      have hkids := hplace hlt
      have hget : ((ownPackets t sock).map Prod.fst)[j] =
          ((ownPackets t sock).map Prod.fst)[k] := by
        rw [List.getElem_map, List.getElem_map]
        exact hsame
      exact hidown.getElem_inj_iff.mp hget
    · intro hone entry hentry hsock
      obtain ⟨hmem, hdiff⟩ := List.mem_filter.mp hentry
      obtain ⟨j, hj, hget⟩ := List.mem_iff_getElem.mp ((hown entry).mpr ⟨hmem, hsock⟩)
      have hsame : j = k := by omega
      subst hsame
      rw [hget] at hdiff
      exact of_decide_eq_true hdiff rfl

theorem refersToLive_step (key : Nat → κ) {t : NutTables} (ev : TableEvent)
    (hids : (t.packets.map Prod.fst).Nodup) (h : RefersToLive t) :
    RefersToLive (tableStep key t ev) ↔ OneOwnPacket t ev := by
  cases ev with
  | connect sock id pinged order =>
    refine ⟨fun _ => trivial, fun _ => ?_⟩
    rw [tableStep]
    split
    · have hput : ∀ entry ∈ putPacket t.packets id sock, entry.2 ∈ sock :: t.live := by
        intro entry hentry
        rcases mem_putPacket hentry with rfl | hentry
        · exact List.mem_cons_self
        · exact List.mem_cons_of_mem _ (h.packet entry hentry)
      have hconn : ∀ s ∈ inOrder order (sock :: otherKeys key t.nut.conn sock),
          s ∈ sock :: t.live := by
        intro s hs
        rcases List.mem_cons.mp (mem_inOrder.mp hs) with rfl | hs
        · exact List.mem_cons_self
        · exact List.mem_cons_of_mem _ (h.conn s (List.mem_filter.mp hs).1)
      cases pinged with
      | true =>
        exact ⟨fun id s hs => List.mem_cons_of_mem _ (h.route id s hs),
          fun id s hs => List.mem_cons_of_mem _ (h.reply id s hs), hput, hconn⟩
      | false =>
        exact ⟨fun id s hs => List.mem_cons_of_mem _ (h.route id s hs),
          fun id s hs => List.mem_cons_of_mem _ (h.reply id s hs), hput,
          fun s hs => List.mem_cons_of_mem _ (h.conn s hs)⟩
    · exact h
  | packet w sock hdr packet =>
    refine ⟨fun _ => trivial, fun _ => ?_⟩
    rw [tableStep]
    split
    · next hcond =>
      obtain ⟨hroute, hreply, hconn⟩ := handlePacket_entries w t.view sock hdr packet
      refine ⟨fun id s hs => ?_, fun id s hs => ?_, h.packet, ?_⟩
      · rcases hroute id s hs with hs | rfl
        · exact h.route id s hs
        · exact hcond.1
      · rcases hreply id s hs with hs | rfl
        · exact h.reply id s hs
        · exact hcond.1
      · dsimp only
        rw [hconn]
        exact h.conn
    · exact h
  | search sock id written =>
    refine ⟨fun _ => trivial, fun _ => ?_⟩
    rw [tableStep]
    split_ifs with hlive
    · exact h.put hlive id
    · exact h.kill sock
    · exact h
  | push sock id written =>
    refine ⟨fun _ => trivial, fun _ => ?_⟩
    rw [tableStep]
    split_ifs with hlive
    · exact h.put hlive id
    · exact h.kill sock
    · exact h
  | disconnect sock found order =>
    have hkeep : ∀ s, s ∈ t.live.filter (· ≠ sock) ↔ s ∈ t.live ∧ s ≠ sock := by
      intro s
      rw [List.mem_filter, decide_eq_true_iff]
    have htable : ∀ (table : List UInt8 → Option Nat), (∀ id s, table id = some s → s ∈ t.live) →
        ∀ id s, without table sock id = some s → s ∈ t.live.filter (· ≠ sock) := by
      intro table hall id s hs
      dsimp only [without] at hs
      split at hs
      · exact nomatch hs
      · next hother =>
        refine (hkeep s).mpr ⟨hall id s hs, fun hsame => hother ?_⟩
        rw [hs, hsame]
    rw [tableStep]
    split
    · next hlive =>
      have hclosed := closed_packets sock found hids
      constructor
      · intro hnext _
        exact hclosed.mp (fun entry hentry => ((hkeep _).mp (hnext.packet entry hentry)).2)
      · intro hone
        refine ⟨htable _ h.route, htable _ h.reply, fun entry hentry => ?_, fun s hs => ?_⟩
        · refine (hkeep _).mpr ⟨h.packet entry ?_, hclosed.mpr (hone hlive) entry hentry⟩
          dsimp only at hentry
          split at hentry
          · exact hentry
          · exact (List.mem_filter.mp hentry).1
        · obtain ⟨hmem, hkey⟩ := List.mem_filter.mp (mem_inOrder.mp hs)
          refine (hkeep s).mpr ⟨h.conn s hmem, fun hsame => ?_⟩
          exact of_decide_eq_true hkey (congrArg key hsame)
    · next hdead => exact ⟨fun _ hlive => absurd hlive hdead, fun _ => h⟩
  | expire id => exact ⟨fun _ => trivial, fun _ => h.delete id⟩
  | forget key => exact ⟨fun _ => trivial, fun _ => ⟨h.route, h.reply, h.packet, h.conn⟩⟩
  | kill sock => exact ⟨fun _ => trivial, fun _ => h.kill sock⟩

/-- **Liveness of the tables.** In all states of a run, every entry of the tables is a live
connection, exactly if no connection is closed that has more than one own packet in the table. -/
theorem refersToLive_iff (key : Nat → κ) (maxTtl : Nat) (events : List TableEvent) :
    (∀ pre, pre <+: events → RefersToLive (tableRun key maxTtl pre)) ↔
      ∀ pre ev, pre ++ [ev] <+: events → OneOwnPacket (tableRun key maxTtl pre) ev := by
  have hids : ((startTables maxTtl).packets.map Prod.fst).Nodup := List.nodup_nil
  have hstart : RefersToLive (startTables maxTtl) := by
    constructor
    · intro id sock h
      exact nomatch h
    · intro id sock h
      exact nomatch h
    · intro entry h
      exact nomatch h
    · intro sock h
      exact nomatch h
  apply forall_prefix_iff_of_aux (tableStep key) (fun t => (t.packets.map Prod.fst).Nodup)
    RefersToLive OneOwnPacket hids hstart
  · exact fun pre ev _ hids h hnext => (refersToLive_step key ev hids h).mp hnext
  · exact fun pre ev _ hids h hone =>
      ⟨tableStep_nodup key _ ev hids, (refersToLive_step key ev hids h).mpr hone⟩

end Step

/-- A host connects, is sent a search and goes. -/
def searchedAndGone : List TableEvent :=
  [.connect 1 [1] true [1], .search 1 [2] true, .disconnect 1 0 []]

/-- The ping or the search still refers to the connection. -/
theorem searchedAndGone_refers : ¬ RefersToLive (tableRun id 5 searchedAndGone) := by
  intro h
  exact absurd (h.packet ([1], 1) (by decide)) (by decide)

end Serveez.Nut
