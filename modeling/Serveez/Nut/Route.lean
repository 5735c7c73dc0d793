import Serveez.Lib.Cut
import Serveez.Nut.Header

/-!
# Gnutella routing

What `nut_check_request` does with one packet: validation, which changes the header in place,
routing by the table of the queries seen, and the handler of the packet's function. A query is
passed on to all other connections, a reply to the connection that its query came from, and a
push request to the connection that the file was offered on.

The outcome of the writes, the time and what the server answers itself are the `World` of a
packet. A connection is known by a number, and a write to a killed one does nothing.
-/

namespace Serveez.Nut

/-! ## Packets -/

def nutPingReq : UInt8 := 0x00
def nutPingAck : UInt8 := 0x01
def nutPushReq : UInt8 := 0x40
def nutSearchReq : UInt8 := 0x80
def nutSearchAck : UInt8 := 0x81

def sizeofNutPong : Nat := 14
def sizeofNutQuery : Nat := 2
def sizeofNutRecord : Nat := 8
def sizeofNutReply : Nat := 11
def sizeofNutPush : Nat := 26

/-- The part of the configuration and of the connections that routing reads and writes. `conn`
are the connections in the order of `svz_hash_foreach`, and a time of zero in `query` is none. -/
structure NutConfig where
  maxTtl : Nat
  conn : List Nat
  route : List UInt8 → Option Nat
  packet : List UInt8 → Bool
  reply : List UInt8 → Option Nat
  query : List UInt8 → Nat
  invalid : Nat → Nat
  killed : Nat → Bool

/-- What a packet meets: the time; for each connection the number of bytes after which writing a
header or a body fails, if it does; and the bodies of the server's own answers. -/
structure World where
  now : Nat
  writes : Nat → Option Nat × Option Nat
  pong : List UInt8
  search : List UInt8 → Option (List UInt8)

/-- A packet passed on to a connection, with the bytes that its send buffer has taken. -/
structure Copy where
  dest : Nat
  hdr : NutHeader
  delivered : List UInt8
  failed : Bool

/-- `svz_sock_schedule_for_shutdown` -/
def NutConfig.kill (nut : NutConfig) (sock : Nat) : NutConfig :=
  { nut with killed := Function.update nut.killed sock true }

/-- A header and, if there is one, the body behind it are written. -/
def sendCopy (w : World) (nut : NutConfig) (dest : Nat) (hdr : NutHeader) (body : List UInt8) :
    NutConfig × Copy :=
  if nut.killed dest then (nut, ⟨dest, hdr, [], false⟩)
  else
    match w.writes dest with
    | (some n, _) => (nut.kill dest, ⟨dest, hdr, (nutPutHeader hdr).take n, true⟩)
    | (none, bodyWrite) =>
      if hdr.length = 0 then (nut, ⟨dest, hdr, nutPutHeader hdr, false⟩)
      else
        match bodyWrite with
        | some n => (nut.kill dest, ⟨dest, hdr, nutPutHeader hdr ++ body.take n, true⟩)
        | none => (nut, ⟨dest, hdr, nutPutHeader hdr ++ body, false⟩)

/-! ## Validation -/

inductive Verdict
  | invalid
  | dead
  | ok
  deriving DecidableEq

def isAlnum (c : UInt8) : Bool :=
  (48 ≤ c && c ≤ 57) || (65 ≤ c && c ≤ 90) || (97 ≤ c && c ≤ 122)

def toLower (c : UInt8) : UInt8 := if 65 ≤ c ∧ c ≤ 90 then c + 32 else c

/-- The string at the start of a buffer. -/
def cString (s : List UInt8) : List UInt8 := s.takeWhile (· ≠ 0)

theorem cString_eq_self {s : List UInt8} (h : 0 ∉ s) : cString s = s := Lib.takeWhile_ne_self h

def nutQueryTooRecent : Nat := 10

/-- `nut_canonize_query`; the flag tells whether the query passes. -/
def nutCanonizeQuery (now : Nat) (nut : NutConfig) (query : List UInt8) : NutConfig × Bool :=
  let text := cString query
  if text = [] then (nut, false)
  else
    let key := (text.filter isAlnum).map toLower
    if nut.query key ≠ 0 then (nut, ¬ (now - nut.query key < nutQueryTooRecent))
    else ({ nut with query := Function.update nut.query key now }, true)

def nutInvalidPackets : Nat := 20

/-- The size validation of `nut_validate_packet`. -/
def validateSize (now : Nat) (nut : NutConfig) (sock : Nat) (hdr : NutHeader)
    (packet : List UInt8) : NutConfig × Bool :=
  if hdr.function = nutPingReq then (nut, hdr.length = 0)
  else if hdr.function = nutPingAck then (nut, hdr.length.toNat = sizeofNutPong)
  else if hdr.function = nutPushReq then (nut, hdr.length.toNat = sizeofNutPush)
  else if hdr.function = nutSearchReq then
    if hdr.length.toNat > 257 then (nut, false)
    else nutCanonizeQuery now nut (packet.drop sizeofNutQuery)
  else if hdr.function = nutSearchAck then
    (nut, ¬ hdr.length.toNat > (sizeofNutRecord + 256) * 256)
  else
    let nut' := { nut with invalid := Function.update nut.invalid sock (nut.invalid sock + 1) }
    (if nut.invalid sock > nutInvalidPackets then nut'.kill sock else nut', false)

/-- The two rules that decrease the time to live of a packet. -/
def decreaseTtl (maxTtl : Nat) (hdr : NutHeader) : NutHeader :=
  let hdr := if hdr.ttl.toNat > maxTtl then { hdr with ttl := UInt8.ofNat maxTtl } else hdr
  if hdr.ttl.toNat + hdr.hop.toNat > maxTtl then
    { hdr with ttl := UInt8.ofNat (maxTtl - hdr.hop.toNat) }
  else hdr

/-- The checks of hops and time to live of `nut_validate_packet`. -/
def hopsAndTtls (maxTtl : Nat) (hdr : NutHeader) : Verdict × NutHeader :=
  if hdr.ttl ≤ 1 then (.dead, hdr)
  else
    let hdr := { hdr with hop := hdr.hop + 1, ttl := hdr.ttl - 1 }
    if hdr.hop.toNat > maxTtl then (.dead, hdr)
    else if hdr.ttl > 50 then (.dead, hdr)
    else (.ok, decreaseTtl maxTtl hdr)

def nutValidatePacket (now : Nat) (nut : NutConfig) (sock : Nat) (hdr : NutHeader)
    (packet : List UInt8) : NutConfig × Verdict × NutHeader :=
  let checked := validateSize now nut sock hdr packet
  if checked.2 then (checked.1, hopsAndTtls nut.maxTtl hdr) else (checked.1, .invalid, hdr)

/-! ## Routing -/

/-- The closure of `svz_hash_foreach` and the copies made so far. -/
structure RouteClosure where
  nut : NutConfig
  problemp : Bool
  copies : List Copy

def routeInternal (w : World) (hdr : NutHeader) (body : List UInt8) (avoid : Nat)
    (x : RouteClosure) (sock : Nat) : RouteClosure :=
  if x.problemp ∨ avoid = sock then x
  else
    let sent := sendCopy w x.nut sock hdr body
    ⟨sent.1, sent.2.failed, x.copies ++ [sent.2]⟩

/-- What `nut_route` leaves: its return value, the changed header, and the copies passed on. -/
structure Routed where
  nut : NutConfig
  ret : Int
  hdr : NutHeader
  forwards : List Copy

/-- The body of a packet, which is as long as its header says. -/
def bodyOf (hdr : NutHeader) (packet : List UInt8) : List UInt8 := packet.take hdr.length.toNat

def isReply (hdr : NutHeader) : Bool := hdr.function &&& 0x01 ≠ 0

def nutRoute (w : World) (nut : NutConfig) (sock : Nat) (hdr : NutHeader) (packet : List UInt8) :
    Routed :=
  match nutValidatePacket w.now nut sock hdr packet with
  | (nut, .invalid, hdr) => ⟨nut, -1, hdr, []⟩
  | (nut, .dead, hdr) => ⟨nut, 0, hdr, []⟩
  | (nut, .ok, hdr) =>
    if isReply hdr then
      match nut.route hdr.id with
      | none => if nut.packet hdr.id then ⟨nut, 0, hdr, []⟩ else ⟨nut, -1, hdr, []⟩
      | some xsock =>
        let sent := sendCopy w nut xsock hdr (bodyOf hdr packet)
        ⟨sent.1, 0, hdr, [sent.2]⟩
    else if hdr.function ≠ nutPushReq then
      if (nut.route hdr.id).isSome then ⟨nut, -1, hdr, []⟩
      else if nut.packet hdr.id then ⟨nut, -1, hdr, []⟩
      else
        let nut := { nut with route := Function.update nut.route hdr.id (some sock) }
        let x := nut.conn.foldl (routeInternal w hdr (bodyOf hdr packet) sock) ⟨nut, false, []⟩
        ⟨x.nut, 0, hdr, x.copies⟩
    else ⟨nut, 0, hdr, []⟩

/-! ## Handlers -/

/-- What becomes of a packet: the copies passed on, and the server's own answers. -/
structure Handled where
  nut : NutConfig
  forwards : List Copy
  answers : List Copy

/-- `nut_ping` -/
def nutPing (w : World) (nut : NutConfig) (sock : Nat) (hdr : NutHeader) : NutConfig × List Copy :=
  let hdr := { hdr with
    function := nutPingAck, length := UInt32.ofNat sizeofNutPong, ttl := hdr.hop, hop := 0 }
  let sent := sendCopy w nut sock hdr w.pong
  (sent.1, [sent.2])

/-- `nut_query`. The search covers the test of the speed, that of the payload and the database.
A failed write leaves the connection as it is. -/
def nutQuery (w : World) (nut : NutConfig) (sock : Nat) (hdr : NutHeader) (packet : List UInt8) :
    NutConfig × List Copy :=
  match w.search (bodyOf hdr packet) with
  | none => (nut, [])
  | some hits =>
    let hdr := { hdr with
      function := nutSearchAck, length := UInt32.ofNat hits.length, ttl := hdr.hop, hop := 0 }
    (nut, [(sendCopy w nut sock hdr hits).2])

/-- `nut_reply`: the way for push requests is noted, unless the reply is to a query of the
server, whose records may start downloads. -/
def nutReply (nut : NutConfig) (sock : Nat) (hdr : NutHeader) (packet : List UInt8) : NutConfig :=
  if hdr.length.toNat < sizeofNutReply + nutGuidSize then nut
  else if nut.packet hdr.id then nut
  else
    let id := (packet.drop (hdr.length.toNat - nutGuidSize)).take nutGuidSize
    { nut with reply := Function.update nut.reply id (some sock) }

/-- The id at the start of a push request. -/
def pushId (packet : List UInt8) : List UInt8 := packet.take nutGuidSize

/-- `nut_push_request`. A request for the server itself starts an upload. -/
def nutPushRequest (w : World) (nut : NutConfig) (hdr : NutHeader) (packet : List UInt8) :
    NutConfig × List Copy :=
  match nut.reply (pushId packet) with
  | none => (nut, [])
  | some xsock =>
    let sent := sendCopy w nut xsock hdr (packet.take sizeofNutPush)
    (sent.1, [sent.2])

/-- The part of `nut_check_request` for one packet from the connection `sock`. -/
def handlePacket (w : World) (nut : NutConfig) (sock : Nat) (hdr : NutHeader)
    (packet : List UInt8) : Handled :=
  let routed := nutRoute w nut sock hdr packet
  if routed.ret ≠ 0 then ⟨routed.nut, routed.forwards, []⟩
  else if routed.hdr.function = nutPingReq then
    let done := nutPing w routed.nut sock routed.hdr
    ⟨done.1, routed.forwards, done.2⟩
  else if routed.hdr.function = nutPushReq then
    let done := nutPushRequest w routed.nut routed.hdr packet
    ⟨done.1, routed.forwards ++ done.2, []⟩
  else if routed.hdr.function = nutSearchReq then
    let done := nutQuery w routed.nut sock routed.hdr packet
    ⟨done.1, routed.forwards, done.2⟩
  else if routed.hdr.function = nutSearchAck then
    ⟨nutReply routed.nut sock routed.hdr packet, routed.forwards, []⟩
  else ⟨routed.nut, routed.forwards, []⟩

/-! ## Frame -/

/-- Validation leaves the tables and the connections; it may kill the one with the packet. -/
structure SameTables (nut nut' : NutConfig) : Prop where
  maxTtl : nut'.maxTtl = nut.maxTtl
  conn : nut'.conn = nut.conn
  route : nut'.route = nut.route
  packet : nut'.packet = nut.packet
  reply : nut'.reply = nut.reply

theorem SameTables.refl (nut : NutConfig) : SameTables nut nut := ⟨rfl, rfl, rfl, rfl, rfl⟩

theorem nutCanonizeQuery_sameTables (now : Nat) (nut : NutConfig) (query : List UInt8) :
    SameTables nut (nutCanonizeQuery now nut query).1 ∧
      (nutCanonizeQuery now nut query).1.killed = nut.killed := by
  unfold nutCanonizeQuery
  dsimp only
  split_ifs
  · exact ⟨.refl nut, rfl⟩
  · exact ⟨.refl nut, rfl⟩
  · exact ⟨⟨rfl, rfl, rfl, rfl, rfl⟩, rfl⟩

theorem validateSize_sameTables (now : Nat) (nut : NutConfig) (sock : Nat) (hdr : NutHeader)
    (packet : List UInt8) :
    SameTables nut (validateSize now nut sock hdr packet).1 ∧
      ((validateSize now nut sock hdr packet).2 = true →
        (validateSize now nut sock hdr packet).1.killed = nut.killed) := by
  unfold validateSize
  split_ifs
  · exact ⟨.refl nut, fun _ => rfl⟩
  · exact ⟨.refl nut, fun _ => rfl⟩
  · exact ⟨.refl nut, fun _ => rfl⟩
  · exact ⟨.refl nut, nofun⟩
  · obtain ⟨htables, hkilled⟩ := nutCanonizeQuery_sameTables now nut (packet.drop sizeofNutQuery)
    exact ⟨htables, fun _ => hkilled⟩
  · exact ⟨.refl nut, fun _ => rfl⟩
  · exact ⟨⟨rfl, rfl, rfl, rfl, rfl⟩, nofun⟩
  · exact ⟨⟨rfl, rfl, rfl, rfl, rfl⟩, nofun⟩

/-- A verdict other than `invalid` comes from the checks of the header. -/
theorem nutValidatePacket_cases (now : Nat) (nut : NutConfig) (sock : Nat) (hdr : NutHeader)
    (packet : List UInt8) :
    ((validateSize now nut sock hdr packet).2 = true ∧
      nutValidatePacket now nut sock hdr packet =
        ((validateSize now nut sock hdr packet).1, hopsAndTtls nut.maxTtl hdr)) ∨
    ((validateSize now nut sock hdr packet).2 = false ∧
      nutValidatePacket now nut sock hdr packet =
        ((validateSize now nut sock hdr packet).1, .invalid, hdr)) := by
  unfold nutValidatePacket
  cases h : (validateSize now nut sock hdr packet).2 with
  | true => exact Or.inl ⟨rfl, by simp [h]⟩
  | false => exact Or.inr ⟨rfl, by simp [h]⟩

/-! ## Copies -/

theorem sendCopy_copy (w : World) (nut : NutConfig) (dest : Nat) (hdr : NutHeader)
    (body : List UInt8) : (sendCopy w nut dest hdr body).2.hdr = hdr ∧
      (sendCopy w nut dest hdr body).2.dest = dest := by
  unfold sendCopy
  split
  · exact ⟨rfl, rfl⟩
  · split
    · exact ⟨rfl, rfl⟩
    · split
      · exact ⟨rfl, rfl⟩
      · split <;> exact ⟨rfl, rfl⟩

@[simp] theorem sendCopy_hdr (w : World) (nut : NutConfig) (dest : Nat) (hdr : NutHeader)
    (body : List UInt8) : (sendCopy w nut dest hdr body).2.hdr = hdr :=
  (sendCopy_copy w nut dest hdr body).1

@[simp] theorem sendCopy_dest (w : World) (nut : NutConfig) (dest : Nat) (hdr : NutHeader)
    (body : List UInt8) : (sendCopy w nut dest hdr body).2.dest = dest :=
  (sendCopy_copy w nut dest hdr body).2

/-- The flood of a query. -/
def flood (w : World) (hdr : NutHeader) (body : List UInt8) (avoid : Nat) (nut : NutConfig) :
    RouteClosure :=
  nut.conn.foldl (routeInternal w hdr body avoid) ⟨nut, false, []⟩

/-- What `nut_route` does with a packet that has been accepted. -/
inductive Accepted (w : World) (nut : NutConfig) (sock : Nat) (hdr : NutHeader)
    (packet : List UInt8) : Routed → Prop
  /-- A reply to a query from the connection `xsock`. -/
  | reply (xsock : Nat) (hreply : isReply hdr = true) (hroute : nut.route hdr.id = some xsock) :
      Accepted w nut sock hdr packet
        ⟨(sendCopy w nut xsock hdr (bodyOf hdr packet)).1, 0, hdr,
          [(sendCopy w nut xsock hdr (bodyOf hdr packet)).2]⟩
  /-- A reply to a query of the server, or to none that it knows. -/
  | own (ret : Int) (hreply : isReply hdr = true) (hroute : nut.route hdr.id = none) :
      Accepted w nut sock hdr packet ⟨nut, ret, hdr, []⟩
  /-- A query seen before, or one of the server. -/
  | dropped (hreply : isReply hdr = false) (hpush : hdr.function ≠ nutPushReq)
      (hseen : (nut.route hdr.id).isSome = true ∨ nut.packet hdr.id = true) :
      Accepted w nut sock hdr packet ⟨nut, -1, hdr, []⟩
  /-- A new query. -/
  | query (hreply : isReply hdr = false) (hpush : hdr.function ≠ nutPushReq)
      (hroute : nut.route hdr.id = none) (hpacket : nut.packet hdr.id = false)
      (x : RouteClosure)
      (hx : x = flood w hdr (bodyOf hdr packet) sock
        { nut with route := Function.update nut.route hdr.id (some sock) }) :
      Accepted w nut sock hdr packet ⟨x.nut, 0, hdr, x.copies⟩
  /-- A push request is left to its handler. -/
  | push (hpush : hdr.function = nutPushReq) : Accepted w nut sock hdr packet ⟨nut, 0, hdr, []⟩

/-- What `nut_route` does. -/
theorem nutRoute_cases (w : World) (nut : NutConfig) (sock : Nat) (hdr : NutHeader)
    (packet : List UInt8) :
    ∃ nut' verdict hdr', nutValidatePacket w.now nut sock hdr packet = (nut', verdict, hdr') ∧
      ((verdict = .invalid ∧ nutRoute w nut sock hdr packet = ⟨nut', -1, hdr', []⟩) ∨
        (verdict = .dead ∧ nutRoute w nut sock hdr packet = ⟨nut', 0, hdr', []⟩) ∨
        (verdict = .ok ∧ Accepted w nut' sock hdr' packet (nutRoute w nut sock hdr packet))) := by
  rcases hv : nutValidatePacket w.now nut sock hdr packet with ⟨nut', verdict, hdr'⟩
  refine ⟨nut', verdict, hdr', rfl, ?_⟩
  unfold nutRoute
  rw [hv]
  cases verdict with
  | invalid => exact Or.inl ⟨rfl, rfl⟩
  | dead => exact Or.inr (Or.inl ⟨rfl, rfl⟩)
  | ok =>
    refine Or.inr (Or.inr ⟨rfl, ?_⟩)
    dsimp only
    split
    · next hreply =>
      split
      · next hroute =>
        split <;> exact .own _ hreply hroute
      · next xsock hroute => exact .reply xsock hreply hroute
    · next hreply =>
      rw [Bool.not_eq_true] at hreply
      split
      · next hpush =>
        split
        · next hseen => exact .dropped hreply hpush (Or.inl hseen)
        · next hroute =>
          split
          · next hown => exact .dropped hreply hpush (Or.inr hown)
          · next hown =>
            exact .query hreply hpush (Option.not_isSome_iff_eq_none.mp hroute)
              (Bool.eq_false_iff.mpr hown) _ rfl
      · next hpush => exact .push (not_not.mp hpush)

end Serveez.Nut
