import Serveez.Nut.Records
import Serveez.Nut.Ttl

/-!
# What a frame depends on

`nut_check_request` passes the address of a packet's body in the receive buffer to `nut_route` and
to the handlers, which read it with fixed sizes and as C strings. Here they read the whole buffer
from the body on, with what is behind the frame, and have no result if they need more than there
is.

* `checkFrame_append`: what a frame gives does not change when more bytes come behind.
* `frameIsolated_iff`: the frames that are handled by themselves. The others are the queries
  whose string is not ended in the payload, and the query hits that are passed on with a payload
  shorter than the reply header that is read of them.
-/

namespace Serveez.Nut

open Lib

/-- What the handlers read of the configuration besides the tables. `answer` is the body of the
query hits for a search text: the database, the address and the limit of the records go into it. -/
structure NutSettings where
  speed : Nat
  minSpeed : Nat
  guid : List UInt8
  answer : List UInt8 → Option (List UInt8)

/-- What becomes of a frame: the value of `nut_route`, what was sent, how often the packet was
counted as dropped, the hosts given to the host catcher, the numbers of a pong, the records of
query hits for the server itself, and the rest of a push request for it. -/
structure FrameResult where
  nut : NutConfig
  ret : Int
  forwards : List Copy
  answers : List Copy
  dropped : Nat
  hosts : List (List UInt8 × List UInt8)
  pong : Option (UInt32 × UInt32)
  records : List NutRecord
  upload : Option (List UInt8)

/-- The result of a frame for which there is nothing but routing. -/
def FrameResult.ofRouted (routed : Routed) : FrameResult where
  nut := routed.nut
  ret := routed.ret
  forwards := routed.forwards
  answers := []
  dropped := 0
  hosts := []
  pong := none
  records := []
  upload := none

/-! ## Routing and handlers -/

/-- `nut_route`. `nut_canonize_query` copies the string behind the speed of a query. -/
def routeFrame (w : World) (nut : NutConfig) (sock : Nat) (hdr : NutHeader) (packet : List UInt8) :
    Option Routed :=
  if hdr.function = nutSearchReq ∧ hdr.length.toNat ≤ 257 then
    (readUntil 0 sizeofNutQuery packet).map fun _ => nutRoute w nut sock hdr packet
  else some (nutRoute w nut sock hdr packet)

/-- `nut_pong` -/
def pongFrame (routed : Routed) (packet : List UInt8) : Option FrameResult :=
  (readBytes 0 sizeofNutPong packet).map fun data =>
  { FrameResult.ofRouted routed with
    hosts := [((data.drop 2).take 4, data.take 2)]
    pong := if routed.nut.packet routed.hdr.id then
      some (getUInt32 (data.drop 6), getUInt32 (data.drop 10)) else none }

/-- `nut_push_request` -/
def pushFrame (w : World) (host : NutSettings) (routed : Routed) (packet : List UInt8) :
    Option FrameResult :=
  (readBytes 0 sizeofNutPush packet).map fun push =>
  let result := FrameResult.ofRouted routed
  if (routed.nut.reply (pushId push)).isSome then
    let done := nutPushRequest w routed.nut routed.hdr push
    { result with nut := done.1, forwards := routed.forwards ++ done.2 }
  else if host.guid = pushId push then { result with upload := some (push.drop nutGuidSize) }
  else { result with dropped := 1 }

/-- `while (*p++ && len < hdr->length) len++`, for at most `n` rounds: the length of the text. -/
def scanQuery : Nat → Nat → List UInt8 → Option Nat
  | 0, len, packet => (readByte len packet).map fun _ => len
  | n + 1, len, packet =>
    (readByte len packet).bind fun c => if c ≠ 0 then scanQuery n (len + 1) packet else some len

/-- `nut_query` -/
def queryFrame (w : World) (host : NutSettings) (sock : Nat) (routed : Routed)
    (packet : List UInt8) : Option FrameResult :=
  let length := routed.hdr.length.toNat
  let result := FrameResult.ofRouted routed
  (readBytes 0 sizeofNutQuery packet).bind fun speed =>
  if ofBytes speed > host.speed then some result
  else
    (scanQuery (length - sizeofNutQuery) sizeofNutQuery packet).bind fun len =>
    (readByte sizeofNutQuery packet).bind fun first =>
    if length ≤ len ∧ first ≠ 0 then some result
    else
      (readUntil 0 sizeofNutQuery packet).map fun file =>
      match host.answer file with
      | none => result
      | some hits =>
        let hdr := { routed.hdr with
          function := nutSearchAck, length := UInt32.ofNat hits.length
          ttl := routed.hdr.hop, hop := 0 }
        { result with answers := [(sendCopy w routed.nut sock hdr hits).2] }

/-- The size of what `nut_get_reply` reads of the header of query hits. -/
def nutGetReplySize : Nat := 9

/-- `nut_reply` -/
def replyFrame (host : NutSettings) (sock : Nat) (routed : Routed) (packet : List UInt8) :
    Option FrameResult :=
  let length := routed.hdr.length.toNat
  (readBytes 0 nutGetReplySize packet).bind fun reply =>
  let result := { FrameResult.ofRouted routed with
    hosts := [((reply.drop 3).take 4, (reply.drop 1).take 2)] }
  if length < sizeofNutReply + nutGuidSize then some { result with dropped := 1 }
  else
    (readBytes (length - nutGuidSize) nutGuidSize packet).bind fun id =>
    if routed.nut.packet routed.hdr.id then
      if ofBytes ((reply.drop 7).take 2) < host.minSpeed then some result
      else
        (nutRecords (reply.getD 0 0).toNat (length - sizeofNutReply - nutGuidSize : Nat)
          (packet.drop sizeofNutReply)).map fun records =>
        { result with records := records.1, dropped := if records.2 then 0 else 1 }
    else
      some { result with
        nut := { routed.nut with reply := Function.update routed.nut.reply id (some sock) } }

/-- What `nut_check_request` does with a packet after `nut_route`. -/
def handleRouted (w : World) (host : NutSettings) (sock : Nat) (routed : Routed)
    (packet : List UInt8) : Option FrameResult :=
  let result := FrameResult.ofRouted routed
  if routed.ret ≠ 0 then
    some { result with dropped := if routed.nut.killed sock then 0 else 1 }
  else if routed.hdr.function = nutPingReq then
    let done := nutPing w routed.nut sock routed.hdr
    some { result with nut := done.1, answers := done.2 }
  else if routed.hdr.function = nutPingAck then pongFrame routed packet
  else if routed.hdr.function = nutPushReq then pushFrame w host routed packet
  else if routed.hdr.function = nutSearchReq then queryFrame w host sock routed packet
  else if routed.hdr.function = nutSearchAck then replyFrame host sock routed packet
  else some result

/-- The part of `nut_check_request` for one packet, whose body is at the start of `packet`. -/
def handleFrame (w : World) (host : NutSettings) (nut : NutConfig) (sock : Nat) (hdr : NutHeader)
    (packet : List UInt8) : Option FrameResult :=
  (routeFrame w nut sock hdr packet).bind fun routed => handleRouted w host sock routed packet

/-- The first frame of a receive buffer that holds it completely. -/
def checkFrame (w : World) (host : NutSettings) (nut : NutConfig) (sock : Nat)
    (recvBuffer : List UInt8) : Option FrameResult :=
  handleFrame w host nut sock (nutGetHeader recvBuffer) (recvBuffer.drop sizeofNutHeader)

/-- A header with as many bytes behind it as it announces. -/
structure Frame where
  bytes : List UInt8
  isFrame : frameSize bytes = some bytes.length

/-- The frame is handled in the same way whatever follows it, and no byte behind it is read. -/
def FrameIsolated (w : World) (host : NutSettings) (nut : NutConfig) (sock : Nat)
    (frame : Frame) : Prop :=
  (∀ t₁ t₂, checkFrame w host nut sock (frame.bytes ++ t₁) =
      checkFrame w host nut sock (frame.bytes ++ t₂)) ∧
    (checkFrame w host nut sock frame.bytes).isSome = true

/-! ## Routing -/

/-- Routing keeps the header of an invalid packet, and changes the others as validation does. -/
theorem nutRoute_hdr (w : World) (nut : NutConfig) (sock : Nat) (hdr : NutHeader)
    (packet : List UInt8) :
    (nutRoute w nut sock hdr packet).hdr = hdr ∨
      (nutRoute w nut sock hdr packet).hdr = (hopsAndTtls nut.maxTtl hdr).2 := by
  obtain ⟨nut', verdict, hdr', hv, hcases⟩ := nutRoute_cases w nut sock hdr packet
  have hheader : (nutRoute w nut sock hdr packet).hdr = hdr' := by
    rcases hcases with ⟨-, hrun⟩ | ⟨-, hrun⟩ | ⟨-, haccepted⟩
    · rw [hrun]
    · rw [hrun]
    · generalize nutRoute w nut sock hdr packet = routed at haccepted
      cases haccepted <;> rfl
  rw [hheader]
  rcases nutValidatePacket_cases w.now nut sock hdr packet with ⟨-, hcase⟩ | ⟨-, hcase⟩ <;>
    rw [hv] at hcase
  · exact Or.inr (congrArg (fun v => v.2.2) hcase ▸ rfl)
  · exact Or.inl (congrArg (fun v => v.2.2) hcase)

theorem nutRoute_function (w : World) (nut : NutConfig) (sock : Nat) (hdr : NutHeader)
    (packet : List UInt8) : (nutRoute w nut sock hdr packet).hdr.function = hdr.function := by
  rcases nutRoute_hdr w nut sock hdr packet with h | h
  · rw [h]
  · rw [h, hopsAndTtls_function]

theorem nutRoute_length (w : World) (nut : NutConfig) (sock : Nat) (hdr : NutHeader)
    (packet : List UInt8) : (nutRoute w nut sock hdr packet).hdr.length = hdr.length := by
  rcases nutRoute_hdr w nut sock hdr packet with h | h
  · rw [h]
  · rw [h, hopsAndTtls_length]

variable {hdr : NutHeader} {packet : List UInt8}

theorem valid_of_nutRoute {w : World} {nut : NutConfig} {sock : Nat}
    (h : (nutRoute w nut sock hdr packet).ret = 0) : Valid hdr packet := by
  rcases nutValidatePacket_cases w.now nut sock hdr packet with ⟨hsize, -⟩ | ⟨-, hcase⟩
  · exact valid_of_validateSize hsize
  · unfold nutRoute at h
    rw [hcase] at h
    exact absurd h (show ¬ (-1 : Int) = 0 by omega)

/-- Query hits that `nut_route` leaves to `nut_reply`: they are not passed on any further, or the
query came from a connection or from the server. -/
def LeftToReply (nut : NutConfig) (hdr : NutHeader) : Prop :=
  (hopsAndTtls nut.maxTtl hdr).1 = .dead ∨ (nut.route hdr.id).isSome = true ∨
    nut.packet hdr.id = true

theorem hopsAndTtls_verdict (maxTtl : Nat) (hdr : NutHeader) :
    (hopsAndTtls maxTtl hdr).1 = .dead ∨ (hopsAndTtls maxTtl hdr).1 = .ok := by
  unfold hopsAndTtls
  dsimp only
  split_ifs
  · exact Or.inl rfl
  · exact Or.inl rfl
  · exact Or.inl rfl
  · exact Or.inr rfl

theorem nutRoute_searchAck (w : World) (nut : NutConfig) (sock : Nat) (packet : List UInt8)
    (hf : hdr.function = nutSearchAck) :
    (nutRoute w nut sock hdr packet).ret = 0 ↔
      hdr.length.toNat ≤ (sizeofNutRecord + 256) * 256 ∧ LeftToReply nut hdr := by
  have hsize : validateSize w.now nut sock hdr packet =
      (nut, decide (¬ hdr.length.toNat > (sizeofNutRecord + 256) * 256)) := by
    unfold validateSize
    rw [hf]
    rfl
  unfold nutRoute nutValidatePacket LeftToReply
  rw [hsize]
  generalize (sizeofNutRecord + 256) * 256 = bound
  dsimp only
  by_cases hlen : hdr.length.toNat ≤ bound
  · rw [if_pos (decide_eq_true (Nat.not_lt.mpr hlen))]
    have hreply : isReply (hopsAndTtls nut.maxTtl hdr).2 = true := by
      rw [isReply, hopsAndTtls_function, hf]
      rfl
    have hid := hopsAndTtls_id nut.maxTtl hdr
    have hverdict := hopsAndTtls_verdict nut.maxTtl hdr
    rcases hv : hopsAndTtls nut.maxTtl hdr with ⟨verdict, hdr'⟩
    rw [hv] at hreply hid hverdict
    dsimp only at hreply hid hverdict ⊢
    rw [and_iff_right hlen]
    rcases hverdict with rfl | rfl
    · exact ⟨fun _ => Or.inl rfl, fun _ => rfl⟩
    · dsimp only
      rw [if_pos hreply, hid]
      cases nut.route hdr.id with
      | none =>
        cases nut.packet hdr.id with
        | true => exact ⟨fun _ => Or.inr (Or.inr rfl), fun _ => rfl⟩
        | false => simp
      | some xsock => exact ⟨fun _ => Or.inr (Or.inl rfl), fun _ => rfl⟩
  · have hbig : ¬ decide (¬ hdr.length.toNat > bound) = true := by
      rw [decide_eq_true_iff, not_not]
      exact Nat.lt_of_not_le hlen
    rw [if_neg hbig]
    exact ⟨fun h => absurd h (show ¬ (-1 : Int) = 0 by omega), fun h => absurd h.1 hlen⟩

/-- What is behind the body of a packet does not change its routing, if the string of a query
ends in the body. -/
theorem nutRoute_append (w : World) (nut : NutConfig) (sock : Nat) {payload : List UInt8}
    (hlen : payload.length = hdr.length.toNat)
    (htext : hdr.function = nutSearchReq → hdr.length.toNat ≤ 257 →
      0 ∈ payload.drop sizeofNutQuery) (t : List UInt8) :
    nutRoute w nut sock hdr (payload ++ t) = nutRoute w nut sock hdr payload := by
  have hsize : validateSize w.now nut sock hdr (payload ++ t) =
      validateSize w.now nut sock hdr payload := by
    unfold validateSize
    by_cases hf : hdr.function = nutSearchReq
    · by_cases hbig : hdr.length.toNat > 257
      · simp only [if_pos hbig]
      · have hmem := htext hf (Nat.le_of_not_lt hbig)
        have hdrop : (payload ++ t).drop sizeofNutQuery =
            payload.drop sizeofNutQuery ++ t := by
          apply List.drop_append_of_le_length
          by_contra hshort
          rw [List.drop_eq_nil_of_le (by omega)] at hmem
          exact nomatch hmem
        have htake : cString (payload.drop sizeofNutQuery ++ t) =
            cString (payload.drop sizeofNutQuery) :=
          takeWhile_append_of_mem hmem (by simp) t
        unfold nutCanonizeQuery
        rw [hdrop, htake]
    · simp only [if_neg hf]
  have hvalidate : nutValidatePacket w.now nut sock hdr (payload ++ t) =
      nutValidatePacket w.now nut sock hdr payload := by
    unfold nutValidatePacket
    rw [hsize]
  have hbody : ∀ hdr' : NutHeader, hdr'.length = hdr.length →
      bodyOf hdr' (payload ++ t) = bodyOf hdr' payload := by
    intro hdr' hsame
    unfold bodyOf
    rw [hsame, List.take_append_of_le_length (Nat.le_of_eq hlen.symm)]
  unfold nutRoute
  rw [hvalidate]
  rcases nutValidatePacket_cases w.now nut sock hdr payload with ⟨-, hcase⟩ | ⟨-, hcase⟩
  · rw [hcase]
    have hsame := hopsAndTtls_length nut.maxTtl hdr
    rcases hv : hopsAndTtls nut.maxTtl hdr with ⟨verdict, hdr'⟩
    rw [hv] at hsame
    cases verdict with
    | invalid => rfl
    | dead => rfl
    | ok =>
      dsimp only
      rw [hbody hdr' hsame]
  · rw [hcase]

theorem routeFrame_isSome (w : World) (nut : NutConfig) (sock : Nat) :
    (routeFrame w nut sock hdr packet).isSome = true ↔
      (hdr.function = nutSearchReq → hdr.length.toNat ≤ 257 → 0 ∈ packet.drop sizeofNutQuery) := by
  unfold routeFrame
  split
  · next hquery =>
    rw [Option.isSome_map, readUntil_isSome]
    exact ⟨fun h _ _ => h, fun h => h hquery.1 hquery.2⟩
  · next hother => exact ⟨fun _ hf hlen => absurd ⟨hf, hlen⟩ hother, fun _ => rfl⟩

theorem routeFrame_eq {w : World} {nut : NutConfig} {sock : Nat} {routed : Routed}
    (h : routeFrame w nut sock hdr packet = some routed) :
    routed = nutRoute w nut sock hdr packet := by
  unfold routeFrame at h
  split at h
  · obtain ⟨-, -, h⟩ := Option.map_eq_some_iff.mp h
    exact h.symm
  · exact (Option.some.inj h).symm

/-! ## Handlers -/

theorem stable_scanQuery (n len : Nat) : Stable (fun packet => scanQuery n len packet) := by
  induction n generalizing len with
  | zero => exact (stable_readByte len).map _
  | succ n ih =>
    refine (stable_readByte len).bind (fun c => ?_)
    exact Stable.ite (ih (len + 1)) (stable_some _)

theorem stable_queryFrame (w : World) (host : NutSettings) (sock : Nat) (routed : Routed) :
    Stable (fun packet => queryFrame w host sock routed packet) := by
  unfold queryFrame
  refine (stable_readBytes 0 sizeofNutQuery).bind (fun speed => ?_)
  refine Stable.ite (stable_some _) ?_
  refine (stable_scanQuery _ _).bind (fun len => ?_)
  refine (stable_readByte sizeofNutQuery).bind (fun first => ?_)
  exact Stable.ite (stable_some _) ((stable_readUntil 0 sizeofNutQuery).map _)

theorem stable_replyFrame (host : NutSettings) (sock : Nat) (routed : Routed) :
    Stable (fun packet => replyFrame host sock routed packet) := by
  unfold replyFrame
  refine (stable_readBytes 0 nutGetReplySize).bind (fun reply => ?_)
  refine Stable.ite (stable_some _) ?_
  refine (stable_readBytes _ nutGuidSize).bind (fun id => ?_)
  refine Stable.ite (Stable.ite (stable_some _) ?_) (stable_some _)
  exact ((stable_nutRecords _ _).drop sizeofNutReply).map _

theorem stable_pushFrame (w : World) (host : NutSettings) (routed : Routed) :
    Stable (fun packet => pushFrame w host routed packet) :=
  (stable_readBytes 0 sizeofNutPush).map _

theorem stable_pongFrame (routed : Routed) : Stable (fun packet => pongFrame routed packet) :=
  (stable_readBytes 0 sizeofNutPong).map _

theorem scanQuery_isSome {n len : Nat} (h : 0 ∈ packet.drop len) :
    (scanQuery n len packet).isSome = true := by
  have hlen : ∀ len, 0 ∈ packet.drop len → len < packet.length := by
    intro len hmem
    by_contra hshort
    rw [List.drop_eq_nil_of_le (by omega)] at hmem
    exact nomatch hmem
  induction n generalizing len with
  | zero =>
    rw [scanQuery, Option.isSome_map, readByte, List.getElem?_eq_getElem (hlen len h)]
    rfl
  | succ n ih =>
    rw [scanQuery, readByte, List.getElem?_eq_getElem (hlen len h), Option.bind_some]
    split
    · next hc =>
      apply ih
      rw [List.drop_eq_getElem_cons (hlen len h), List.mem_cons] at h
      exact h.resolve_left (Ne.symm hc)
    · rfl

/-- A query whose text ends in what there is. -/
theorem queryFrame_isSome {w : World} {host : NutSettings} {sock : Nat} {routed : Routed}
    (h : 0 ∈ packet.drop sizeofNutQuery) :
    (queryFrame w host sock routed packet).isSome = true := by
  have hlen : sizeofNutQuery < packet.length := by
    by_contra hshort
    rw [List.drop_eq_nil_of_le (by omega)] at h
    exact nomatch h
  obtain ⟨speed, hspeed⟩ := Option.isSome_iff_exists.mp
    (readBytes_isSome.mpr (show 0 + sizeofNutQuery ≤ packet.length by omega))
  obtain ⟨len, hscan⟩ := Option.isSome_iff_exists.mp
    (scanQuery_isSome (n := routed.hdr.length.toNat - sizeofNutQuery) h)
  obtain ⟨file, hfile⟩ := Option.isSome_iff_exists.mp (readUntil_isSome.mpr h)
  unfold queryFrame
  rw [hspeed, Option.bind_some]
  split
  · rfl
  · rw [hscan, Option.bind_some, readByte, List.getElem?_eq_getElem hlen, Option.bind_some]
    split
    · rfl
    · rw [hfile]
      rfl

/-- Query hits need the header that is read of them, and nothing behind the payload. -/
theorem replyFrame_isSome {host : NutSettings} {sock : Nat} {routed : Routed}
    (hlen : packet.length = routed.hdr.length.toNat) :
    (replyFrame host sock routed packet).isSome = true ↔
      nutGetReplySize ≤ routed.hdr.length.toNat := by
  have hsize : nutGetReplySize = 9 ∧ sizeofNutReply = 11 ∧ nutGuidSize = 16 := ⟨rfl, rfl, rfl⟩
  constructor
  · intro h
    obtain ⟨result, hresult⟩ := Option.isSome_iff_exists.mp h
    obtain ⟨reply, hreply, -⟩ := Option.bind_eq_some_iff.mp hresult
    have hread := readBytes_isSome.mp (Option.isSome_iff_exists.mpr ⟨reply, hreply⟩)
    omega
  · intro hnine
    obtain ⟨reply, hreply⟩ := Option.isSome_iff_exists.mp
      (readBytes_isSome.mpr (show 0 + nutGetReplySize ≤ packet.length by omega))
    unfold replyFrame
    rw [hreply, Option.bind_some]
    split
    · rfl
    · next hlong =>
      obtain ⟨id, hid⟩ := Option.isSome_iff_exists.mp (readBytes_isSome.mpr
        (show routed.hdr.length.toNat - nutGuidSize + nutGuidSize ≤ packet.length by omega))
      rw [hid, Option.bind_some]
      split
      · split
        · rfl
        · rw [Option.isSome_map]
          apply nutRecords_isSome
          rw [List.length_drop]
          omega
      · rfl

/-! ## Frames -/

section Frame

variable {w : World} {host : NutSettings} {nut : NutConfig} {sock : Nat}

theorem stable_handleRouted (routed : Routed) :
    Stable (fun packet => handleRouted w host sock routed packet) := by
  unfold handleRouted
  refine Stable.ite (stable_some _) (Stable.ite (stable_some _) ?_)
  refine Stable.ite (stable_pongFrame routed) (Stable.ite (stable_pushFrame w host routed) ?_)
  refine Stable.ite (stable_queryFrame w host sock routed) ?_
  exact Stable.ite (stable_replyFrame host sock routed) (stable_some _)

theorem handleFrame_append {payload : List UInt8} {result : FrameResult}
    (hlen : payload.length = hdr.length.toNat)
    (h : handleFrame w host nut sock hdr payload = some result) (t : List UInt8) :
    handleFrame w host nut sock hdr (payload ++ t) = some result := by
  obtain ⟨routed, hrouted, hresult⟩ := Option.bind_eq_some_iff.mp h
  have htext := (routeFrame_isSome w nut sock).mp (Option.isSome_iff_exists.mpr ⟨routed, hrouted⟩)
  have htext' : hdr.function = nutSearchReq → hdr.length.toNat ≤ 257 →
      0 ∈ (payload ++ t).drop sizeofNutQuery := by
    intro hf hle
    rw [List.drop_append]
    exact List.mem_append_left _ (htext hf hle)
  obtain ⟨routed', hrouted'⟩ := Option.isSome_iff_exists.mp
    ((routeFrame_isSome w nut sock).mpr htext')
  have hsame : routed' = routed := by
    rw [routeFrame_eq hrouted', routeFrame_eq hrouted, nutRoute_append w nut sock hlen htext]
  unfold handleFrame
  rw [hrouted', hsame, Option.bind_some]
  exact stable_handleRouted routed payload result t hresult

/-- The frames that can be handled without what follows them: the text of a query ends in its
payload, and query hits that reach `nut_reply` have the header that is read of them. -/
def SelfContained (nut : NutConfig) (hdr : NutHeader) (payload : List UInt8) : Prop :=
  (hdr.function = nutSearchReq → hdr.length.toNat ≤ 257 → 0 ∈ payload.drop sizeofNutQuery) ∧
    (hdr.function = nutSearchAck → LeftToReply nut hdr → nutGetReplySize ≤ hdr.length.toNat)

/-- A packet that `nut_route` leaves to its handler. -/
theorem handleRouted_isSome_of_ret {payload : List UInt8}
    (hlen : payload.length = hdr.length.toNat)
    (htext : hdr.function = nutSearchReq → hdr.length.toNat ≤ 257 →
      0 ∈ payload.drop sizeofNutQuery) (hret : (nutRoute w nut sock hdr payload).ret = 0) :
    (handleRouted w host sock (nutRoute w nut sock hdr payload) payload).isSome = true ↔
      (hdr.function = nutSearchAck → nutGetReplySize ≤ hdr.length.toNat) := by
  have hfunction := nutRoute_function w nut sock hdr payload
  have hlength := nutRoute_length w nut sock hdr payload
  have hvalid := valid_of_nutRoute hret
  unfold handleRouted
  generalize nutRoute w nut sock hdr payload = routed at *
  have hgo : ¬ routed.ret ≠ 0 := not_not.mpr hret
  dsimp only
  rw [if_neg hgo, hfunction]
  rcases hvalid with ⟨hf, -⟩ | ⟨hf, hsize⟩ | ⟨hf, hsize⟩ | ⟨hf, hsize, -⟩ | ⟨hf, -⟩
  · rw [hf, if_pos rfl]
    exact ⟨fun _ hack => absurd hack (by decide), fun _ => rfl⟩
  · rw [hf, if_neg (by decide), if_pos rfl, pongFrame, Option.isSome_map, readBytes_isSome]
    exact ⟨fun _ hack => absurd hack (by decide), fun _ => by omega⟩
  · rw [hf, if_neg (by decide), if_neg (by decide), if_pos rfl, pushFrame, Option.isSome_map,
      readBytes_isSome]
    exact ⟨fun _ hack => absurd hack (by decide), fun _ => by omega⟩
  · rw [hf, if_neg (by decide), if_neg (by decide), if_neg (by decide), if_pos rfl]
    exact ⟨fun _ hack => absurd hack (by decide), fun _ => queryFrame_isSome (htext hf hsize)⟩
  · rw [hf, if_neg (by decide), if_neg (by decide), if_neg (by decide), if_neg (by decide),
      if_pos rfl, replyFrame_isSome (hlen.trans (by rw [hlength])), hlength]
    exact ⟨fun h _ => h, fun h => h rfl⟩

variable (w host sock) in
theorem handleFrame_isSome {payload : List UInt8} (hlen : payload.length = hdr.length.toNat) :
    (handleFrame w host nut sock hdr payload).isSome = true ↔ SelfContained nut hdr payload := by
  unfold SelfContained handleFrame
  rw [← routeFrame_isSome w nut sock]
  cases hroute : routeFrame w nut sock hdr payload with
  | none => exact ⟨nofun, fun h => nomatch h.1⟩
  | some routed =>
    have htext := (routeFrame_isSome w nut sock).mp (Option.isSome_iff_exists.mpr ⟨routed, hroute⟩)
    rw [Option.bind_some, routeFrame_eq hroute]
    by_cases hret : (nutRoute w nut sock hdr payload).ret = 0
    · rw [handleRouted_isSome_of_ret hlen htext hret]
      constructor
      · exact fun h => ⟨rfl, fun hack _ => h hack⟩
      · exact fun h hack => h.2 hack ((nutRoute_searchAck w nut sock payload hack).mp hret).2
    · have hdropped :
          (handleRouted w host sock (nutRoute w nut sock hdr payload) payload).isSome = true := by
        unfold handleRouted
        dsimp only
        rw [if_pos hret]
        rfl
      refine ⟨fun _ => ⟨rfl, fun hack hleft => ?_⟩, fun _ => hdropped⟩
      by_contra hshort
      apply hret
      refine (nutRoute_searchAck w nut sock payload hack).mpr ⟨?_, hleft⟩
      exact Nat.le_trans (Nat.le_of_not_le hshort) (by decide)

theorem Frame.length_payload (frame : Frame) : sizeofNutHeader ≤ frame.bytes.length ∧
    (frame.bytes.drop sizeofNutHeader).length = (nutGetHeader frame.bytes).length.toNat := by
  obtain ⟨hle, hsize⟩ := frameSize_eq_some_iff.mp frame.isFrame
  refine ⟨hle, ?_⟩
  rw [List.length_drop]
  omega

theorem checkFrame_append (frame : Frame) (t : List UInt8) :
    checkFrame w host nut sock (frame.bytes ++ t) =
      handleFrame w host nut sock (nutGetHeader frame.bytes)
        (frame.bytes.drop sizeofNutHeader ++ t) := by
  obtain ⟨hle, -⟩ := frame.length_payload
  unfold checkFrame
  rw [nutGetHeader_append hle, List.drop_append_of_le_length hle]

end Frame

/-- A frame is handled by itself exactly if it is self-contained. -/
theorem frameIsolated_iff (w : World) (host : NutSettings) (nut : NutConfig) (sock : Nat)
    (frame : Frame) :
    FrameIsolated w host nut sock frame ↔
      SelfContained nut (nutGetHeader frame.bytes) (frame.bytes.drop sizeofNutHeader) := by
  obtain ⟨-, hlen⟩ := frame.length_payload
  rw [← handleFrame_isSome w host sock hlen]
  refine ⟨And.right, fun h => ⟨fun t₁ t₂ => ?_, h⟩⟩
  obtain ⟨result, hresult⟩ := Option.isSome_iff_exists.mp h
  rw [checkFrame_append, checkFrame_append, handleFrame_append hlen hresult,
    handleFrame_append hlen hresult]

/-! ## A query without a text -/

/-- A query whose payload is the speed alone. -/
def bareQuery : Frame where
  bytes := nutPutHeader ⟨List.replicate 16 7, nutSearchReq, 5, 0, 2⟩ ++ [0, 0]
  isFrame := by decide

/-- A server without connections, in the second 1. -/
def idleConfig : NutConfig := ⟨7, [], fun _ => none, fun _ => false, fun _ => none, fun _ => 0,
  fun _ => 0, fun _ => false⟩

def idleWorld : World := ⟨1, fun _ => (none, none), [], fun _ => none⟩

def idleSettings : NutSettings := ⟨28, 0, List.replicate 16 9, fun _ => none⟩

/-- What is entered as the key of the query is the string behind the frame. -/
theorem bareQuery_not_isolated : ¬ FrameIsolated idleWorld idleSettings idleConfig 1 bareQuery := by
  rintro ⟨hsame, -⟩
  have hkey : ∀ t, (checkFrame idleWorld idleSettings idleConfig 1 (bareQuery.bytes ++ t)).map
      (fun result => result.nut.query [97]) =
      (checkFrame idleWorld idleSettings idleConfig 1 (bareQuery.bytes ++ [97, 0])).map
      (fun result => result.nut.query [97]) := by
    intro t
    rw [hsame t [97, 0]]
  exact absurd (hkey [98, 0]) (by decide)

end Serveez.Nut
