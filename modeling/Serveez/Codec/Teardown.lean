import Serveez.Codec.Setup

/-!
# What setup and disconnect restore

* `failsafe_iff`: when a setup whose codec does not initialize leaves the socket as it was.
* `tornDown_iff`: when `svz_codec_sock_disconnect` gives back the original socket and calls
  its callback.
* `restores_iff`: both for every order of setups.
-/

namespace Serveez.Codec

open Lib

/-! ## Failed setups -/

/-- A setup that fails leaves the socket as it was. -/
def Failsafe (w : World) (op : Op) : Prop := (op.apply w).2 ≠ 0 → (step w op).sock = w.sock

/-- The condition for a setup that fails to be undone. -/
def Undoable (sock : Sock) : Op → Prop
  | .setup .recv _ false => sock.recvCodec = none →
    sock.disconnectedSocket ≠ some .svzCodecSockDisconnect
  | .setup .send _ false => sock.sendCodec = none →
    sock.checkRequest = none ∧ sock.writeSocket = some .svzCodecSockSend ∧
      sock.disconnectedSocket ≠ some .svzCodecSockDisconnect
  | _ => True

variable {w : World}

theorem receiveSetup_failed (codec : Nat) (hnone : w.sock.recvCodec = none) :
    (svzCodecSockReceiveSetup w codec false).2 = -1 ∧
    (svzCodecSockReceiveSetup w codec false).1.sock = { w.sock with
      disconnectedSocket :=
        if w.sock.disconnectedSocket ≠ some .svzCodecSockDisconnect
        then w.sock.disconnectedSocket else none
      recvCodec := none } := by
  by_cases hdisc : w.sock.disconnectedSocket = some .svzCodecSockDisconnect
  · simp [svzCodecSockReceiveSetup, hnone, saveDisconnected, hdisc, recvRevert, newCodecData]
  · simp [svzCodecSockReceiveSetup, hnone, saveDisconnected, hdisc, recvRevert]

theorem sendSetup_failed (codec : Nat) (hnone : w.sock.sendCodec = none) :
    (svzCodecSockSendSetup w codec false).2 = -1 ∧
    (svzCodecSockSendSetup w codec false).1.sock = { w.sock with
      checkRequest := none
      writeSocket := some .svzCodecSockSend
      disconnectedSocket :=
        if w.sock.disconnectedSocket ≠ some .svzCodecSockDisconnect
        then w.sock.disconnectedSocket else none
      sendCodec := none } := by
  by_cases hdisc : w.sock.disconnectedSocket = some .svzCodecSockDisconnect
  · simp [svzCodecSockSendSetup, hnone, saveDisconnected, hdisc, sendRevert, newCodecData]
  · simp [svzCodecSockSendSetup, hnone, saveDisconnected, hdisc, sendRevert, newCodecData]

theorem receiveSetup_kept (codec : Nat) (initOk : Bool) (hsome : w.sock.recvCodec ≠ none) :
    svzCodecSockReceiveSetup w codec initOk = (w, 0) := by
  simp [svzCodecSockReceiveSetup, Option.isSome_iff_ne_none.mpr hsome]

theorem sendSetup_kept (codec : Nat) (initOk : Bool) (hsome : w.sock.sendCodec ≠ none) :
    svzCodecSockSendSetup w codec initOk = (w, 0) := by
  simp [svzCodecSockSendSetup, Option.isSome_iff_ne_none.mpr hsome]

/-- Only a setup whose codec does not initialize returns an error. -/
theorem apply_ok (w : World) (direction : Direction) (codec : Nat) :
    ((Op.setup direction codec true).apply w).2 = 0 := by
  cases direction with
  | recv =>
    simp only [Op.apply, svzCodecSockReceiveSetup]
    split <;> rfl
  | send =>
    simp only [Op.apply, svzCodecSockSendSetup]
    split <;> rfl

theorem failsafe_iff_recv (w : World) (codec : Nat) :
    Failsafe w (.setup .recv codec false) ↔ Undoable w.sock (.setup .recv codec false) := by
  simp only [Failsafe, Undoable, step, Op.apply]
  by_cases hnone : w.sock.recvCodec = none
  · obtain ⟨hret, hsock⟩ := receiveSetup_failed codec hnone
    rw [hret, hsock]
    by_cases hdisc : w.sock.disconnectedSocket = some .svzCodecSockDisconnect
    · simp [Sock.ext_iff, hdisc, hnone]
    · simp [Sock.ext_iff, hdisc, hnone]
  · rw [receiveSetup_kept codec false hnone]
    exact ⟨fun _ h => absurd h hnone, fun _ h => absurd rfl h⟩

theorem failsafe_iff_send (w : World) (codec : Nat) :
    Failsafe w (.setup .send codec false) ↔ Undoable w.sock (.setup .send codec false) := by
  simp only [Failsafe, Undoable, step, Op.apply]
  by_cases hnone : w.sock.sendCodec = none
  · obtain ⟨hret, hsock⟩ := sendSetup_failed codec hnone
    rw [hret, hsock]
    by_cases hdisc : w.sock.disconnectedSocket = some .svzCodecSockDisconnect
    · simp [Sock.ext_iff, hdisc, hnone]
    · simp [Sock.ext_iff, hdisc, hnone, eq_comm]
  · rw [sendSetup_kept codec false hnone]
    exact ⟨fun _ h => absurd h hnone, fun _ h => absurd rfl h⟩

theorem failsafe_iff (w : World) (op : Op) : Failsafe w op ↔ Undoable w.sock op := by
  cases op with
  | finish direction => exact iff_of_true (fun h => absurd rfl h) trivial
  | setup direction codec initOk =>
    cases initOk with
    | true =>
      refine iff_of_true (fun h => absurd (apply_ok w direction codec) h) ?_
      cases direction <;> trivial
    | false =>
      cases direction with
      | recv => exact failsafe_iff_recv w codec
      | send => exact failsafe_iff_send w codec

/-! ## The socket between setups -/

/-- How a socket looks after setups that were undone when they failed. -/
structure SetUp (orig : Original) (sock : Sock) : Prop where
  checkRequest : sock.checkRequest =
    if sock.recvCodec.isSome then some .svzCodecSockReceive else orig.checkRequest
  writeSocket : sock.writeSocket =
    if sock.sendCodec.isSome then some .svzCodecSockSend else orig.writeSocket
  disconnectedSocket : sock.disconnectedSocket =
    if sock.recvCodec.isSome || sock.sendCodec.isSome then some .svzCodecSockDisconnect
    else orig.disconnectedSocket
  recvBuffer : sock.recvBuffer = orig.recvBuffer
  sendBuffer : sock.sendBuffer = orig.sendBuffer
  recvCodec : ∀ data, sock.recvCodec = some data →
    data.inBuffer = orig.recvBuffer ∧ data.checkRequest = orig.checkRequest
  sendCodec : ∀ data, sock.sendCodec = some data →
    data.inBuffer = orig.sendBuffer ∧ data.checkRequest = none

variable {orig : Original}

theorem setUp_original (orig : Original) : SetUp orig orig.sock where
  checkRequest := rfl
  writeSocket := rfl
  disconnectedSocket := rfl
  recvBuffer := rfl
  sendBuffer := rfl
  recvCodec := fun _ h => absurd h (by simp [Original.sock])
  sendCodec := fun _ h => absurd h (by simp [Original.sock])

theorem receiveSetup_setUp (h : SetUp orig w.sock) (codec : Nat) :
    SetUp orig (svzCodecSockReceiveSetup w codec true).1.sock := by
  by_cases hnone : w.sock.recvCodec = none
  · obtain ⟨data, hbuf, hcheck, -, -, hsock, -⟩ := receiveSetup_sock codec hnone
    have hold : w.sock.checkRequest = orig.checkRequest := by
      rw [h.checkRequest, hnone]
      rfl
    rw [hsock]
    refine ⟨rfl, h.writeSocket, rfl, h.recvBuffer, h.sendBuffer, ?_, h.sendCodec⟩
    rintro _ ⟨⟩
    exact ⟨hbuf.trans h.recvBuffer, hcheck.trans hold⟩
  · rw [receiveSetup_kept codec true hnone]
    exact h

theorem sendSetup_setUp (h : SetUp orig w.sock) (codec : Nat) :
    SetUp orig (svzCodecSockSendSetup w codec true).1.sock := by
  by_cases hnone : w.sock.sendCodec = none
  · obtain ⟨data, hbuf, hcheck, -, -, hsock, -⟩ := sendSetup_sock codec hnone
    rw [hsock]
    refine ⟨h.checkRequest, rfl, by simp, h.recvBuffer, h.sendBuffer, h.recvCodec, ?_⟩
    rintro _ ⟨⟩
    exact ⟨hbuf.trans h.sendBuffer, hcheck⟩
  · rw [sendSetup_kept codec true hnone]
    exact h

theorem finishCodec_setUp (h : SetUp orig w.sock) (direction : Direction) :
    SetUp orig (finishCodec w direction).sock := by
  cases direction with
  | recv =>
    refine ⟨by simpa [finishCodec] using h.checkRequest, h.writeSocket,
      by simpa [finishCodec] using h.disconnectedSocket, h.recvBuffer, h.sendBuffer, ?_,
      h.sendCodec⟩
    intro data hdata
    obtain ⟨data', hdata', rfl⟩ := Option.map_eq_some_iff.mp hdata
    exact h.recvCodec data' hdata'
  | send =>
    refine ⟨h.checkRequest, by simpa [finishCodec] using h.writeSocket,
      by simpa [finishCodec] using h.disconnectedSocket, h.recvBuffer, h.sendBuffer,
      h.recvCodec, ?_⟩
    intro data hdata
    obtain ⟨data', hdata', rfl⟩ := Option.map_eq_some_iff.mp hdata
    exact h.sendCodec data' hdata'

theorem step_setUp (h : SetUp orig w.sock) (op : Op) (hsafe : Failsafe w op) :
    SetUp orig (step w op).sock := by
  by_cases hret : (op.apply w).2 = 0
  · cases op with
    | finish direction => exact finishCodec_setUp h direction
    | setup direction codec initOk =>
      cases direction with
      | recv =>
        cases initOk with
        | true => exact receiveSetup_setUp h codec
        | false =>
          by_cases hnone : w.sock.recvCodec = none
          · have hfail := (receiveSetup_failed codec hnone).1
            simp only [Op.apply] at hret
            omega
          · simp only [step, Op.apply, receiveSetup_kept codec false hnone]
            exact h
      | send =>
        cases initOk with
        | true => exact sendSetup_setUp h codec
        | false =>
          by_cases hnone : w.sock.sendCodec = none
          · have hfail := (sendSetup_failed codec hnone).1
            simp only [Op.apply] at hret
            omega
          · simp only [step, Op.apply, sendSetup_kept codec false hnone]
            exact h
  · rw [hsafe hret]
    exact h

/-! ## Disconnecting -/

/-- A call of `finalize` for each codec of a socket that is ready. -/
def finalizations (sock : Sock) : List Event :=
  ((sock.recvCodec.toList ++ sock.sendCodec.toList).filter (·.ready)).map
    fun data => .finalized data.codec

/-- `svz_codec_sock_disconnect` gives back the original socket, with one call of `finalize`
for each ready codec and one of the original callback, if there is one. -/
def TornDown (orig : Original) (w : World) : Prop :=
  (svzCodecSockDisconnect w).sock = orig.sock ∧
  (svzCodecSockDisconnect w).events =
    w.events ++ finalizations w.sock ++ orig.disconnectedSocket.toList.map .called

/-- The condition for this: the data of the sending codec, or of the receiving one when it
is alone, have the original callback, and with a sending codec the original socket has
the callbacks that reverting it leaves. -/
def Releasable (orig : Original) (sock : Sock) : Prop :=
  match sock.sendCodec, sock.recvCodec with
  | some data, _ => data.disconnectedSocket = orig.disconnectedSocket ∧
    orig.checkRequest = none ∧ orig.writeSocket = some .svzCodecSockSend
  | none, some data => data.disconnectedSocket = orig.disconnectedSocket
  | none, none => orig.disconnectedSocket = none

/-- What `svz_codec_sock_disconnect` leaves, with the callbacks it puts in place. -/
def released (orig : Original) (check write disconnected : Option Callback) : Sock :=
  { orig.sock with
    checkRequest := check, writeSocket := write, disconnectedSocket := disconnected }

theorem released_eq_iff (orig : Original) (check write disconnected : Option Callback) :
    released orig check write disconnected = orig.sock ↔
      disconnected = orig.disconnectedSocket ∧ check = orig.checkRequest ∧
        write = orig.writeSocket := by
  simp only [released, Sock.ext_iff, Original.sock]
  tauto

theorem finalizing_sock (w : World) (data : CodecData) : (finalizing w data).sock = w.sock := by
  unfold finalizing
  split <;> rfl

theorem finalizing_events (w : World) (data : CodecData) :
    (finalizing w data).events =
      w.events ++ ([data].filter (·.ready)).map fun data => .finalized data.codec := by
  unfold finalizing
  split <;> rename_i hready <;> simp [hready]

/-- The socket without its receiving codec. -/
theorem releaseRecv_spec (h : SetUp orig w.sock) (disconnected : Option Callback) :
    let r := releaseRecv w disconnected
    r.1.sock = { w.sock with
      checkRequest := orig.checkRequest
      disconnectedSocket := match w.sock.recvCodec with
        | some data => data.disconnectedSocket
        | none => w.sock.disconnectedSocket
      recvCodec := none } ∧
    r.1.events = w.events ++
      (w.sock.recvCodec.toList.filter (·.ready)).map (fun data => .finalized data.codec) ∧
    r.2 = match w.sock.recvCodec with
      | some data => data.disconnectedSocket
      | none => disconnected := by
  cases hrecv : w.sock.recvCodec with
  | none =>
    have hcheck : w.sock.checkRequest = orig.checkRequest := by
      rw [h.checkRequest, hrecv]
      rfl
    simp [releaseRecv, hrecv, Sock.ext_iff, hcheck]
  | some data =>
    obtain ⟨hbuf, hcheck⟩ := h.recvCodec data hrecv
    have hsock := finalizing_sock w data
    refine ⟨?_, ?_, ?_⟩
    · simp [releaseRecv, hrecv, recvRevert, hsock, hbuf, hcheck, h.recvBuffer]
    · simp [releaseRecv, hrecv, recvRevert, hsock, finalizing_events]
    · simp [releaseRecv, hrecv]

theorem releaseSend_spec (w : World) (disconnected : Option Callback) :
    let r := releaseSend w disconnected
    r.1.sock = (match w.sock.sendCodec with
      | some data => { w.sock with
          sendBuffer := data.inBuffer
          checkRequest := data.checkRequest
          disconnectedSocket := data.disconnectedSocket
          sendCodec := none }
      | none => w.sock) ∧
    r.1.events = w.events ++
      (w.sock.sendCodec.toList.filter (·.ready)).map (fun data => .finalized data.codec) ∧
    r.2 = match w.sock.sendCodec with
      | some data => data.disconnectedSocket
      | none => disconnected := by
  cases hsend : w.sock.sendCodec with
  | none => simp [releaseSend, hsend]
  | some data =>
    have hsock := finalizing_sock w data
    refine ⟨?_, ?_, ?_⟩
    · simp [releaseSend, hsend, sendRevert, hsock]
    · simp [releaseSend, hsend, sendRevert, hsock, finalizing_events]
    · simp [releaseSend, hsend]

/-- The callback that `svz_codec_sock_disconnect` calls at the end. -/
def lastSaved (sock : Sock) : Option Callback :=
  match sock.sendCodec, sock.recvCodec with
  | some data, _ => data.disconnectedSocket
  | none, some data => data.disconnectedSocket
  | none, none => none

theorem disconnect_events (h : SetUp orig w.sock) :
    (svzCodecSockDisconnect w).events =
      w.events ++ finalizations w.sock ++ (lastSaved w.sock).toList.map .called := by
  obtain ⟨hsock, hevents, hsaved⟩ := releaseRecv_spec h none
  obtain ⟨-, hevents', hsaved'⟩ := releaseSend_spec (releaseRecv w none).1 (releaseRecv w none).2
  have hsend : (releaseRecv w none).1.sock.sendCodec = w.sock.sendCodec := by rw [hsock]
  have hlast : (releaseSend (releaseRecv w none).1 (releaseRecv w none).2).2 =
      lastSaved w.sock := by
    rw [hsaved', hsend, hsaved, lastSaved]
    cases w.sock.sendCodec <;> cases w.sock.recvCodec <;> rfl
  have hall : (releaseSend (releaseRecv w none).1 (releaseRecv w none).2).1.events =
      w.events ++ finalizations w.sock := by
    rw [hevents', hevents, hsend, finalizations, List.filter_append, List.map_append,
      List.append_assoc]
  unfold svzCodecSockDisconnect
  dsimp only
  rw [hlast]
  cases lastSaved w.sock with
  | none => simpa using hall
  | some callback => simp [hall]

theorem disconnect_sock (h : SetUp orig w.sock) :
    (svzCodecSockDisconnect w).sock = match w.sock.sendCodec, w.sock.recvCodec with
      | some data, _ => released orig none (some .svzCodecSockSend) data.disconnectedSocket
      | none, some data => released orig orig.checkRequest orig.writeSocket data.disconnectedSocket
      | none, none => orig.sock := by
  obtain ⟨hsock, -, -⟩ := releaseRecv_spec h none
  obtain ⟨hsock', -, -⟩ := releaseSend_spec (releaseRecv w none).1 (releaseRecv w none).2
  have hcall : (svzCodecSockDisconnect w).sock =
      (releaseSend (releaseRecv w none).1 (releaseRecv w none).2).1.sock := by
    unfold svzCodecSockDisconnect
    dsimp only
    split <;> rfl
  rw [hcall, hsock', hsock]
  have hwrite := h.writeSocket
  have hdisc := h.disconnectedSocket
  cases hsend : w.sock.sendCodec with
  | some data =>
    obtain ⟨hbuf, hcheck⟩ := h.sendCodec data hsend
    rw [hsend] at hwrite
    simp [released, Original.sock, hbuf, hcheck, h.recvBuffer, hwrite]
  | none =>
    rw [hsend] at hwrite hdisc
    cases hrecv : w.sock.recvCodec with
    | some data =>
      simp [released, Original.sock, h.recvBuffer, h.sendBuffer, hwrite, hsend]
    | none =>
      rw [hrecv] at hdisc
      simp [Original.sock, h.recvBuffer, h.sendBuffer, hwrite, hdisc, hsend]

theorem called_inj {a b : Option Callback} :
    a.toList.map Event.called = b.toList.map Event.called ↔ a = b := by
  cases a <;> cases b <;> simp

theorem tornDown_iff (h : SetUp orig w.sock) : TornDown orig w ↔ Releasable orig w.sock := by
  unfold TornDown
  rw [disconnect_events h, disconnect_sock h, List.append_cancel_left_eq, called_inj]
  unfold Releasable lastSaved
  cases w.sock.sendCodec with
  | some data =>
    dsimp only
    rw [released_eq_iff]
    constructor
    · rintro ⟨⟨hdisc, hcheck, hwrite⟩, -⟩
      exact ⟨hdisc, hcheck.symm, hwrite.symm⟩
    · rintro ⟨hdisc, hcheck, hwrite⟩
      exact ⟨⟨hdisc, hcheck.symm, hwrite.symm⟩, hdisc⟩
  | none =>
    cases w.sock.recvCodec with
    | some data =>
      dsimp only
      rw [released_eq_iff]
      tauto
    | none =>
      simp only [true_and]
      exact eq_comm

/-! ## Every order of setups -/

/-- Every setup that fails leaves the socket as it was, and `svz_codec_sock_disconnect` in
the end gives back the original one. -/
def Restores (orig : Original) (ops : List Op) : Prop :=
  (∀ pre op, pre ++ [op] <+: ops → Failsafe (run orig.world pre) op) ∧
    TornDown orig (run orig.world ops)

theorem run_setUp (orig : Original) {ops : List Op}
    (hsafe : ∀ pre op, pre ++ [op] <+: ops → Failsafe (run orig.world pre) op) :
    SetUp orig (run orig.world ops).sock :=
  forall_prefix_of_step step (fun w => SetUp orig w.sock) Failsafe (setUp_original orig)
    (fun _ op _ h hop => step_setUp h op hop) hsafe ops (List.prefix_refl ops)

theorem restores_iff (orig : Original) (ops : List Op) :
    Restores orig ops ↔
      (∀ pre op, pre ++ [op] <+: ops → Undoable (run orig.world pre).sock op) ∧
        Releasable orig (run orig.world ops).sock := by
  have hfail : (∀ pre op, pre ++ [op] <+: ops → Failsafe (run orig.world pre) op) ↔
      ∀ pre op, pre ++ [op] <+: ops → Undoable (run orig.world pre).sock op :=
    forall₃_congr fun pre op _ => failsafe_iff (run orig.world pre) op
  unfold Restores
  rw [hfail]
  refine and_congr_right fun hundo => ?_
  exact tornDown_iff (run_setUp orig (hfail.mpr hundo))

/-- A socket with its own three callbacks. -/
def usualSocket : Original where
  mem := fun _ => []
  next := 3
  checkRequest := some (.other 0)
  writeSocket := some (.other 1)
  disconnectedSocket := some (.other 2)
  recvBuffer := ⟨1, 0, 0⟩
  sendBuffer := ⟨2, 0, 0⟩

/-- A sending codec that does not initialize, and two codecs that do. -/
theorem not_restores_usualSocket :
    ¬ Restores usualSocket [.setup .send 0 false] ∧
    ¬ Restores usualSocket [.setup .recv 0 true, .setup .send 1 true] := by
  constructor
  · rintro ⟨hsafe, -⟩
    have h := hsafe [] (.setup .send 0 false) (List.prefix_refl _) (by decide)
    exact absurd h (by decide)
  · rintro ⟨-, hsock, -⟩
    exact absurd hsock (by decide)

end Serveez.Codec
