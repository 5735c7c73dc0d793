import Serveez.Passthrough.Shuffle

/-!
# The two streams of the shuffle variants

* `step_coherent`: a step keeps both streams in order as long as the sockets are linked.
* `run_streams`: what the child took and the receive buffer of the client are what the client
  sent, what the client took and its send buffer are what the child sent, and the socket
  pair and the pipes give the same streams.
-/

namespace Serveez.Passthrough

open Lib Socket

/-- The client buffers carry the two streams, and the fills that the shuffle socket has
copied are within the sizes of these buffers. -/
structure Coherent (s : State) : Prop where
  toChild : s.client.recvBuffer.Carries s.mem s.toChild s.received
  toClient : s.client.sendBuffer.Carries s.mem s.toClient s.fromChild
  addr_ne : s.client.recvBuffer.addr ≠ s.client.sendBuffer.addr
  shuffle_send_le : s.shuffle.sendBuffer.fill ≤ s.client.recvBuffer.size
  shuffle_recv_le : s.shuffle.recvBuffer.fill ≤ s.client.sendBuffer.size

variable {s : State}

theorem coherent_shuffle (client : Client) (desc : Int) : Coherent (shuffle client desc) where
  toChild := ⟨client.recv_fits, rfl⟩
  toClient := ⟨client.send_fits, rfl⟩
  addr_ne := client.addr_ne
  shuffle_send_le := Nat.zero_le _
  shuffle_recv_le := Nat.zero_le _

theorem coherent_logged (h : Coherent s) (entry : String) : Coherent (logged s entry) :=
  ⟨h.toChild, h.toClient, h.addr_ne, h.shuffle_send_le, h.shuffle_recv_le⟩

/-! ## The buffers switched -/

theorem sendSwitchBuffers_linked (hlink : s.linked = true) (set : Bool) :
    sendSwitchBuffers s set =
      (if set then { s with shuffle := { s.shuffle with sendBuffer := s.client.recvBuffer } }
       else { s with client := { s.client with recvBuffer := s.shuffle.sendBuffer } }, 0) := by
  cases set <;> simp [sendSwitchBuffers, hlink]

theorem recvSwitchBuffers_linked (hlink : s.linked = true) (set : Bool) :
    recvSwitchBuffers s set =
      (if set then { s with shuffle := { s.shuffle with recvBuffer := s.client.sendBuffer } }
       else { s with client := { s.client with sendBuffer := s.shuffle.recvBuffer } }, 0) := by
  cases set <;> simp [recvSwitchBuffers, hlink]

/-- The shuffle socket with the receive buffer of the client to send from. -/
def sendSet (s : State) : State :=
  { s with shuffle := { s.shuffle with sendBuffer := s.client.recvBuffer } }

/-- The shuffle socket with the send buffer of the client to receive into. -/
def recvSet (s : State) : State :=
  { s with shuffle := { s.shuffle with recvBuffer := s.client.sendBuffer } }

theorem coherent_sendSet (h : Coherent s) : Coherent (sendSet s) :=
  ⟨h.toChild, h.toClient, h.addr_ne, h.toChild.fill_le, h.shuffle_recv_le⟩

theorem coherent_recvSet (h : Coherent s) : Coherent (recvSet s) :=
  ⟨h.toChild, h.toClient, h.addr_ne, h.shuffle_send_le, h.toClient.fill_le⟩

/-- The child took `n` bytes of the receive buffer of the client. -/
def carriedToChild (s : State) (n : Nat) : State :=
  let buffer := s.client.recvBuffer
  { s with
    toChild := s.toChild ++ (s.mem buffer.addr).take n
    mem := buffer.moveFront s.mem n
    client := { s.client with recvBuffer := buffer.shrink n }
    shuffle := { s.shuffle with sendBuffer := buffer.shrink n } }

theorem coherent_carriedToChild (h : Coherent s) {n : Nat} (hn : n ≤ s.client.recvBuffer.fill) :
    Coherent (carriedToChild s n) where
  toChild := h.toChild.take hn
  toClient := h.toClient.store_of_ne _ _ h.addr_ne.symm
  addr_ne := h.addr_ne
  shuffle_send_le := (h.toChild.toFits.moveFront n).fill_le
  shuffle_recv_le := h.shuffle_recv_le

/-- The child gave `bytes` into the send buffer of the client. -/
def carriedFromChild (s : State) (bytes : List UInt8) : State :=
  let buffer := s.client.sendBuffer
  { s with
    fromChild := s.fromChild ++ bytes
    mem := buffer.append s.mem bytes
    client := { s.client with sendBuffer := buffer.grow bytes.length }
    shuffle := { s.shuffle with recvBuffer := buffer.grow bytes.length } }

theorem coherent_carriedFromChild (h : Coherent s) {bytes : List UInt8}
    (hroom : s.client.sendBuffer.fill + bytes.length ≤ s.client.sendBuffer.size) :
    Coherent (carriedFromChild s bytes) where
  toChild := h.toChild.store_of_ne _ _ h.addr_ne
  toClient := h.toClient.give hroom
  addr_ne := h.addr_ne
  shuffle_send_le := h.shuffle_send_le
  shuffle_recv_le := hroom

/-! ## What the callbacks do -/

/-- A call of `send_socket` or `send_pipe`, with the entry it makes in the log. -/
theorem sendChild_cases (call : String) (hlink : s.linked = true) (result : SendResult) :
    sendChild call s result = (sendSet s, 0) ∨
    (∃ n, n ≤ s.client.recvBuffer.fill ∧ sendChild call s result = (carriedToChild s n, 0)) ∨
    (∃ ret, sendChild call s result = (logged (sendSet s) call, ret)) := by
  have hset : sendSwitchBuffers s true = (sendSet s, 0) := by
    rw [sendSwitchBuffers_linked hlink]
    rfl
  by_cases hfill : (sendSet s).shuffle.sendBuffer.fill = 0
  · refine .inl ?_
    simp [sendChild, hset, hfill]
  · cases result with
    | wouldBlock => exact .inr (.inr ⟨0, by simp [sendChild, hset, hfill]⟩)
    | fail => exact .inr (.inr ⟨-1, by simp [sendChild, hset, hfill]⟩)
    | accept n =>
      by_cases hn : min n (sendSet s).shuffle.sendBuffer.fill = 0
      · refine .inl ?_
        simp only [sendChild, hset, hfill, hn]
        rfl
      · refine .inr (.inl ⟨min n s.client.recvBuffer.fill, Nat.min_le_right _ _, ?_⟩)
        have hback := sendSwitchBuffers_linked
          (s := childTakes (sendSet s) (min n (sendSet s).shuffle.sendBuffer.fill)) hlink false
        simp only [sendChild, hset, hfill, hn, hback]
        rfl

/-- A call of `recv_socket` or `recv_pipe`. -/
theorem recvChild_cases (call : String) (noData : Option String) (hlink : s.linked = true)
    (result : RecvResult) :
    recvChild call noData s result = (recvSet s, 0) ∨
    (∃ bytes, s.client.sendBuffer.fill + bytes.length ≤ s.client.sendBuffer.size ∧
      recvChild call noData s result = (carriedFromChild s bytes, 0)) ∨
    (recvChild call noData s result = (logged (recvSet s) call, 0)) ∨
    (∃ log, recvChild call noData s result = ({ recvSet s with log := log }, -1)) := by
  have hset : recvSwitchBuffers s true = (recvSet s, 0) := by
    rw [recvSwitchBuffers_linked hlink]
    rfl
  by_cases hroom : (recvSet s).shuffle.recvBuffer.size - (recvSet s).shuffle.recvBuffer.fill = 0
  · refine .inl ?_
    simp [recvChild, hset, hroom]
  · cases result with
    | wouldBlock => exact .inr (.inr (.inl (by simp [recvChild, hset, hroom])))
    | fail =>
      refine .inr (.inr (.inr ⟨s.log ++ [call], ?_⟩))
      simp only [recvChild, hset, hroom]
      rfl
    | data bytes =>
      by_cases hnone : bytes.take
          ((recvSet s).shuffle.recvBuffer.size - (recvSet s).shuffle.recvBuffer.fill) = []
      · refine .inr (.inr (.inr ⟨s.log ++ noData.toList, ?_⟩))
        simp only [recvChild, hset, hroom, hnone]
        cases noData with
        | none => simp [recvSet]
        | some entry => rfl
      · refine .inr (.inl ⟨bytes.take
          (s.client.sendBuffer.size - s.client.sendBuffer.fill), ?_, ?_⟩)
        · have hne : s.client.sendBuffer.size - s.client.sendBuffer.fill ≠ 0 := hroom
          rw [List.length_take]
          omega
        · have hback := recvSwitchBuffers_linked (s := childGives (recvSet s) (bytes.take
            ((recvSet s).shuffle.recvBuffer.size - (recvSet s).shuffle.recvBuffer.fill)))
            hlink false
          simp only [recvChild, hset, hroom, hnone, hback]
          rfl

/-! ## Steps -/

theorem sendChild_coherent (h : Coherent s) (hlink : s.linked = true) (call : String)
    (result : SendResult) : Coherent (sendChild call s result).1 := by
  obtain hr | ⟨n, hn, hr⟩ | ⟨ret, hr⟩ := sendChild_cases call hlink result
  · rw [hr]
    exact coherent_sendSet h
  · rw [hr]
    exact coherent_carriedToChild h hn
  · rw [hr]
    exact coherent_logged (coherent_sendSet h) call

theorem recvChild_coherent (h : Coherent s) (hlink : s.linked = true) (call : String)
    (noData : Option String) (result : RecvResult)
    (hret : (recvChild call noData s result).2 = 0) :
    Coherent (recvChild call noData s result).1 := by
  obtain hr | ⟨bytes, hroom, hr⟩ | hr | ⟨log, hr⟩ := recvChild_cases call noData hlink result
  · rw [hr]
    exact coherent_recvSet h
  · rw [hr]
    exact coherent_carriedFromChild h hroom
  · rw [hr]
    exact coherent_logged (coherent_recvSet h) call
  · simp [hr] at hret

theorem checkRequest_coherent (h : Coherent s) : Coherent (checkRequest s).1 := by
  unfold checkRequest
  split
  · exact h
  · exact ⟨h.toChild, h.toClient, h.addr_ne, h.toChild.fill_le, h.shuffle_recv_le⟩

theorem clientGives_coherent (h : Coherent s) {bytes : List UInt8}
    (hroom : s.client.recvBuffer.fill + bytes.length ≤ s.client.recvBuffer.size) :
    Coherent (clientGives { s with received := s.received ++ bytes } bytes) where
  toChild := h.toChild.give hroom
  toClient := h.toClient.store_of_ne _ _ h.addr_ne.symm
  addr_ne := h.addr_ne
  shuffle_send_le := h.shuffle_send_le
  shuffle_recv_le := h.shuffle_recv_le

theorem clientTakes_coherent (h : Coherent s) {n : Nat} (hn : n ≤ s.client.sendBuffer.fill) :
    Coherent (clientTakes s n) where
  toChild := h.toChild.store_of_ne _ _ h.addr_ne
  toClient := h.toClient.take hn
  addr_ne := h.addr_ne
  shuffle_send_le := h.shuffle_send_le
  shuffle_recv_le := h.shuffle_recv_le

/-- A call of `svz_tcp_read_socket` that returns zero. -/
theorem svzTcpReadSocket_cases {result : RecvResult} {flooded : Bool}
    (hret : (svzTcpReadSocket s result flooded).2 = 0) :
    svzTcpReadSocket s result flooded = (logged s "tcp: recv", 0) ∨
    ∃ bytes, s.client.recvBuffer.fill + bytes.length ≤ s.client.recvBuffer.size ∧
      svzTcpReadSocket s result flooded =
        checkRequest (clientGives { s with received := s.received ++ bytes } bytes) := by
  by_cases hroom : s.client.recvBuffer.size - s.client.recvBuffer.fill = 0
  · simp [svzTcpReadSocket, hroom] at hret
  · cases result with
    | wouldBlock => exact .inl (by simp [svzTcpReadSocket, hroom])
    | fail => simp [svzTcpReadSocket, hroom] at hret
    | data bytes =>
      refine .inr ⟨bytes.take (s.client.recvBuffer.size - s.client.recvBuffer.fill), ?_, ?_⟩
      · rw [List.length_take]
        omega
      · by_cases hnone : bytes.take (s.client.recvBuffer.size - s.client.recvBuffer.fill) = []
        · simp [svzTcpReadSocket, hroom, hnone] at hret
        · cases flooded with
          | true => simp [svzTcpReadSocket, hroom, hnone] at hret
          | false => simp [svzTcpReadSocket, hroom, hnone]

theorem svzTcpReadSocket_coherent (h : Coherent s) (result : RecvResult) (flooded : Bool)
    (hret : (svzTcpReadSocket s result flooded).2 = 0) :
    Coherent (svzTcpReadSocket s result flooded).1 := by
  obtain hr | ⟨bytes, hroom, hr⟩ := svzTcpReadSocket_cases hret
  · rw [hr]
    exact coherent_logged h _
  · rw [hr]
    exact checkRequest_coherent (clientGives_coherent h hroom)

theorem svzTcpWriteSocket_coherent (h : Coherent s) (result : SendResult) :
    Coherent (svzTcpWriteSocket s result).1 := by
  cases result with
  | accept n =>
    exact clientTakes_coherent h (n := min n (min s.client.sendBuffer.fill svzSockMaxWrite))
      (by omega)
  | wouldBlock => exact coherent_logged h _
  | fail => exact coherent_logged h _

theorem apply_coherent (variant : Variant) (h : Coherent s) (hlink : s.linked = true) (op : Op)
    (hret : (op.apply variant s).2 = 0) : Coherent (op.apply variant s).1 := by
  cases op with
  | clientRead result flooded => exact svzTcpReadSocket_coherent h result flooded hret
  | clientWrite result => exact svzTcpWriteSocket_coherent h result
  | clientCheckRequest => exact checkRequest_coherent h
  | shuffleWrite result =>
    cases variant with
    | shuffleSock => exact sendChild_coherent h hlink _ result
    | shufflePipe => exact sendChild_coherent h hlink _ result
  | shuffleRead result =>
    cases variant with
    | shuffleSock => exact recvChild_coherent h hlink _ _ result hret
    | shufflePipe => exact recvChild_coherent h hlink _ _ result hret

/-! ## The variants compared -/

/-- Two states that differ in the log only. -/
def Alike (s t : State) : Prop := ∃ log, t = { s with log := log }

/-- Two calls that return the same and leave states that differ in the log only. -/
def AlikeCalls (r r' : State × Int) : Prop := Alike r.1 r'.1 ∧ r'.2 = r.2

variable {t : State}

theorem sendChild_alike (call call' : String) (h : Alike s t) (result : SendResult) :
    AlikeCalls (sendChild call s result) (sendChild call' t result) := by
  obtain ⟨log, rfl⟩ := h
  unfold sendChild sendSwitchBuffers
  cases hlink : s.linked with
  | false => exact ⟨⟨log, by simp [hlink]⟩, by simp⟩
  | true =>
    by_cases hfill : s.client.recvBuffer.fill = 0
    · exact ⟨⟨log, by simp [hfill]⟩, by simp [hfill]⟩
    · cases result with
      | wouldBlock => exact ⟨⟨log ++ [call'], by simp [hfill, logged]⟩, by simp [hfill]⟩
      | fail => exact ⟨⟨log ++ [call'], by simp [hfill, logged]⟩, by simp [hfill]⟩
      | accept n =>
        by_cases hn : n = 0
        · exact ⟨⟨log, by simp [hfill, hn]⟩, by simp [hfill, hn]⟩
        · exact ⟨⟨log, by simp [hfill, hn, childTakes]⟩, by simp [hfill, hn]⟩

theorem recvChild_alike (call call' : String) (noData noData' : Option String) (h : Alike s t)
    (result : RecvResult) :
    AlikeCalls (recvChild call noData s result) (recvChild call' noData' t result) := by
  obtain ⟨log, rfl⟩ := h
  unfold recvChild recvSwitchBuffers
  cases hlink : s.linked with
  | false => exact ⟨⟨log, by simp [hlink]⟩, by simp⟩
  | true =>
    by_cases hroom : s.client.sendBuffer.size - s.client.sendBuffer.fill = 0
    · exact ⟨⟨log, by simp [hroom]⟩, by simp [hroom]⟩
    · cases result with
      | wouldBlock => exact ⟨⟨log ++ [call'], by simp [hroom, logged]⟩, by simp [hroom]⟩
      | fail => exact ⟨⟨log ++ [call'], by simp [hroom, logged]⟩, by simp [hroom]⟩
      | data bytes =>
        by_cases hnone : bytes = []
        · refine ⟨⟨log ++ noData'.toList, ?_⟩, by simp [hroom, hnone]⟩
          cases noData <;> cases noData' <;> simp [hroom, hnone, logged]
        · exact ⟨⟨log, by simp [hroom, hnone, childGives]⟩, by simp [hroom, hnone]⟩

theorem checkRequest_alike (h : Alike s t) : AlikeCalls (checkRequest s) (checkRequest t) := by
  obtain ⟨log, rfl⟩ := h
  unfold checkRequest
  split <;> exact ⟨⟨log, rfl⟩, rfl⟩

theorem svzTcpReadSocket_alike (h : Alike s t) (result : RecvResult) (flooded : Bool) :
    AlikeCalls (svzTcpReadSocket s result flooded) (svzTcpReadSocket t result flooded) := by
  obtain ⟨log, rfl⟩ := h
  unfold svzTcpReadSocket
  by_cases hroom : s.client.recvBuffer.size - s.client.recvBuffer.fill = 0
  · exact ⟨⟨_, by simp only [hroom]; rfl⟩, by simp [hroom]⟩
  · cases result with
    | wouldBlock => exact ⟨⟨_, by simp only [hroom]; rfl⟩, by simp [hroom]⟩
    | fail => exact ⟨⟨_, by simp only [hroom]; rfl⟩, by simp [hroom]⟩
    | data bytes =>
      by_cases hnone : bytes.take (s.client.recvBuffer.size - s.client.recvBuffer.fill) = []
      · exact ⟨⟨_, by simp only [hroom, hnone]; rfl⟩, by simp [hroom, hnone]⟩
      · cases flooded with
        | true => exact ⟨⟨_, by simp only [hroom, hnone]; rfl⟩, by simp [hroom, hnone]⟩
        | false =>
          simp only [hroom, hnone, if_false, Bool.false_eq_true]
          exact checkRequest_alike ⟨log, rfl⟩

theorem svzTcpWriteSocket_alike (h : Alike s t) (result : SendResult) :
    AlikeCalls (svzTcpWriteSocket s result) (svzTcpWriteSocket t result) := by
  obtain ⟨log, rfl⟩ := h
  cases result <;> exact ⟨⟨_, rfl⟩, rfl⟩

theorem apply_alike (variant variant' : Variant) (h : Alike s t) (op : Op) :
    AlikeCalls (op.apply variant s) (op.apply variant' t) := by
  cases op with
  | clientRead result flooded => exact svzTcpReadSocket_alike h result flooded
  | clientWrite result => exact svzTcpWriteSocket_alike h result
  | clientCheckRequest => exact checkRequest_alike h
  | shuffleWrite result =>
    cases variant <;> cases variant' <;> exact sendChild_alike _ _ h result
  | shuffleRead result =>
    cases variant <;> cases variant' <;> exact recvChild_alike _ _ _ _ h result

theorem step_alike (variant variant' : Variant) (h : Alike s t) (op : Op) :
    Alike (step variant s op) (step variant' t op) := by
  obtain ⟨⟨log, hs⟩, hret⟩ := apply_alike variant variant' h op
  unfold step settle
  rw [hret, hs]
  split <;> exact ⟨log, rfl⟩

theorem run_alike (variant variant' : Variant) (ops : List Op) (h : Alike s t) :
    Alike (run variant s ops) (run variant' t ops) := by
  induction ops generalizing s t with
  | nil => exact h
  | cons op ops ih => exact ih (step_alike variant variant' h op)

/-! ## Runs -/

theorem sendChild_linked (call : String) (s : State) (result : SendResult) :
    (sendChild call s result).1.linked = s.linked := by
  cases hlink : s.linked with
  | false => simp [sendChild, sendSwitchBuffers, hlink]
  | true =>
    obtain hr | ⟨n, -, hr⟩ | ⟨ret, hr⟩ := sendChild_cases call hlink result
    all_goals
      rw [hr]
      exact hlink

theorem recvChild_linked (call : String) (noData : Option String) (s : State)
    (result : RecvResult) : (recvChild call noData s result).1.linked = s.linked := by
  cases hlink : s.linked with
  | false => simp [recvChild, recvSwitchBuffers, hlink]
  | true =>
    obtain hr | ⟨bytes, -, hr⟩ | hr | ⟨log, hr⟩ := recvChild_cases call noData hlink result
    all_goals
      rw [hr]
      exact hlink

theorem checkRequest_linked (s : State) : (checkRequest s).1.linked = s.linked := by
  unfold checkRequest
  split <;> rfl

theorem svzTcpReadSocket_linked (s : State) (result : RecvResult) (flooded : Bool) :
    (svzTcpReadSocket s result flooded).1.linked = s.linked := by
  by_cases hroom : s.client.recvBuffer.size - s.client.recvBuffer.fill = 0
  · simp [svzTcpReadSocket, hroom, logged]
  · cases result with
    | wouldBlock => simp [svzTcpReadSocket, hroom, logged]
    | fail => simp [svzTcpReadSocket, hroom, logged]
    | data bytes =>
      simp only [svzTcpReadSocket, hroom, if_false]
      split
      · rfl
      · split
        · rfl
        · exact checkRequest_linked _

theorem apply_linked (variant : Variant) (s : State) (op : Op) :
    (op.apply variant s).1.linked = s.linked := by
  cases op with
  | clientRead result flooded => exact svzTcpReadSocket_linked s result flooded
  | clientWrite result => cases result <;> rfl
  | clientCheckRequest => exact checkRequest_linked s
  | shuffleWrite result => cases variant <;> exact sendChild_linked _ s result
  | shuffleRead result => cases variant <;> exact recvChild_linked _ _ s result

/-- A step that leaves the sockets linked started with linked sockets and its callback
returned zero. -/
theorem linked_of_step {variant : Variant} {op : Op} (h : (step variant s op).linked = true) :
    s.linked = true ∧ (op.apply variant s).2 = 0 := by
  unfold step settle at h
  split at h
  · rename_i hret
    exact ⟨by rw [← apply_linked variant s op, h], hret⟩
  · exact absurd h Bool.false_ne_true

theorem step_coherent (variant : Variant) (op : Op) (h : s.linked = true → Coherent s)
    (hlink : (step variant s op).linked = true) : Coherent (step variant s op) := by
  obtain ⟨hs, hret⟩ := linked_of_step hlink
  have hnext := apply_coherent variant (h hs) hs op hret
  unfold step settle
  rw [if_pos hret]
  exact hnext

theorem run_coherent (variant : Variant) (client : Client) (desc : Int) (ops : List Op) :
    (run variant (shuffle client desc) ops).linked = true →
      Coherent (run variant (shuffle client desc) ops) :=
  foldl_invariant (step variant) (fun s => s.linked = true → Coherent s)
    (fun _ op h => step_coherent variant op h) ops _ (fun _ => coherent_shuffle client desc)

/-- The bytes at the four ends of the two sockets. -/
def State.streams (s : State) : List UInt8 × List UInt8 × List UInt8 × List UInt8 :=
  (s.received, s.toChild, s.fromChild, s.toClient)

theorem run_streams (variant : Variant) (client : Client) (desc : Int) (ops : List Op)
    (hlink : (run variant (shuffle client desc) ops).linked = true) :
    let s := run variant (shuffle client desc) ops
    s.toChild ++ s.client.recvBuffer.contents s.mem = s.received ∧
    s.toClient ++ s.client.sendBuffer.contents s.mem = s.fromChild ∧
    s.client.recvBuffer.fill ≤ s.client.recvBuffer.size ∧
    s.client.sendBuffer.fill ≤ s.client.sendBuffer.size ∧
    s.shuffle.sendBuffer.fill ≤ s.client.recvBuffer.size ∧
    s.shuffle.recvBuffer.fill ≤ s.client.sendBuffer.size ∧
    ∀ variant', (run variant' (shuffle client desc) ops).streams = s.streams ∧
      (run variant' (shuffle client desc) ops).linked = true := by
  have h := run_coherent variant client desc ops hlink
  refine ⟨h.toChild.stream, h.toClient.stream, h.toChild.fill_le, h.toClient.fill_le,
    h.shuffle_send_le, h.shuffle_recv_le, fun variant' => ?_⟩
  have hsame : Alike (shuffle client desc) (shuffle client desc) := ⟨[], rfl⟩
  obtain ⟨log, hrun⟩ := run_alike variant variant' ops hsame
  rw [hrun]
  exact ⟨rfl, hlink⟩

/-- A client with room for four bytes in each direction. -/
def smallClient : Client where
  mem := fun addr => if addr = 1 ∨ addr = 2 then [0, 0, 0, 0] else []
  sock := ⟨5, ⟨1, 0, 4⟩, ⟨2, 0, 4⟩⟩
  finalWrite := false
  recv_fits := ⟨by decide, rfl⟩
  send_fits := ⟨by decide, rfl⟩
  addr_ne := by decide

/-- Bytes in both directions with a partial transfer and one that would block. -/
def smallTraffic : List Op :=
  [.clientRead (.data [1, 2, 3]) false, .shuffleWrite (.accept 1), .shuffleWrite .wouldBlock,
    .shuffleRead (.data [8, 9]), .clientRead (.data [4]) false, .clientWrite (.accept 1),
    .shuffleWrite (.accept 2)]

theorem run_streams_smallTraffic :
    let s := run .shuffleSock (shuffle smallClient 7) smallTraffic
    s.linked = true ∧ s.toChild = [1, 2, 3] ∧
      s.toChild ++ s.client.recvBuffer.contents s.mem = [1, 2, 3, 4] ∧ s.toClient = [8] ∧
      s.toClient ++ s.client.sendBuffer.contents s.mem = [8, 9] ∧
      (run .shufflePipe (shuffle smallClient 7) smallTraffic).streams = s.streams := by
  have hlink : (run .shuffleSock (shuffle smallClient 7) smallTraffic).linked = true := by
    decide +kernel
  have hgiven : (run .shuffleSock (shuffle smallClient 7) smallTraffic).received = [1, 2, 3, 4] ∧
      (run .shuffleSock (shuffle smallClient 7) smallTraffic).fromChild = [8, 9] := by
    decide +kernel
  have h := run_streams .shuffleSock smallClient 7 smallTraffic hlink
  exact ⟨hlink, by decide +kernel, h.1.trans hgiven.1, by decide +kernel, h.2.1.trans hgiven.2,
    (h.2.2.2.2.2.2 .shufflePipe).1⟩

end Serveez.Passthrough
