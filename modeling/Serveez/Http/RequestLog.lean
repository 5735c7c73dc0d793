import Serveez.Http.CacheRuns
import Serveez.Lib.LengthFraming

/-!
# Requests and answers of a connection

`World.log` follows the events of a run and records, for one connection, the bytes it has read
from its client and the requests it has passed to `http_handle_request` with their answers.

* `isSize_requestLength`: requests are frames that announce their size.
* `log_concat`: what one more event adds.
* `step_did`: what an event has done, callback by callback.
-/

namespace Serveez.Transfer

open Cache Lib World

variable {cfg : HttpConfig} {w w' : World} {event : Event}

/-! ## Requests in a buffer -/

/-- The end of a request. -/
def eol2 : List UInt8 := [13, 10, 13, 10]

theorem requestLength_eq_some_iff {l : List UInt8} {n : Nat} :
    requestLength l = some n ↔ ∃ m, n = m + 4 ∧ eol2 <+: l.drop m ∧
      ∀ i < m, ¬ eol2 <+: l.drop i := by
  induction l generalizing n with
  | nil =>
    constructor
    · nofun
    · rintro ⟨m, -, hend, -⟩
      rw [List.drop_nil] at hend
      exact absurd (List.prefix_nil.mp hend) nofun
  | cons x l ih =>
    rw [requestLength]
    by_cases hend : eol2 <+: x :: l
    · rw [if_pos (show [13, 10, 13, 10] <+: x :: l from hend), Option.some_inj]
      constructor
      · rintro rfl
        exact ⟨0, rfl, hend, fun i hi => absurd hi (Nat.not_lt_zero i)⟩
      · rintro ⟨m, rfl, -, hfirst⟩
        cases m with
        | zero => rfl
        | succ m => exact absurd hend (hfirst 0 (Nat.zero_lt_succ m))
    · rw [if_neg (show ¬ [13, 10, 13, 10] <+: x :: l from hend), Option.map_eq_some_iff]
      constructor
      · rintro ⟨k, hk, rfl⟩
        obtain ⟨m, rfl, hm, hfirst⟩ := ih.mp hk
        refine ⟨m + 1, by omega, hm, ?_⟩
        intro i hi
        cases i with
        | zero => exact hend
        | succ i => exact hfirst i (by omega)
      · rintro ⟨m, rfl, hm, hfirst⟩
        cases m with
        | zero => exact absurd hm hend
        | succ m =>
          refine ⟨m + 4, ih.mpr ⟨m, rfl, hm, ?_⟩, by omega⟩
          intro i hi
          exact hfirst (i + 1) (by omega)

theorem requestLength_le {l : List UInt8} {n : Nat} (h : requestLength l = some n) :
    n ≤ l.length := by
  obtain ⟨m, rfl, hend, -⟩ := requestLength_eq_some_iff.mp h
  have hlen := hend.length_le
  rw [List.length_drop] at hlen
  have hfour : eol2.length = 4 := rfl
  omega

/-- The end of a request is seen in the first bytes of a longer buffer. -/
theorem eol2_prefix_append_iff {l t : List UInt8} {i : Nat} (hi : i + 4 ≤ l.length) :
    eol2 <+: (l ++ t).drop i ↔ eol2 <+: l.drop i := by
  rw [List.drop_append_of_le_length (by omega)]
  constructor
  · intro h
    refine List.prefix_of_prefix_length_le h (List.prefix_append _ _) ?_
    rw [List.length_drop]
    exact Nat.le_sub_of_add_le (by rw [Nat.add_comm]; exact hi)
  · exact fun h => h.trans (List.prefix_append _ _)

theorem requestLength_append {l : List UInt8} {n : Nat} (t : List UInt8)
    (h : requestLength l = some n) : requestLength (l ++ t) = some n := by
  have hle := requestLength_le h
  obtain ⟨m, rfl, hend, hfirst⟩ := requestLength_eq_some_iff.mp h
  refine requestLength_eq_some_iff.mpr ⟨m, rfl, (eol2_prefix_append_iff hle).mpr hend, ?_⟩
  intro i hi hfound
  exact hfirst i hi ((eol2_prefix_append_iff (by omega)).mp hfound)

theorem requestLength_take {l : List UInt8} {n : Nat} (h : requestLength l = some n) :
    requestLength (l.take n) = some n := by
  have hle := requestLength_le h
  obtain ⟨m, rfl, hend, hfirst⟩ := requestLength_eq_some_iff.mp h
  have hlen : (l.take (m + 4)).length = m + 4 := List.length_take_of_le hle
  have hiff : ∀ i, i ≤ m → (eol2 <+: (l.take (m + 4)).drop i ↔ eol2 <+: l.drop i) := by
    intro i hi
    rw [← eol2_prefix_append_iff (t := l.drop (m + 4)) (by omega), List.take_append_drop]
  refine requestLength_eq_some_iff.mpr ⟨m, rfl, (hiff m (Nat.le_refl m)).mpr hend, ?_⟩
  intro i hi hfound
  exact hfirst i hi ((hiff i (by omega)).mp hfound)

theorem isSize_requestLength : IsSize requestLength where
  append t h := requestLength_append t h
  pos h := by
    obtain ⟨m, rfl, -⟩ := requestLength_eq_some_iff.mp h
    omega
  frame h _ := requestLength_take h

/-! ## The log of a connection -/

/-- The bytes read from the client of a connection, and the requests passed to
`http_handle_request` with their answers. -/
structure Log where
  received : List UInt8
  handled : List (List UInt8 × Answer)

/-- The bytes that an event reads from the client of the connection `c`. -/
def World.arrived (cfg : HttpConfig) (w : World) (c : Nat) : Event → List UInt8
  | .receive d bytes _ _ =>
    if d = c ∧ w.active c ∧ (w.sock c).readSocket = .svzTcpReadSocket then
      bytes.take (cfg.recvBufferSize - (w.sock c).recvBuffer.length)
    else []
  | _ => []

/-- The connection whose request an event completes, the request and its answer. -/
def World.request (cfg : HttpConfig) (w : World) : Event → Option (Nat × List UInt8 × Answer)
  | .receive c bytes answer _ =>
    if w.active c ∧ (w.sock c).readSocket = .svzTcpReadSocket ∧ (w.sock c).completes cfg bytes then
      (requestLength ((w.sock c).received cfg bytes)).map fun len =>
        (c, ((w.sock c).received cfg bytes).take len, answer)
    else none
  | _ => none

/-- The log after an event; a new connection has an empty one. -/
def Log.next (cfg : HttpConfig) (c : Nat) (log : Log) (w : World) (event : Event) : Log :=
  if event = .connect c ∧ c ∉ w.socks then ⟨[], []⟩
  else ⟨log.received ++ w.arrived cfg c event,
    log.handled ++ ((w.request cfg event).filter fun p => p.1 = c).toList.map Prod.snd⟩

/-- The log of the connection `c` after some events. -/
def World.log (cfg : HttpConfig) (entries c : Nat) (events : List Event) : Log :=
  (events.foldl (fun (p : Option World × Log) event =>
    (p.1.bind fun w => w.step cfg event, p.1.elim p.2 fun w => p.2.next cfg c w event))
    (some (World.start cfg entries), ⟨[], []⟩)).2

theorem log_concat {entries c : Nat} {pre : List Event} (event : Event)
    (hw : World.run cfg entries pre = some w) :
    World.log cfg entries c (pre ++ [event]) =
      (World.log cfg entries c pre).next cfg c w event := by
  have hfst : ∀ events : List Event, (events.foldl (fun (p : Option World × Log) event =>
      (p.1.bind fun w => w.step cfg event, p.1.elim p.2 fun w => p.2.next cfg c w event))
      (some (World.start cfg entries), ⟨[], []⟩)).1 = World.run cfg entries events := by
    intro events
    induction events using List.reverseRecOn with
    | nil => rfl
    | append_singleton events event ih =>
      rw [foldl_concat, ih, World.run, World.run, foldl_concat]
  unfold World.log
  rw [foldl_concat]
  simp only [hfst pre, hw, Option.elim_some]

/-! ## Reading from the client -/

/-- What `svz_tcp_read_socket` has done with the bytes of an event. -/
inductive Received (cfg : HttpConfig) (w : World) (c : Nat) (bytes : List UInt8) (answer : Answer)
    (flush : Flush) : Cache → HttpSock → Bool → Prop
  | nothing (harrived : w.arrived cfg c (.receive c bytes answer flush) = [])
      (hrequest : w.request cfg (.receive c bytes answer flush) = none) :
      Received cfg w c bytes answer flush w.cache (w.sock c) true
  | part (hlen : requestLength ((w.sock c).received cfg bytes) = none)
      (hrequest : w.request cfg (.receive c bytes answer flush) = none) :
      Received cfg w c bytes answer flush w.cache
        { w.sock c with recvBuffer := (w.sock c).received cfg bytes } false
  | request {len : Nat} {g' : Cache} {s' : HttpSock} {died : Bool}
      (hlen : requestLength ((w.sock c).received cfg bytes) = some len)
      (hcompletes : (w.sock c).completes cfg bytes = true)
      (hrequest : w.request cfg (.receive c bytes answer flush) =
        some (c, ((w.sock c).received cfg bytes).take len, answer))
      (hhandle : httpHandleRequest cfg w.cache
        { w.sock c with recvBuffer := (w.sock c).received cfg bytes } answer flush =
          some (g', s', died)) :
      Received cfg w c bytes answer flush g'
        (if died then s' else { s' with recvBuffer := s'.recvBuffer.drop len }) died

section Reading

variable {c : Nat} {bytes : List UInt8} {answer : Answer} {flush : Flush}
  (hactive : w.active c = true) (hread : (w.sock c).readSocket = .svzTcpReadSocket)

include hactive hread in
theorem received_eq (cfg : HttpConfig) (bytes : List UInt8) (answer : Answer) (flush : Flush) :
    (w.sock c).received cfg bytes =
    (w.sock c).recvBuffer ++ w.arrived cfg c (.receive c bytes answer flush) := by
  rw [World.arrived, if_pos ⟨rfl, hactive, hread⟩]
  rfl

include hactive hread in
theorem svzTcpReadSocket_received {g' : Cache} {s' : HttpSock} {died : Bool}
    (h : svzTcpReadSocket cfg w.cache (w.sock c) bytes answer flush = some (g', s', died)) :
    Received cfg w c bytes answer flush g' s' died := by
  unfold svzTcpReadSocket at h
  simp only at h
  split at h
  · next hfull =>
    cases h
    refine .nothing ?_ ?_
    · rw [World.arrived, if_pos ⟨rfl, hactive, hread⟩]
      rcases hfull with hfull | rfl
      · rw [hfull, List.take_zero]
      · exact List.take_nil
    · apply if_neg
      rintro ⟨-, -, hcompletes⟩
      simp only [HttpSock.completes, Bool.and_eq_true, decide_eq_true_eq] at hcompletes
      rcases hfull with hfull | hfull
      · omega
      · exact hcompletes.1.2 hfull
  · next hspace =>
    push Not at hspace
    change httpCheckRequest cfg w.cache
      { w.sock c with recvBuffer := (w.sock c).received cfg bytes } answer flush = _ at h
    unfold httpCheckRequest at h
    cases hlen : requestLength ((w.sock c).received cfg bytes) with
    | none =>
      simp only [hlen] at h
      cases h
      refine .part hlen (if_neg ?_)
      rintro ⟨-, -, hcompletes⟩
      simp [HttpSock.completes, hlen] at hcompletes
    | some len =>
      have hcompletes : (w.sock c).completes cfg bytes = true := by
        simp only [HttpSock.completes, hlen, Bool.and_eq_true, decide_eq_true_eq]
        exact ⟨⟨by omega, hspace.2⟩, rfl⟩
      have hrequest : w.request cfg (.receive c bytes answer flush) =
          some (c, ((w.sock c).received cfg bytes).take len, answer) := by
        rw [World.request, if_pos ⟨hactive, hread, hcompletes⟩, hlen]
        rfl
      simp only [hlen, Option.bind_eq_bind, Option.bind_eq_some_iff] at h
      obtain ⟨⟨g₁, s₁, died₁⟩, hhandle, h⟩ := h
      have hreceived := Received.request hlen hcompletes hrequest hhandle
      cases died₁ with
      | true =>
        cases h
        exact hreceived
      | false =>
        cases h
        exact hreceived

end Reading

/-! ## Events -/

/-- The world after an event, by the callback that has been called. -/
inductive Did (cfg : HttpConfig) (w : World) : Event → World → Prop
  | same {event : Event} (harrived : ∀ c, w.arrived cfg c event = [])
      (hrequest : w.request cfg event = none) (hold : ∀ c, event = .connect c → c ∈ w.socks) :
      Did cfg w event w
  | connect {c : Nat} (hc : c ∉ w.socks) : Did cfg w (.connect c) { w with
      socks := c :: w.socks, sock := Function.update w.sock c (httpConnectSocket cfg) }
  | receive {c : Nat} {bytes : List UInt8} {answer : Answer} {flush : Flush} {g' : Cache}
      {s' : HttpSock} {died : Bool} (hactive : w.active c = true)
      (hread : (w.sock c).readSocket = .svzTcpReadSocket)
      (hr : svzTcpReadSocket cfg w.cache (w.sock c) bytes answer flush = some (g', s', died)) :
      Did cfg w (.receive c bytes answer flush) (w.set c g' { s' with killed := died })
  | cacheRead {c : Nat} {r : ReadResult} {g' : Cache} {s' : HttpSock} {died : Bool}
      (hactive : w.active c = true) (hread : (w.sock c).readSocket = .httpCacheRead)
      (hr : httpCacheRead cfg w.cache (w.sock c) r = some (g', s', died)) :
      Did cfg w (.readFile c r) (w.set c g' { s' with killed := died })
  | fileRead {c : Nat} {r : ReadResult} {g' : Cache} {s' : HttpSock} {died : Bool}
      (hactive : w.active c = true) (hread : (w.sock c).readSocket = .httpFileRead)
      (hr : httpFileRead cfg w.cache (w.sock c) r = some (g', s', died)) :
      Did cfg w (.readFile c r) (w.set c g' { s' with killed := died })
  | write {c : Nat} {r : SendResult} {g' : Cache} {s' : HttpSock} {died : Bool}
      (hactive : w.active c = true) (hbuffer : (w.sock c).sendBuffer ≠ [])
      (hr : writeSocket cfg w.cache (w.sock c) r = some (g', s', died)) :
      Did cfg w (.write c r) (w.set c g' { s' with killed := died })
  | disconnect {c : Nat} {g' : Cache} (hc : c ∈ w.socks) :
      Did cfg w (.disconnect c) { w with cache := g', socks := w.socks.erase c }
  | change {c : Nat} {content : List UInt8} (hc : c ∈ w.socks) :
      Did cfg w (.change c content) (w.set c w.cache { w.sock c with
        fileDesc := (w.sock c).fileDesc.map fun f => { f with content := content } })

theorem step_did (h : w.step cfg event = some w') : Did cfg w event w' := by
  cases event with
  | connect c =>
    unfold World.step at h
    simp only at h
    split at h
    · next hc =>
      cases h
      exact .same (fun _ => rfl) rfl (by rintro d ⟨⟩; exact hc)
    · next hc =>
      cases h
      exact .connect hc
  | receive c bytes answer flush =>
    unfold World.step at h
    simp only at h
    split at h
    · next hactive =>
      simp only [World.after, Option.map_eq_some_iff] at h
      obtain ⟨⟨g', s', died⟩, hr, rfl⟩ := h
      exact .receive hactive.1 hactive.2 hr
    · next hactive =>
      cases h
      refine .same ?_ ?_ nofun
      · intro d
        apply if_neg
        rintro ⟨rfl, hboth⟩
        exact hactive hboth
      · exact if_neg fun hall => hactive ⟨hall.1, hall.2.1⟩
  | readFile c r =>
    unfold World.step at h
    simp only at h
    split at h
    · next hactive =>
      split at h
      · next hread =>
        simp only [World.after, Option.map_eq_some_iff] at h
        obtain ⟨⟨g', s', died⟩, hr, rfl⟩ := h
        exact .cacheRead hactive hread hr
      · next hread =>
        simp only [World.after, Option.map_eq_some_iff] at h
        obtain ⟨⟨g', s', died⟩, hr, rfl⟩ := h
        exact .fileRead hactive hread hr
      · cases h
        exact .same (fun _ => rfl) rfl nofun
    · cases h
      exact .same (fun _ => rfl) rfl nofun
  | write c r =>
    unfold World.step at h
    simp only at h
    split at h
    · next hactive =>
      simp only [World.after, Option.map_eq_some_iff] at h
      obtain ⟨⟨g', s', died⟩, hr, rfl⟩ := h
      exact .write hactive.1 hactive.2 hr
    · cases h
      exact .same (fun _ => rfl) rfl nofun
  | disconnect c =>
    unfold World.step at h
    simp only at h
    split at h
    · next hc =>
      simp only [Option.map_eq_some_iff] at h
      obtain ⟨g', -, rfl⟩ := h
      exact .disconnect hc
    · cases h
      exact .same (fun _ => rfl) rfl nofun
  | change c content =>
    unfold World.step at h
    simp only at h
    split at h
    · next hc =>
      cases h
      exact .change hc
    · cases h
      exact .same (fun _ => rfl) rfl nofun

/-! ## One connection -/

theorem next_eq_self {c : Nat} {log : Log} (hevent : ¬ (event = .connect c ∧ c ∉ w.socks))
    (harrived : w.arrived cfg c event = []) (hrequest : ∀ p ∈ w.request cfg event, p.1 ≠ c) :
    log.next cfg c w event = log := by
  unfold Log.next
  rw [if_neg hevent, harrived]
  cases hp : w.request cfg event with
  | none => simp
  | some p => simp [Option.filter, hrequest p hp]

theorem next_of_mem {c : Nat} {log : Log} (hc : c ∈ w.socks) (harrived : w.arrived cfg c event = [])
    (hrequest : w.request cfg event = none) : log.next cfg c w event = log := by
  refine next_eq_self (fun hconnect => hconnect.2 hc) harrived ?_
  intro p hp
  rw [hrequest] at hp
  cases hp

theorem next_of_conn_ne {c : Nat} (hne : event.conn ≠ c) (log : Log) :
    log.next cfg c w event = log := by
  refine next_eq_self ?_ ?_ ?_
  · rintro ⟨rfl, -⟩
    exact hne rfl
  · cases event with
    | receive d bytes answer flush => exact if_neg fun h => hne h.1
    | _ => rfl
  · cases event with
    | receive d bytes answer flush =>
      intro p hp
      rw [World.request] at hp
      split at hp
      · obtain ⟨len, -, rfl⟩ := Option.map_eq_some_iff.mp hp
        exact hne
      · cases hp
    | _ =>
      intro p hp
      cases hp

theorem Did.of_conn_ne {c : Nat} (h : Did cfg w event w') (hne : event.conn ≠ c)
    (hc : c ∈ w'.socks) : c ∈ w.socks ∧ w'.sock c = w.sock c := by
  have hset : ∀ {d : Nat} (g' : Cache) (s' : HttpSock), d ≠ c →
      (w.set d g' s').sock c = w.sock c := fun g' s' hd => set_sock_of_ne w g' s' hd.symm
  cases h with
  | same => exact ⟨hc, rfl⟩
  | connect hd =>
    exact ⟨(List.mem_cons.mp hc).resolve_left (fun h => hne h.symm),
      Function.update_of_ne (fun h => hne h.symm) _ _⟩
  | receive => exact ⟨hc, hset _ _ hne⟩
  | cacheRead => exact ⟨hc, hset _ _ hne⟩
  | fileRead => exact ⟨hc, hset _ _ hne⟩
  | write => exact ⟨hc, hset _ _ hne⟩
  | disconnect => exact ⟨List.mem_of_mem_erase hc, rfl⟩
  | change => exact ⟨hc, hset _ _ hne⟩

end Serveez.Transfer
