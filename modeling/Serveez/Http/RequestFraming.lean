import Serveez.Http.RequestLine
import Serveez.Http.Responses

/-!
# Requests and responses on a connection that is kept alive

* `requests_framed`: the requests handled are those in the stream of bytes, in order and each once,
  whatever the reads it came in, and every one comes after the response before it.

This needs a client that waits for a response before it completes the next request. A second
request in the same read is left in the receive buffer until more bytes come, `http_send_file`
throws away what is in the receive buffer, and a request is handled while the response before it
is being sent.
-/

namespace Serveez.Transfer

open Cache Lib World
open Http.RequestLine (Outcome)

variable {cfg : HttpConfig} {w w' : World} {c : Nat} {g g' : Cache} {s s' : HttpSock}
  {event : Event}

/-! ## The receive buffer -/

/-- What the callbacks that do not read from the client leave alone. -/
structure Retains (s s' : HttpSock) : Prop where
  recvBuffer : s'.recvBuffer = s.recvBuffer ∨ s.flagSendfile = true ∧ s'.recvBuffer = []
  flagSendfile : s'.flagSendfile = true → s.flagSendfile = true

theorem Retains.refl (s : HttpSock) : Retains s s := ⟨Or.inl rfl, id⟩

variable {died : Bool} {r : SendResult} {log : Log}

theorem httpKeepAlive_retains (h : httpKeepAlive g s = some (g', s', died)) :
    s'.recvBuffer = s.recvBuffer ∧ (s'.flagSendfile = true → s.flagSendfile = true) := by
  rcases httpKeepAlive_eq h with ⟨-, rfl⟩ | ⟨-, -, rfl⟩
  · exact ⟨rfl, fun hsend => absurd hsend Bool.false_ne_true⟩
  · exact ⟨rfl, id⟩

theorem httpDefaultWrite_retains (h : httpDefaultWrite cfg g s r = some (g', s', died)) :
    Retains s s' := by
  have hswitch : ∀ s : HttpSock, (switchWriter cfg s).recvBuffer = s.recvBuffer ∧
      (switchWriter cfg s).flagSendfile = s.flagSendfile := by
    intro s
    unfold switchWriter
    split
    · exact ⟨rfl, rfl⟩
    split
    · exact ⟨rfl, rfl⟩
    split
    · exact ⟨rfl, rfl⟩
    · exact ⟨rfl, rfl⟩
  unfold httpDefaultWrite at h
  simp only [Option.map_eq_some_iff, Prod.mk.injEq] at h
  obtain ⟨⟨g₁, s₁, died₁⟩, hcheck, -, rfl, -⟩ := h
  obtain ⟨hrecv, hflag⟩ := hswitch s₁
  unfold checkDone at hcheck
  split at hcheck
  · obtain ⟨hrecv₁, hflag₁⟩ := httpKeepAlive_retains hcheck
    exact ⟨Or.inl (hrecv.trans hrecv₁), fun hset => hflag₁ (hflag.symm.trans hset)⟩
  · cases hcheck
    exact ⟨Or.inl hrecv, fun hset => hflag.symm.trans hset⟩

theorem httpCacheWrite_retains (h : httpCacheWrite g s r = some (g', s', died)) : Retains s s' := by
  unfold httpCacheWrite at h
  simp only [Option.bind_eq_bind, Option.bind_eq_some_iff] at h
  obtain ⟨k, -, a, -, bytes, -, h⟩ := h
  split at h
  · obtain ⟨hrecv, hflag⟩ := httpKeepAlive_retains h
    exact ⟨Or.inl hrecv, hflag⟩
  · cases h
    exact ⟨Or.inl rfl, id⟩

theorem httpSendFile_retains (hflag : s.flagSendfile = true)
    (h : httpSendFile g s r = some (g', s', died)) : Retains s s' := by
  refine ⟨?_, fun _ => hflag⟩
  unfold httpSendFile at h
  split at h
  · simp only at h
    split at h
    · cases h
      exact Or.inl rfl
    split at h
    · exact Or.inr ⟨hflag, (httpKeepAlive_retains h).1⟩
    · cases h
      exact Or.inl rfl
  · cases h
    exact Or.inl rfl

theorem writeSocket_retains (hmode : s.Mode) (h : writeSocket cfg g s r = some (g', s', died)) :
    Retains s s' := by
  unfold writeSocket at h
  split at h
  · exact httpDefaultWrite_retains h
  · exact httpCacheWrite_retains h
  · next hwrite => exact httpSendFile_retains (hmode.sendFile hwrite) h

theorem httpCacheRead_retains {r : ReadResult} (h : httpCacheRead cfg g s r = some (g', s', died)) :
    Retains s s' := by
  unfold httpCacheRead at h
  simp only at h
  split at h
  · cases h
    exact .refl s
  simp only [Option.bind_eq_bind, Option.bind_eq_some_iff] at h
  obtain ⟨k, -, h⟩ := h
  split at h
  · split at h
    · simp only [cacheReadEnd, Option.map_eq_some_iff] at h
      obtain ⟨g₁, -, h⟩ := h
      split at h
      · cases h
        exact ⟨Or.inl rfl, id⟩
      · cases h
        exact ⟨Or.inl rfl, id⟩
    · simp only [cacheReadData, Option.bind_eq_bind, Option.bind_eq_some_iff] at h
      obtain ⟨⟨g₁, p⟩, -, h⟩ := h
      simp only at h
      split at h
      · simp only [Option.map_eq_some_iff] at h
        obtain ⟨g₂, -, h⟩ := h
        cases h
        exact ⟨Or.inl rfl, id⟩
      · cases h
        exact ⟨Or.inl rfl, id⟩
  · unfold cacheReadError at h
    split at h
    · simp only [Option.map_eq_some_iff] at h
      obtain ⟨g₁, -, h⟩ := h
      cases h
      exact ⟨Or.inl rfl, id⟩
    · cases h
      exact .refl s

theorem httpFileRead_retains {r : ReadResult} (h : httpFileRead cfg g s r = some (g', s', died)) :
    Retains s s' := by
  unfold httpFileRead at h
  simp only at h
  split at h
  · cases h
    exact .refl s
  split at h
  · split at h
    · cases h
      exact .refl s
    split at h
    · cases h
      exact ⟨Or.inl rfl, id⟩
    · cases h
      exact ⟨Or.inl rfl, id⟩
  · cases h
    exact .refl s

/-- A request leaves the receive buffer alone; `sendfile` is used for a file that bypasses the
cache. -/
theorem Answered.retains {flushed : Prop} {answer : Answer} (hidle : s.Idle)
    (h : Answered cfg g s flushed answer g' s' died) :
    s'.recvBuffer = s.recvBuffer ∧ (s'.flagSendfile = true → cfg.sendfile = true ∧
      ∃ req, answer = .get req ∧ req.transfers = true ∧ g.bypassed cfg req = true) := by
  have hnot : s.flagSendfile ≠ true := by
    rw [hidle.flagSendfile]
    exact Bool.noConfusion
  cases h with
  | text => exact ⟨rfl, fun hflag => absurd hflag hnot⟩
  | @file req _ _ _ _ _ _ htransfers _ _ hstarted =>
    cases hstarted with
    | hit => exact ⟨rfl, fun hflag => absurd hflag hnot⟩
    | fill => exact ⟨rfl, fun hflag => absurd hflag hnot⟩
    | bypass hbypassed =>
      unfold uncached
      split
      · next hsendfile => exact ⟨rfl, fun _ => ⟨hsendfile, req, rfl, htransfers, hbypassed⟩⟩
      · exact ⟨rfl, fun hflag => absurd hflag hnot⟩
  | malformed => exact ⟨rfl, fun hflag => absurd hflag hnot⟩

/-! ## Framing -/

/-- The requests handled are the complete requests in what has come from the client, and the rest
waits in the receive buffer; there is nothing there while `sendfile` is used. -/
structure Framed (log : Log) (s : HttpSock) : Prop where
  frames : ∃ rest, IsFrames requestLength log.received (log.handled.map Prod.fst) rest ∧
    (s.killed = false → s.recvBuffer = rest)
  sendfile : s.flagSendfile = true → s.recvBuffer = []

theorem Framed.retains (h : Framed log s) (hkeep : Retains s s') (hkilled : s.killed = false)
    (died : Bool) : Framed log { s' with killed := died } := by
  have hrecv : s'.recvBuffer = s.recvBuffer := by
    rcases hkeep.recvBuffer with hsame | ⟨hflag, hnil⟩
    · exact hsame
    · rw [hnil, h.sendfile hflag]
  obtain ⟨rest, hframes, hrest⟩ := h.frames
  refine ⟨⟨rest, hframes, fun _ => hrecv.trans (hrest hkilled)⟩, ?_⟩
  intro hflag
  exact hrecv.trans (h.sendfile (hkeep.flagSendfile hflag))

theorem requestLength_eq_none_iff {l : List UInt8} :
    (∀ n, requestLength l = some n → l.length < n) ↔ requestLength l = none := by
  constructor
  · intro h
    cases hlen : requestLength l with
    | none => rfl
    | some n => exact absurd (requestLength_le hlen) (Nat.not_le_of_lt (h n hlen))
  · intro h n hn
    rw [h] at hn
    cases hn

/-- The bytes behind the request that an event completes. -/
def World.behind (cfg : HttpConfig) (w : World) : Event → List UInt8
  | .receive c bytes _ _ => ((w.sock c).received cfg bytes).drop
      ((requestLength ((w.sock c).received cfg bytes)).getD 0)
  | _ => []

/-- A request is completed only between two responses, with no further request in the same read,
and with nothing behind it if the file is sent with `sendfile`. -/
structure World.Paced (cfg : HttpConfig) (w : World) (event : Event) : Prop where
  careful : w.Careful cfg event
  idle : ∀ p ∈ w.request cfg event, (w.sock p.1).Idle
  single : ∀ _ ∈ w.request cfg event, requestLength (w.behind cfg event) = none
  clear : ∀ p ∈ w.transfer cfg event, cfg.sendfile = true → w.cache.bypassed cfg p.2 = true →
    w.behind cfg event = []

instance (cfg : HttpConfig) (w : World) (event : Event) : Decidable (w.Paced cfg event) :=
  decidable_of_iff (w.Careful cfg event ∧ (∀ p ∈ w.request cfg event, (w.sock p.1).Idle) ∧
      (∀ _ ∈ w.request cfg event, requestLength (w.behind cfg event) = none) ∧
      ∀ p ∈ w.transfer cfg event, cfg.sendfile = true → w.cache.bypassed cfg p.2 = true →
        w.behind cfg event = [])
    ⟨fun h => ⟨h.1, h.2.1, h.2.2.1, h.2.2.2⟩,
      fun h => ⟨h.careful, h.idle, h.single, h.clear⟩⟩

theorem receive_framed {bytes : List UInt8} {answer : Answer} {flush : Flush}
    (h : Framed log (w.sock c)) (hmode : (w.sock c).Mode)
    (hpaced : w.Paced cfg (.receive c bytes answer flush)) (hactive : w.active c = true)
    (hread : (w.sock c).readSocket = .svzTcpReadSocket)
    (hr : svzTcpReadSocket cfg w.cache (w.sock c) bytes answer flush = some (g', s', died)) :
    Framed (log.next cfg c w (.receive c bytes answer flush)) { s' with killed := died } := by
  obtain ⟨hc, hkilled⟩ := active_iff.mp hactive
  obtain ⟨rest, hframes, hrest⟩ := h.frames
  have hrest := hrest hkilled
  have hnot : (w.sock c).flagSendfile ≠ true := not_flagSendfile hmode hread
  have hbuffer := received_eq hactive hread cfg bytes answer flush
  rw [hrest] at hbuffer
  cases svzTcpReadSocket_received hactive hread hr with
  | nothing harrived hrequest =>
    have hsame : log.next cfg c w (.receive c bytes answer flush) = log := by
      refine next_eq_self ?_ harrived ?_
      · rintro ⟨hconnect, -⟩
        cases hconnect
      · intro p hp
        rw [hrequest] at hp
        cases hp
    rw [hsame]
    exact ⟨⟨rest, hframes, nofun⟩, fun hflag => absurd hflag hnot⟩
  | part hlen hrequest =>
    have hmore := IsFrames.none (requestLength_eq_none_iff.mpr hlen)
    rw [hbuffer] at hmore
    have happend := hframes.append hmore
    refine ⟨⟨_, ?_, fun _ => hbuffer⟩, fun hflag => absurd hflag hnot⟩
    simpa [Log.next, hrequest] using happend
  | @request len _ s₁ _ hlen hcompletes hrequest hhandle =>
    have hbehind : w.behind cfg (.receive c bytes answer flush) =
        ((w.sock c).received cfg bytes).drop len := by
      rw [World.behind, hlen]
      rfl
    have hframe : requestLength (((w.sock c).received cfg bytes).take len) =
        some (((w.sock c).received cfg bytes).take len).length := by
      rw [List.length_take_of_le (requestLength_le hlen)]
      exact requestLength_take hlen
    have hmore := IsFrames.cons hframe (IsFrames.none (requestLength_eq_none_iff.mpr
      (hbehind ▸ hpaced.single _ hrequest)))
    rw [List.take_append_drop, hbuffer] at hmore
    have happend := hframes.append hmore
    rw [← hbuffer] at happend
    have hidle : HttpSock.Idle { w.sock c with recvBuffer := (w.sock c).received cfg bytes } :=
      (hpaced.idle _ hrequest).of_recvBuffer _
    have hanswered := httpHandleRequest_answered hidle hhandle
    obtain ⟨hrecv, hsendfile⟩ := hanswered.retains hidle
    refine ⟨⟨((w.sock c).received cfg bytes).drop len, ?_, ?_⟩, ?_⟩
    · simpa [Log.next, hrequest, Option.filter] using happend
    · rintro rfl
      change s₁.recvBuffer.drop len = _
      rw [hrecv]
    · cases died with
      | true =>
        cases hanswered
        exact fun hflag => absurd hflag hnot
      | false =>
        intro hflag
        obtain ⟨hcfg, req, rfl, htransfers, hbypassed⟩ := hsendfile hflag
        have hclear := hpaced.clear (c, req) (if_pos ⟨hactive, hread, hcompletes, htransfers⟩)
          hcfg hbypassed
        change s₁.recvBuffer.drop len = []
        rw [hrecv]
        exact hbehind.symm.trans hclear

/-- A callback that does not read from the client. -/
theorem retains_framed (hactive : w.active event.conn = true)
    (harrived : w.arrived cfg event.conn event = []) (hrequest : w.request cfg event = none)
    (hkeep : Retains (w.sock event.conn) s') (h : Framed log (w.sock event.conn)) :
    Framed (log.next cfg event.conn w event)
      ((w.set event.conn g' { s' with killed := died }).sock event.conn) := by
  obtain ⟨hc, hkilled⟩ := active_iff.mp hactive
  rw [set_sock_self, next_of_mem hc harrived hrequest]
  exact h.retains hkeep hkilled died

/-- **A paced step** keeps every connection framed. -/
theorem Did.framed {logs : Nat → Log} (hgood : Good w) (hpaced : w.Paced cfg event)
    (h : ∀ c ∈ w.socks, Framed (logs c) (w.sock c)) (hdid : Did cfg w event w') :
    ∀ c ∈ w'.socks, Framed ((logs c).next cfg c w event) (w'.sock c) := by
  intro c hc
  by_cases hne : event.conn ≠ c
  · obtain ⟨hc₀, hsock⟩ := hdid.of_conn_ne hne hc
    rw [hsock, next_of_conn_ne hne]
    exact h c hc₀
  push Not at hne
  subst hne
  cases hdid with
  | same harrived hrequest hold =>
    rw [next_eq_self (fun hconnect => hconnect.2 (hold _ hconnect.1)) (harrived _)
      (fun p hp => by rw [hrequest] at hp; cases hp)]
    exact h _ hc
  | @connect d hd =>
    have hnext : (logs d).next cfg d w (.connect d) = ⟨[], []⟩ := if_pos ⟨rfl, hd⟩
    change Framed ((logs d).next cfg d w (.connect d)) (Function.update w.sock d _ d)
    rw [hnext, Function.update_self]
    refine ⟨⟨[], .none fun len hlen => ?_, fun _ => rfl⟩, fun hflag => ?_⟩
    · cases hlen
    · cases hflag
  | @receive d bytes answer flush g' s' died hactive hread hr =>
    change Framed _ ((w.set d g' { s' with killed := died }).sock d)
    rw [set_sock_self]
    have hd := (active_iff.mp hactive).1
    exact receive_framed (h d hd) (hgood.mode d hd) hpaced hactive hread hr
  | cacheRead hactive hread hr =>
    exact retains_framed hactive rfl rfl (httpCacheRead_retains hr) (h _ hc)
  | fileRead hactive hread hr =>
    exact retains_framed hactive rfl rfl (httpFileRead_retains hr) (h _ hc)
  | write hactive hbuffer hr =>
    exact retains_framed hactive rfl rfl (writeSocket_retains (hgood.mode _ hc) hr) (h _ hc)
  | @disconnect d g' hd =>
    have hgone : d ∉ w.socks.erase d := hgood.owned.nodup.not_mem_erase
    exact absurd hc hgone
  | @change d content hd =>
    have hframed := h d hd
    have hnext : (logs d).next cfg d w (.change d content) = logs d := next_of_mem hd rfl rfl
    change Framed ((logs d).next cfg d w (.change d content)) ((w.set d _ _).sock d)
    rw [hnext, set_sock_self]
    exact ⟨hframed.frames, hframed.sendfile⟩

/-! ## Runs -/

/-- The requests of a connection are those in the stream of bytes from its client. If the server
answers them by `respond`, and the conditions for the delivery of files hold, the responses follow
from the stream. -/
structure Ordered (cfg : HttpConfig) (entries : Nat) (events : List Event) (log : Log)
    (s : HttpSock) : Prop where
  handled : ∀ frames rest, IsFrames requestLength log.received frames rest →
    log.handled.map Prod.fst = frames ∧ (s.killed = false → s.recvBuffer = rest)
  complete : s.killed = false → requestLength s.recvBuffer = none
  responses : ∀ (respond : List UInt8 → Answer) (frames : List (List UInt8)) rest,
    IsFrames requestLength log.received frames rest →
    (∀ p ∈ log.handled, p.2 = respond p.1) →
    (∃ disk, Meets cfg entries (fun w event => w.Deliverable cfg disk event) events) →
    s.Idle → s.sent = (frames.map fun request => (respond request).response).flatten

theorem Framed.ordered {entries : Nat} {events : List Event} (h : Framed log s)
    (hsent : (∃ disk, Meets cfg entries (fun w event => w.Deliverable cfg disk event) events) →
      s.Idle → s.sent = log.responses) : Ordered cfg entries events log s := by
  obtain ⟨rest₀, hframes₀, hrest₀⟩ := h.frames
  have hhandled : ∀ frames rest, IsFrames requestLength log.received frames rest →
      log.handled.map Prod.fst = frames ∧ rest₀ = rest :=
    fun frames rest hframes => hframes₀.unique isSize_requestLength hframes
  refine ⟨?_, ?_, ?_⟩
  · intro frames rest hframes
    obtain ⟨hfst, rfl⟩ := hhandled frames rest hframes
    exact ⟨hfst, hrest₀⟩
  · intro hkilled
    rw [hrest₀ hkilled]
    exact requestLength_eq_none_iff.mp hframes₀.rest
  · intro respond frames rest hframes hrespond hmeets hidle
    obtain ⟨rfl, -⟩ := hhandled frames rest hframes
    rw [hsent hmeets hidle, Log.responses, List.map_map]
    congr 1
    apply List.map_congr_left
    intro p hp
    change p.2.response = (respond p.1).response
    rw [hrespond p hp]

/-- **Requests one by one.** -/
theorem requests_framed (cfg : HttpConfig) (entries : Nat) (events : List Event)
    (hpaced : Meets cfg entries (fun w event => w.Paced cfg event) events) :
    ∀ pre, pre <+: events → ∃ w, World.run cfg entries pre = some w ∧
      (∀ c ∈ w.socks, Ordered cfg entries events (World.log cfg entries c pre) (w.sock c)) ∧
      ∀ event, pre ++ [event] <+: events → ∀ p ∈ w.request cfg event,
        (w.sock p.1).Idle ∧ (w.sock p.1).pending w.cache = [] := by
  have halways := always_of_history (I := fun pre w => Good w ∧
      ∀ c ∈ w.socks, Framed (World.log cfg entries c pre) (w.sock c))
    ⟨good_start cfg entries, List.forall_mem_nil _⟩ (by
      rintro pre w event hw ⟨hgood, hframed⟩ hC
      obtain ⟨w', hw', hstepped⟩ := step_stepped hgood hC.careful
      have hgood' := (hstepped.keep (I := fun _ => True) hgood trivial
        (refresh_unshared hC.careful) (fun _ _ _ _ _ _ _ _ _ _ _ => trivial)
        (fun _ => trivial) (fun _ _ _ _ _ _ => trivial)).1
      have hframed' := (step_did hw').framed hgood hC hframed
      refine ⟨w', hw', hgood', ?_⟩
      intro c hc
      rw [log_concat event hw]
      exact hframed' c hc) hpaced
  intro pre hpre
  obtain ⟨w, hw, -, hframed⟩ := halways pre hpre
  refine ⟨w, hw, ?_, ?_⟩
  · intro c hc
    refine (hframed c hc).ordered ?_
    rintro ⟨disk, hmeets⟩ hidle
    obtain ⟨w₁, hw₁, hserved, -⟩ := files_delivered cfg entries disk events hmeets pre hpre
    obtain rfl : w = w₁ := Option.some_inj.mp (hw.symm.trans hw₁)
    exact (hserved c hc).ended hidle
  · intro event hevent p hp
    have hidle := (hpaced pre event hevent w hw).idle p hp
    exact ⟨hidle, hidle.pending_eq_nil⟩

theorem requests_framed_fetchTwice :
    Meets smallConfig 2 (fun w event => w.Paced smallConfig event) fetchTwice ∧
    ∀ pre, pre <+: fetchTwice → ∃ w, World.run smallConfig 2 pre = some w ∧
      (∀ c ∈ w.socks,
        Ordered smallConfig 2 fetchTwice (World.log smallConfig 2 c pre) (w.sock c)) ∧
      ∀ event, pre ++ [event] <+: fetchTwice → ∀ p ∈ w.request smallConfig event,
        (w.sock p.1).Idle ∧ (w.sock p.1).pending w.cache = [] :=
  ⟨meets_of_forall (by decide), requests_framed _ _ _ (meets_of_forall (by decide))⟩

/-- What can become of a request when it is answered. -/
def Answer.fits (answer : Answer) : Outcome → Bool
  | .rejected => answer = .malformed
  | .dispatched .get _ simple =>
    match answer with
    | .get req => req.nofile = false ∧ req.simple = simple
    | _ => answer ≠ .malformed
  | .dispatched .head _ simple =>
    match answer with
    | .get req => req.nofile = true ∧ req.simple = simple
    | _ => answer ≠ .malformed
  | _ =>
    match answer with
    | .plain _ => true
    | _ => false

/-- The request that an event completes gets an answer to its own bytes. -/
def World.Answered (cfg : HttpConfig) (w : World) (event : Event) : Prop :=
  ∀ p ∈ w.request cfg event, (Http.RequestLine.httpHandleRequest p.2.1).any p.2.2.fits = true

/-- Two requests for a file arrive in one read. -/
def readTwo : List Event :=
  [.connect 0, .receive 0 (getBytes ++ getBytes) (.get (getFile 1)) flushNothing,
    .readFile 0 (.data 3), .write 0 (.sent 100)]

/-- The first response is written, and the second request is left in the receive buffer. -/
theorem requests_not_always_framed : ¬ ∀ cfg entries events w,
    World.run cfg entries events = some w →
    Meets cfg entries (fun w event => w.Answered cfg event) events →
    ∀ c ∈ w.socks, (w.sock c).killed = false → (w.sock c).Idle →
      requestLength (w.sock c).recvBuffer = none := by
  intro h
  have hanswered : Meets smallConfig 2 (fun w event => w.Answered smallConfig event) readTwo := by
    unfold World.Answered
    exact meets_of_forall (by decide)
  cases hrun : World.run smallConfig 2 readTwo with
  | none =>
    have hsome : (World.run smallConfig 2 readTwo).isSome = true := by decide
    rw [hrun] at hsome
    cases hsome
  | some w =>
    have hwaits : (World.run smallConfig 2 readTwo).all (fun w => 0 ∈ w.socks ∧
        (w.sock 0).killed = false ∧ (w.sock 0).Idle ∧
        requestLength (w.sock 0).recvBuffer ≠ none) = true := by decide
    rw [hrun, Option.all_some, decide_eq_true_iff] at hwaits
    obtain ⟨hc, hkilled, hidle, hne⟩ := hwaits
    exact hne (h smallConfig 2 readTwo w hrun hanswered 0 hc hkilled hidle)

end Serveez.Transfer
