import Serveez.Http.RequestLog

/-!
# How a request is answered

A request that comes between two responses is answered without any of the connection's earlier
state in the way: its text goes into the send buffer, and if a file is to follow the connection is
left in one of the states of `Started`.

* `httpHandleRequest_answered`: what the socket is after a request.
-/

namespace Serveez.Transfer

open Cache Lib World

variable {cfg : HttpConfig} {w : World} {c : Nat} {g g' : Cache} {s s' : HttpSock}
  {req : GetRequest}

/-! ## Files -/

/-- Between two responses. -/
structure HttpSock.Idle (s : HttpSock) : Prop where
  readSocket : s.readSocket = .svzTcpReadSocket
  writeSocket : s.writeSocket = .httpDefaultWrite
  flagCache : s.flagCache = false
  flagDone : s.flagDone = false
  flagSendfile : s.flagSendfile = false
  sendBuffer : s.sendBuffer = []

instance (s : HttpSock) : Decidable s.Idle :=
  decidable_of_iff (s.readSocket = .svzTcpReadSocket ∧ s.writeSocket = .httpDefaultWrite ∧
      s.flagCache = false ∧ s.flagDone = false ∧ s.flagSendfile = false ∧ s.sendBuffer = [])
    ⟨fun h => ⟨h.1, h.2.1, h.2.2.1, h.2.2.2.1, h.2.2.2.2.1, h.2.2.2.2.2⟩,
      fun h => ⟨h.readSocket, h.writeSocket, h.flagCache, h.flagDone, h.flagSendfile, h.sendBuffer⟩⟩

theorem HttpSock.Idle.of_recvBuffer {s : HttpSock} (h : s.Idle) (bytes : List UInt8) :
    HttpSock.Idle { s with recvBuffer := bytes } :=
  ⟨h.readSocket, h.writeSocket, h.flagCache, h.flagDone, h.flagSendfile, h.sendBuffer⟩

/-- The file goes neither from the cache nor into it. -/
def Cache.bypassed (cfg : HttpConfig) (g : Cache) (req : GetRequest) : Bool :=
  match lookup g req with
  | none => false
  | some (g, _, status) => status ≠ .complete &&
      !(status = .no && 0 < req.stSize && req.stSize < cfg.cachesize &&
        (g.httpInitCache req.file).any fun p => p.2.2)

/-- The sockets with which a delivery can begin. -/
inductive Started (cfg : HttpConfig) (g : Cache) (s : HttpSock) (req : GetRequest) :
    Cache → HttpSock → Prop
  | hit {g₁ g' : Cache} {cache : HttpCache} {a : Addr} {e : CacheEntry}
      (hlookup : lookup g req = some (g₁, cache, .complete)) (ha : cache.entry = some a)
      (he : g₁.entry a = some e) (hsame : ¬ (req.mtime > e.date ∨ req.stSize ≠ e.size))
      (hblock : g'.block = g₁.block) :
      Started cfg g s req g' { s with
        cache := some cache, flagCache := true
        sendBuffer := if req.simple then stale else s.sendBuffer
        writeSocket := if req.simple then .httpCacheWrite else s.writeSocket }
  | fill {g' : Cache} {cache : HttpCache} (hwhole : req.delivery = .whole) :
      Started cfg g s req g' { s with
        cache := some cache, fileDesc := some ⟨req.content, req.start⟩
        filelength := toInt req.stSize
        readSocket := .httpCacheRead, disconnectedSocket := .httpCacheDisconnect }
  | bypass {g' : Cache} {cache : HttpCache} (hbypassed : g.bypassed cfg req = true) :
      Started cfg g s req g' (uncached cfg { s with
        fileDesc := some ⟨req.content, req.start⟩, filelength := toInt req.stSize
        cache := some cache })

theorem delivery_of_lookup {cache : HttpCache} {status : CacheStatus}
    (h : lookup g req = some (g', cache, status)) (hstatus : status ≠ .inhibit) :
    req.delivery = .whole := by
  by_contra hpart
  rw [lookup, if_neg hpart] at h
  simp only [Option.some_inj, Prod.mk.injEq] at h
  exact hstatus h.2.2.symm

theorem fromCache_started {g₁ : Cache} {cache : HttpCache}
    (hlookup : lookup g req = some (g₁, cache, .complete))
    (h : fromCache g₁ s req cache = some (g', s')) : Started cfg g s req g' s' := by
  unfold fromCache at h
  simp only [Option.bind_eq_bind, Option.bind_eq_some_iff] at h
  obtain ⟨a, ha, e, he, h⟩ := h
  by_cases hchanged : req.mtime > e.date ∨ req.stSize ≠ e.size
  · rw [if_pos hchanged] at h
    simp only [Option.bind_eq_some_iff] at h
    obtain ⟨⟨g₂, cache₂⟩, -, g₃, -, h⟩ := h
    cases h
    exact .fill (delivery_of_lookup hlookup nofun)
  · rw [if_neg hchanged] at h
    simp only [Option.bind_eq_some_iff] at h
    obtain ⟨g₂, hmodify, h⟩ := h
    have hblock : g₂.block = g₁.block := by
      rw [Cache.modify, he, Option.map_some, Option.some_inj] at hmodify
      rw [← hmodify]
    have hstart : Started cfg g s req g₂ _ := .hit hlookup ha he hchanged hblock
    cases hsimple : req.simple with
    | true =>
      rw [hsimple] at h hstart
      cases h
      exact hstart
    | false =>
      rw [hsimple] at h hstart
      cases h
      exact hstart

theorem fromDisk_started {g₁ : Cache} {cache : HttpCache} {status : CacheStatus}
    (hlookup : lookup g req = some (g₁, cache, status)) (hstatus : status ≠ .complete)
    (h : fromDisk cfg g₁ s req cache status = some (g', s')) : Started cfg g s req g' s' := by
  have hbypassed : ¬ (status = .no ∧ 0 < req.stSize ∧ req.stSize < cfg.cachesize ∧
      (g₁.httpInitCache req.file).any (fun p => p.2.2) = true) → g.bypassed cfg req = true := by
    intro hnot
    rw [Cache.bypassed, hlookup]
    simp only [ne_eq, hstatus, not_false_eq_true, decide_true, Bool.true_and, Bool.not_eq_true',
      ← Bool.not_eq_true, Bool.and_eq_true, decide_eq_true_eq]
    tauto
  unfold fromDisk at h
  by_cases hcase : status = .no ∧ 0 < req.stSize ∧ req.stSize < cfg.cachesize
  · rw [if_pos hcase, Option.bind_eq_bind, Option.bind_eq_some_iff] at h
    obtain ⟨⟨g₂, cache₂, free⟩, hinit, h⟩ := h
    cases free with
    | true =>
      simp only [if_true, Option.bind_eq_bind, Option.bind_eq_some_iff] at h
      obtain ⟨a, -, g₃, -, h⟩ := h
      cases h
      exact .fill (delivery_of_lookup hlookup (by rw [hcase.1]; exact CacheStatus.noConfusion))
    | false =>
      have hfull : ¬ (g₁.httpInitCache req.file).any (fun p => p.2.2) = true := by
        rw [hinit]
        exact Bool.noConfusion
      cases h
      exact .bypass (hbypassed fun hall => hfull hall.2.2.2)
  · rw [if_neg hcase] at h
    cases h
    exact .bypass (hbypassed fun hall => hcase ⟨hall.1, hall.2.1, hall.2.2.1⟩)

theorem startTransfer_started (h : startTransfer cfg g s req = some (g', s')) :
    Started cfg g s req g' s' := by
  unfold startTransfer at h
  simp only [Option.bind_eq_bind, Option.bind_eq_some_iff] at h
  obtain ⟨⟨g₁, cache, status⟩, hlookup, h⟩ := h
  by_cases hstatus : status = .complete
  · subst hstatus
    rw [if_pos rfl] at h
    exact fromCache_started hlookup h
  · rw [if_neg hstatus] at h
    exact fromDisk_started hlookup hstatus h

/-! ## Texts -/

/-- Nothing but texts is being sent. -/
structure HttpSock.Open (s : HttpSock) : Prop where
  writeSocket : s.writeSocket = .httpDefaultWrite
  flagCache : s.flagCache = false
  flagDone : s.flagDone = false
  flagSendfile : s.flagSendfile = false

theorem HttpSock.Idle.open (h : s.Idle) : s.Open :=
  ⟨h.writeSocket, h.flagCache, h.flagDone, h.flagSendfile⟩

/-- The socket after some of its texts have been put into the send buffer and sent. -/
def HttpSock.put (s : HttpSock) (sent buffer : List UInt8) : HttpSock :=
  { s with sent := sent, sendBuffer := buffer }

theorem httpDefaultWrite_open (cfg : HttpConfig) (g : Cache) (h : s.Open) (r : SendResult) :
    httpDefaultWrite cfg g s r = some (g, s.put (s.sent ++ s.sendBuffer.take
      (r.count s.sendBuffer.length)) (s.sendBuffer.drop (r.count s.sendBuffer.length)),
      decide (r = .error)) := by
  have hswitch : ∀ s₁ : HttpSock, s₁.flagCache = false → s₁.flagSendfile = false →
      switchWriter cfg s₁ = s₁ := by
    intro s₁ hcache hsendfile
    unfold switchWriter
    rw [hcache, hsendfile]
    simp only [Bool.false_eq_true, and_false, if_false, ite_self]
  let s₁ : HttpSock := s.put (s.sent ++ s.sendBuffer.take (r.count s.sendBuffer.length))
    (s.sendBuffer.drop (r.count s.sendBuffer.length))
  have hundone : s₁.flagDone = false := h.flagDone
  have hcheck : checkDone g s₁ (decide (r = .error)) = some (g, s₁, decide (r = .error)) := by
    apply if_neg
    rintro ⟨hdone, -⟩
    exact absurd (hundone.symm.trans hdone) nofun
  change (checkDone g s₁ (decide (r = .error))).map _ = _
  rw [hcheck, Option.map_some, hswitch s₁ h.flagCache h.flagSendfile]

theorem svzSockWrite_open (cfg : HttpConfig) (g : Cache) (h : s.Open) (bytes : List UInt8)
    (flush : SendResult) :
    ∃ t b, svzSockWrite cfg g s bytes flush =
        some (g, s.put t b, decide (s.sendBuffer ≠ [] ∧ bytes ≠ [] ∧ flush = .error)) ∧
      (s.sendBuffer ≠ [] ∨ bytes ≠ [] → b ≠ []) ∧
      (s.sendBuffer = [] ∨ bytes = [] ∨ flush ≠ .error →
        t ++ b = s.sent ++ s.sendBuffer ++ bytes) := by
  unfold svzSockWrite
  by_cases hbytes : bytes = []
  · refine ⟨s.sent, s.sendBuffer, ?_, ?_, ?_⟩
    · simp [hbytes, HttpSock.put]
    · simp [hbytes]
    · simp [hbytes]
  by_cases hbuffer : s.sendBuffer = []
  · refine ⟨s.sent, bytes, ?_, ?_, ?_⟩
    · simp [hbytes, hbuffer, HttpSock.put]
    · exact fun _ => hbytes
    · simp [hbuffer]
  · rw [if_neg hbytes, if_neg hbuffer, writeSocket, h.writeSocket]
    simp only [httpDefaultWrite_open cfg g h, Option.bind_eq_bind, Option.bind_some]
    by_cases herror : flush = .error
    · subst herror
      refine ⟨s.sent, s.sendBuffer, ?_, fun _ => hbuffer, ?_⟩
      · simp [hbytes, hbuffer, SendResult.count, HttpSock.put]
      · rintro (hnil | hnil | hne)
        · exact absurd hnil hbuffer
        · exact absurd hnil hbytes
        · exact absurd rfl hne
    · refine ⟨s.sent ++ s.sendBuffer.take (flush.count s.sendBuffer.length),
        s.sendBuffer.drop (flush.count s.sendBuffer.length) ++ bytes, ?_, ?_, ?_⟩
      · simp [herror, HttpSock.put]
      · exact fun _ => List.append_ne_nil_of_right_ne_nil _ hbytes
      · intro _
        rw [List.append_assoc s.sent, ← List.append_assoc (List.take _ _), List.take_append_drop,
          ← List.append_assoc]

def HttpHeader.text (header : HttpHeader) : List UInt8 := header.response ++ header.field

theorem HttpHeader.response_ne_nil (header : HttpHeader) : header.response ≠ [] := nofun

/-- The header of a response that nothing is in front of. -/
theorem httpSendHeader_open (cfg : HttpConfig) (g : Cache) (h : s.Open)
    (hempty : s.sendBuffer = []) (header : HttpHeader) (flush : Flush) :
    ∃ t b, httpSendHeader cfg g s header flush = some (g, s.put t b) ∧ b ≠ [] ∧
      (flush.second ≠ .error → t ++ b = s.sent ++ header.text) := by
  obtain ⟨t₁, b₁, hfirst, hne₁, htext₁⟩ :=
    svzSockWrite_open cfg g h header.response flush.first
  have hopen₁ : (s.put t₁ b₁).Open := ⟨h.writeSocket, h.flagCache, h.flagDone, h.flagSendfile⟩
  obtain ⟨t₂, b₂, hsecond, hne₂, htext₂⟩ :=
    svzSockWrite_open cfg g hopen₁ header.field flush.second
  refine ⟨t₂, b₂, ?_, hne₂ (Or.inl (hne₁ (Or.inr header.response_ne_nil))), ?_⟩
  · unfold httpSendHeader
    rw [hfirst]
    simp only [hempty, ne_eq, not_true_eq_false, false_and, decide_false, Option.bind_eq_bind,
      Option.bind_some, Bool.false_eq_true, if_false, hsecond]
    rfl
  · intro hok
    rw [htext₂ (Or.inr (Or.inr hok))]
    change t₁ ++ b₁ ++ header.field = _
    rw [htext₁ (Or.inl hempty), hempty, List.append_nil, List.append_assoc]
    rfl

theorem httpErrorResponse_open (cfg : HttpConfig) (g : Cache) (h : s.Open)
    (hempty : s.sendBuffer = []) (header : HttpHeader) (flush : Flush) :
    ∃ t b, httpErrorResponse cfg g s header flush =
        some (g, { s.put t b with flagDone := true }) ∧
      (flush.second ≠ .error → t ++ b = s.sent ++ header.text) := by
  obtain ⟨t₁, b₁, hfirst, hne₁, htext₁⟩ :=
    svzSockWrite_open cfg g h header.response flush.first
  have hopen₁ : (s.put t₁ b₁).Open := ⟨h.writeSocket, h.flagCache, h.flagDone, h.flagSendfile⟩
  obtain ⟨t₂, b₂, hsecond, -, htext₂⟩ :=
    svzSockWrite_open cfg g hopen₁ header.field flush.second
  refine ⟨t₂, b₂, ?_, ?_⟩
  · unfold httpErrorResponse
    rw [hfirst]
    simp only [Option.bind_eq_bind, Option.bind_some, hsecond]
    rfl
  · intro hok
    rw [htext₂ (Or.inr (Or.inr hok))]
    change t₁ ++ b₁ ++ header.field = _
    rw [htext₁ (Or.inl hempty), hempty, List.append_nil, List.append_assoc]
    rfl

/-! ## Requests -/

/-- The text of the response to a request for a file. -/
def GetRequest.text (req : GetRequest) : List UInt8 :=
  if !req.notModified && req.delivery ≠ .invalid && req.simple then [] else req.header.text

/-- The part of the file that is asked for. -/
def GetRequest.slice (req : GetRequest) : List UInt8 :=
  (req.content.drop req.start).take req.stSize.toNat

/-- What a request is to be answered with. -/
def Answer.response : Answer → List UInt8
  | .get req => req.text ++ if req.transfers then req.slice else []
  | .plain header => header.text
  | .listing dir => dir
  | .malformed => []

/-- The socket after a request; `flushed` tells that its texts could be written. -/
inductive Answered (cfg : HttpConfig) (g : Cache) (s : HttpSock) (flushed : Prop) :
    Answer → Cache → HttpSock → Bool → Prop
  | text {answer : Answer} {g' : Cache} (n : Nat) (keep : Bool) {t b : List UInt8}
      (htext : flushed → t ++ b = s.sent ++ answer.response) :
      Answered cfg g s flushed answer g'
        { s.put t b with keepalive := n, flagKeep := keep, flagDone := true } false
  | file {req : GetRequest} {n : Nat} {keep : Bool} {t b : List UInt8} {g' : Cache} {s' : HttpSock}
      (htransfers : req.transfers = true) (htext : flushed → t ++ b = s.sent ++ req.text)
      (hbuffer : b = [] ↔ req.simple = true)
      (hstarted : Started cfg g { s.put t b with keepalive := n, flagKeep := keep } req g' s') :
      Answered cfg g s flushed (.get req) g' s' false
  | malformed {g' : Cache} : Answered cfg g s flushed .malformed g' s true

theorem sendHeader_open (cfg : HttpConfig) (g : Cache) (h : s.Idle) (req : GetRequest)
    (flush : Flush) (flag : Bool) :
    ∃ n keep t b, sendHeader cfg g { s with flagKeep := flag } req flush =
        some (g, { s.put t b with keepalive := n, flagKeep := keep }) ∧
      (b = [] ↔ req.simple = true) ∧
      (flush.second ≠ .error →
        t ++ b = s.sent ++ if req.simple then [] else req.header.text) := by
  unfold sendHeader
  cases hsimple : req.simple with
  | true =>
    refine ⟨s.keepalive, flag, s.sent, [], ?_, iff_of_true rfl rfl, ?_⟩
    · rw [if_pos rfl, ← h.sendBuffer]
      rfl
    · exact fun _ => rfl
  | false =>
    obtain ⟨n, keep, hcheck⟩ := httpCheckKeepalive_eq { s with flagKeep := flag }
    obtain ⟨t, b, hheader, hne, htext⟩ := httpSendHeader_open cfg g
      (s := { s with keepalive := n, flagKeep := keep })
      ⟨h.writeSocket, h.flagCache, h.flagDone, h.flagSendfile⟩ h.sendBuffer req.header flush
    refine ⟨n, keep, t, b, ?_, iff_of_false hne Bool.noConfusion, htext⟩
    rw [if_neg Bool.noConfusion, hcheck]
    exact hheader

theorem httpGetResponse_answered (h : s.Idle) (flush : Flush)
    (hresponse : httpGetResponse cfg g s req flush = some (g', s')) :
    Answered cfg g s (flush.second ≠ .error) (.get req) g' s' false := by
  unfold httpGetResponse at hresponse
  simp only at hresponse
  obtain ⟨n, keep, hcheck⟩ :=
    httpCheckKeepalive_eq { s with flagKeep := s.flagKeep || req.keepAlive }
  have hopen : ∀ n keep, ({ s with keepalive := n, flagKeep := keep } : HttpSock).Open :=
    fun n keep => ⟨h.writeSocket, h.flagCache, h.flagDone, h.flagSendfile⟩
  by_cases hmodified : req.notModified = true
  · rw [if_pos hmodified, hcheck] at hresponse
    obtain ⟨t, b, hheader, -, htext⟩ :=
      httpSendHeader_open cfg g (hopen n keep) h.sendBuffer req.header flush
    have hheader' : httpSendHeader cfg g { s with keepalive := n, flagKeep := keep } req.header
      flush = _ := hheader
    rw [hheader', Option.map_some, Option.some_inj, Prod.mk.injEq] at hresponse
    obtain ⟨-, rfl⟩ := hresponse
    refine .text (t := t) (b := b) _ _ ?_
    intro hok
    rw [htext hok]
    simp [Answer.response, GetRequest.text, GetRequest.transfers, hmodified]
  rw [if_neg hmodified] at hresponse
  by_cases hinvalid : req.delivery = .invalid
  · rw [if_pos hinvalid] at hresponse
    obtain ⟨t, b, herror, htext⟩ := httpErrorResponse_open cfg g
      (hopen s.keepalive (s.flagKeep || req.keepAlive)) h.sendBuffer req.header flush
    have herror' : httpErrorResponse cfg g { s with flagKeep := s.flagKeep || req.keepAlive }
      req.header flush = _ := herror
    rw [herror', Option.some_inj, Prod.mk.injEq] at hresponse
    obtain ⟨-, rfl⟩ := hresponse
    refine .text (t := t) (b := b) _ _ ?_
    intro hok
    rw [htext hok]
    simp [Answer.response, GetRequest.text, GetRequest.transfers, hinvalid]
  rw [if_neg hinvalid] at hresponse
  obtain ⟨n, keep, t, b, hheader, hne, htext⟩ :=
    sendHeader_open cfg g h req flush (s.flagKeep || req.keepAlive)
  have hreq : req.text = if req.simple then [] else req.header.text := by
    simp [GetRequest.text, hmodified, hinvalid]
  rw [hheader, Option.bind_eq_bind, Option.bind_some] at hresponse
  cases hfile : req.nofile with
  | true =>
    rw [hfile, if_pos rfl, Option.some_inj, Prod.mk.injEq] at hresponse
    obtain ⟨-, rfl⟩ := hresponse
    refine .text (t := t) (b := b) _ _ ?_
    intro hok
    rw [htext hok]
    simp [Answer.response, hreq, GetRequest.transfers, hfile]
  | false =>
    rw [hfile, if_neg Bool.noConfusion] at hresponse
    refine .file ?_ (fun hok => hreq ▸ htext hok) hne (startTransfer_started hresponse)
    simp [GetRequest.transfers, hmodified, hinvalid, hfile]

/-- **A request between two responses.** -/
theorem httpHandleRequest_answered (h : s.Idle) {answer : Answer} {flush : Flush} {died : Bool}
    (hhandle : httpHandleRequest cfg g s answer flush = some (g', s', died)) :
    Answered cfg g s (flush.second ≠ .error) answer g' s' died := by
  cases answer with
  | get req =>
    simp only [httpHandleRequest, Option.map_eq_some_iff, Prod.mk.injEq] at hhandle
    obtain ⟨⟨g₁, s₁⟩, hresponse, rfl, rfl, rfl⟩ := hhandle
    exact httpGetResponse_answered h flush hresponse
  | plain header =>
    simp only [httpHandleRequest, Option.map_eq_some_iff, Prod.mk.injEq] at hhandle
    obtain ⟨⟨g₁, s₁⟩, hresponse, rfl, rfl, rfl⟩ := hhandle
    obtain ⟨t, b, herror, htext⟩ :=
      httpErrorResponse_open cfg g h.open h.sendBuffer header flush
    rw [herror, Option.some_inj, Prod.mk.injEq] at hresponse
    obtain ⟨-, rfl⟩ := hresponse
    exact .text s.keepalive s.flagKeep htext
  | listing dir =>
    simp only [httpHandleRequest, Option.some_inj, Prod.mk.injEq] at hhandle
    obtain ⟨-, rfl, rfl⟩ := hhandle
    exact .text s.keepalive s.flagKeep (fun _ => rfl)
  | malformed =>
    simp only [httpHandleRequest, Option.some_inj, Prod.mk.injEq] at hhandle
    obtain ⟨-, rfl, rfl⟩ := hhandle
    exact .malformed

end Serveez.Transfer
