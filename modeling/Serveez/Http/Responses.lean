import Serveez.Http.CacheSafety
import Serveez.Http.Delivery

/-!
# The responses of a connection

* `files_delivered`: what is sent to a client is the responses to its requests, in order, each with
  the part of the file that was asked for.

`http_send_file` sends from where `fileoffset` is, which no request sets, `http_file_read` reads on
behind the last byte of a range, and the number of bytes to send is an `int`. A request that comes
before the response to the last one has been sent is answered at once.
-/

namespace Serveez.Transfer

open Cache Lib World

variable {cfg : HttpConfig} {w w' : World} {c d : Nat} {g g' : Cache} {s s' : HttpSock}
  {event : Event} {disk : FileName → Int → List UInt8} {log : Log}

/-- The responses to the requests that have been handled. -/
def Log.responses (log : Log) : List UInt8 := (log.handled.map fun p => p.2.response).flatten

structure Owes (cfg : HttpConfig) (g : Cache) (log : Log) (s : HttpSock) : Prop where
  sent : s.sent ++ s.pending g = log.responses
  stage : s.killed = false → s.Stage cfg
  nonneg : ∀ p ∈ log.handled, ∀ req, p.2 = .get req → req.transfers = true → 0 ≤ req.stSize

/-! ## Conditions -/

/-- The texts of a response are written, a file is not read behind the part that is asked for,
`sendfile` does not find the connection unavailable, and an open file does not change. -/
def World.Undisturbed (cfg : HttpConfig) (w : World) : Event → Prop
  | .receive c bytes answer flush =>
    (w.request cfg (.receive c bytes answer flush)).isSome → flush.second ≠ .error
  | .readFile c (.data n) => (w.sock c).readSocket = .httpFileRead →
    ∀ file ∈ (w.sock c).fileDesc, ((chunk file.content file.pos n
      (cfg.sendBufferSize - (w.sock c).sendBuffer.length)).length : Int) ≤ (w.sock c).filelength
  | .write c r => (w.sock c).writeSocket = .httpSendFile → r ≠ .unavailable
  | .change c content => c ∈ w.socks → ∀ file ∈ (w.sock c).fileDesc, file.content = content
  | _ => True

instance (cfg : HttpConfig) (w : World) : (event : Event) → Decidable (w.Undisturbed cfg event)
  | .receive c bytes answer flush => inferInstanceAs (Decidable
    ((w.request cfg (.receive c bytes answer flush)).isSome → flush.second ≠ .error))
  | .readFile c (.data n) => inferInstanceAs (Decidable
    ((w.sock c).readSocket = .httpFileRead → ∀ file ∈ (w.sock c).fileDesc,
      ((chunk file.content file.pos n
        (cfg.sendBufferSize - (w.sock c).sendBuffer.length)).length : Int) ≤ (w.sock c).filelength))
  | .readFile _ .error => isTrue trivial
  | .write c r => inferInstanceAs (Decidable
    ((w.sock c).writeSocket = .httpSendFile → r ≠ .unavailable))
  | .change c content => inferInstanceAs (Decidable
    (c ∈ w.socks → ∀ file ∈ (w.sock c).fileDesc, file.content = content))
  | .connect _ => isTrue trivial
  | .disconnect _ => isTrue trivial

instance (cfg : HttpConfig) (disk : FileName → Int → List UInt8) (g : Cache) (s : HttpSock)
    (req : GetRequest) : Decidable (req.Deliverable cfg disk g s) :=
  decidable_of_iff (req.content = disk req.file req.mtime ∧
      (∀ a ∈ g.svzHashGet req.file, ∀ e ∈ g.entry a, e.date ≤ req.mtime) ∧
      0 ≤ req.stSize ∧ req.stSize < 2 ^ 31 ∧
      (cfg.sendfile = true → g.bypassed cfg req = true →
        s.fileoffset = req.start ∧ req.simple = false))
    ⟨fun h => ⟨h.1, h.2.1, h.2.2.1, h.2.2.2.1, h.2.2.2.2⟩,
      fun h => ⟨h.onDisk, h.newer, h.nonneg, h.small, h.offset⟩⟩

/-- What the server relies on when it delivers files. -/
structure World.Deliverable (cfg : HttpConfig) (disk : FileName → Int → List UInt8) (w : World)
    (event : Event) : Prop where
  careful : w.Careful cfg event
  idle : ∀ p ∈ w.request cfg event, (w.sock p.1).Idle
  files : ∀ p ∈ w.transfer cfg event, p.2.Deliverable cfg disk w.cache (w.sock p.1)
  undisturbed : w.Undisturbed cfg event

instance (cfg : HttpConfig) (disk : FileName → Int → List UInt8) (w : World) (event : Event) :
    Decidable (w.Deliverable cfg disk event) :=
  decidable_of_iff (w.Careful cfg event ∧ (∀ p ∈ w.request cfg event, (w.sock p.1).Idle) ∧
      (∀ p ∈ w.transfer cfg event, p.2.Deliverable cfg disk w.cache (w.sock p.1)) ∧
      w.Undisturbed cfg event)
    ⟨fun h => ⟨h.1, h.2.1, h.2.2.1, h.2.2.2⟩,
      fun h => ⟨h.careful, h.idle, h.files, h.undisturbed⟩⟩

/-! ## Steps -/

theorem pending_congr (hcontents : s.flagCache = true → ∀ k, s.cache = some k →
    g'.contents k.buffer = g.contents k.buffer) : s.pending g' = s.pending g := by
  have hrest : s.rest g' = s.rest g := by
    unfold HttpSock.rest
    split
    · next hflag =>
      cases hk : s.cache with
      | none => rfl
      | some k =>
        change (g'.contents k.buffer).take k.size = (g.contents k.buffer).take k.size
        rw [hcontents hflag k hk]
    · rfl
  rw [HttpSock.pending, HttpSock.pending, hrest]

/-- The stage does not depend on what has come from the client. -/
theorem HttpSock.Stage.of_recvBuffer (h : s.Stage cfg) (bytes : List UInt8) (died : Bool) :
    HttpSock.Stage cfg { s with recvBuffer := bytes, killed := died } := by
  cases h with
  | idle hidle => exact .idle ⟨hidle.readSocket, hidle.writeSocket, hidle.flagCache,
      hidle.flagDone, hidle.flagSendfile, hidle.sendBuffer⟩
  | done hread hwrite hcache hsendfile hdone => exact .done hread hwrite hcache hsendfile hdone
  | cached hread hwrite hcache hdone hbuffer => exact .cached hread hwrite hcache hdone hbuffer
  | reads hreads => exact .reads ⟨hreads.readSocket, hreads.writeSocket, hreads.flagCache,
      hreads.flagSendfile, hreads.flagDone, hreads.fileDesc, hreads.nonneg, hreads.within,
      hreads.whole⟩
  | sendfile hcfg hread hwrite hcache hsendfile hdone hbuffer hfile hlength hend =>
    exact .sendfile hcfg hread hwrite hcache hsendfile hdone hbuffer hfile hlength hend

/-- A callback that only sends. -/
theorem Owes.delivers {ok : Prop} {died : Bool} (h : Owes cfg g log s)
    (hdelivers : Delivers cfg g s ok g' s' died) : Owes cfg g' log { s' with killed := died } where
  sent := hdelivers.sent.trans h.sent
  stage hkilled := (hdelivers.stage hkilled).of_recvBuffer s'.recvBuffer died
  nonneg := h.nonneg

theorem receive_owes {bytes : List UInt8} {answer : Answer} {flush : Flush} {died : Bool}
    (h : Owes cfg w.cache log (w.sock c)) (hgood : Good w) (hfaithful : Faithful disk w)
    (hdeliverable : w.Deliverable cfg disk (.receive c bytes answer flush))
    (hactive : w.active c = true) (hread : (w.sock c).readSocket = .svzTcpReadSocket)
    (hr : svzTcpReadSocket cfg w.cache (w.sock c) bytes answer flush = some (g', s', died)) :
    Owes cfg g' (log.next cfg c w (.receive c bytes answer flush)) { s' with killed := died } := by
  obtain ⟨hc, hkilled⟩ := active_iff.mp hactive
  have hstage := h.stage hkilled
  cases svzTcpReadSocket_received hactive hread hr with
  | nothing harrived hrequest =>
    rw [next_of_mem hc harrived hrequest]
    exact ⟨h.sent, nofun, h.nonneg⟩
  | part hlen hrequest =>
    have hhandled : (log.next cfg c w (.receive c bytes answer flush)).handled = log.handled := by
      simp [Log.next, hrequest]
    refine ⟨?_, fun _ => hstage.of_recvBuffer _ _, ?_⟩
    · rw [Log.responses, hhandled]
      exact h.sent
    · rw [hhandled]
      exact h.nonneg
  | @request len _ s₁ _ hlen hcompletes hrequest hhandle =>
    obtain ⟨l, hl⟩ : ∃ l, Listed w.cache l := hgood.owned.listed
    let s₀ : HttpSock := { w.sock c with recvBuffer := (w.sock c).received cfg bytes }
    have hidle : s₀.Idle := (hdeliverable.idle _ hrequest).of_recvBuffer _
    have hfiles : ∀ req, answer = .get req → req.transfers = true →
        req.Deliverable cfg disk w.cache s₀ := by
      rintro req rfl htransfers
      have hreq := hdeliverable.files (c, req) (if_pos ⟨hactive, hread, hcompletes, htransfers⟩)
      exact ⟨hreq.onDisk, hreq.newer, hreq.nonneg, hreq.small, hreq.offset⟩
    have hflushed : flush.second ≠ .error := by
      apply hdeliverable.undisturbed
      rw [hrequest]
      rfl
    obtain ⟨hsent, hstage'⟩ := (httpHandleRequest_answered hidle hhandle).delivers hl hidle
      hfaithful.ready hfiles hflushed
    have hbefore : (w.sock c).sent = log.responses := by
      rw [← h.sent, (hdeliverable.idle _ hrequest).pending_eq_nil, List.append_nil]
    have hnext : (log.next cfg c w (.receive c bytes answer flush)).handled =
        log.handled ++ [(((w.sock c).received cfg bytes).take len, answer)] := by
      simp [Log.next, hrequest, Option.filter]
    have hresponses : (log.next cfg c w (.receive c bytes answer flush)).responses =
        s₁.sent ++ s₁.pending g' := by
      rw [hsent, Log.responses, hnext, List.map_append, List.flatten_append]
      change log.responses ++ _ = (w.sock c).sent ++ _
      rw [hbefore]
      simp
    have hnonneg : ∀ p ∈ (log.next cfg c w (.receive c bytes answer flush)).handled, ∀ req,
        p.2 = .get req → req.transfers = true → 0 ≤ req.stSize := by
      rw [hnext]
      intro p hp req hanswer htransfers
      rcases List.mem_append.mp hp with hp | hp
      · exact h.nonneg p hp req hanswer htransfers
      · rw [List.mem_singleton.mp hp] at hanswer
        exact (hfiles req hanswer htransfers).nonneg
    cases died with
    | true => exact ⟨hresponses.symm, nofun, hnonneg⟩
    | false => exact ⟨hresponses.symm, fun _ => (hstage' rfl).of_recvBuffer _ _, hnonneg⟩

/-- A callback that reads a file or writes to the client, and whose system call does not fail. -/
def Event.succeeds : Event → Bool
  | .readFile _ r => r ≠ .error
  | .write _ r => r ≠ .error
  | _ => false

/-- The connection of an event that does not come from the client. -/
theorem Did.delivers (hdeliverable : w.Deliverable cfg disk event)
    (hstage : w.active event.conn = true → (w.sock event.conn).Stage cfg)
    (hquiet : (∃ r, event = .readFile c r) ∨ ∃ r, event = .write c r) (hdid : Did cfg w event w') :
    w' = w ∨ ∃ g' s' died, w.active c = true ∧ w' = w.set c g' { s' with killed := died } ∧
      Delivers cfg w.cache (w.sock c) (event.succeeds = true) g' s' died := by
  have hundisturbed := hdeliverable.undisturbed
  rcases hquiet with ⟨r, rfl⟩ | ⟨r, rfl⟩
  · cases hdid with
    | same => exact Or.inl rfl
    | @cacheRead _ _ g' s' died hactive hread hr =>
      obtain ⟨hsent, hstage', hclosed⟩ := httpCacheRead_delivers (hstage hactive) hread hr
      exact Or.inr ⟨g', s', died, hactive, rfl, hsent, hstage',
        fun hdied hok => hclosed hdied (of_decide_eq_true hok)⟩
    | @fileRead _ _ g' s' died hactive hread hr =>
      obtain ⟨hsent, hstage', hclosed⟩ := httpFileRead_delivers (hstage hactive) hread (by
        rintro n rfl file hfile
        exact hundisturbed hread file hfile) hr
      exact Or.inr ⟨g', s', died, hactive, rfl, hsent, hstage',
        fun hdied hok => hclosed hdied (of_decide_eq_true hok)⟩
  · cases hdid with
    | same => exact Or.inl rfl
    | @write _ _ g' s' died hactive _ hr =>
      obtain ⟨hsent, hstage', hclosed⟩ := writeSocket_delivers (hstage hactive) hr
      exact Or.inr ⟨g', s', died, hactive, rfl, hsent, hstage',
        fun hdied hok => hclosed hdied ⟨of_decide_eq_true hok, hundisturbed⟩⟩

/-- An open file does not change. -/
theorem Did.change_eq {content : List UInt8}
    (hundisturbed : w.Undisturbed cfg (.change c content))
    (hdid : Did cfg w (.change c content) w') : w' = w := by
  cases hdid with
  | same => rfl
  | change hc =>
    have hfile : ({ w.sock c with
        fileDesc := (w.sock c).fileDesc.map fun f => { f with content := content } } : HttpSock) =
        w.sock c := by
      have hcontent : ∀ file ∈ (w.sock c).fileDesc, file.content = content := hundisturbed hc
      cases hfile : (w.sock c).fileDesc with
      | none => rw [Option.map_none, ← hfile]
      | some file => rw [Option.map_some, ← hcontent file hfile, ← hfile]
    rw [hfile, set_self]

/-- **A step** keeps what is owed to every client. -/
theorem Did.owes {logs : Nat → Log} (hgood : Good w) (hfaithful : Faithful disk w)
    (hdeliverable : w.Deliverable cfg disk event)
    (h : ∀ c ∈ w.socks, Owes cfg w.cache (logs c) (w.sock c))
    (hstep : Stepped cfg (w.kinds cfg event) event.conn w w') (hdid : Did cfg w event w') :
    ∀ c ∈ w'.socks, Owes cfg w'.cache ((logs c).next cfg c w event) (w'.sock c) := by
  intro c hc
  by_cases hne : event.conn ≠ c
  · obtain ⟨hc₀, hsock⟩ := hdid.of_conn_ne hne hc
    have hold := h c hc₀
    rw [hsock, next_of_conn_ne hne]
    refine ⟨?_, hold.stage, hold.nonneg⟩
    rw [← hold.sent, pending_congr]
    intro hflag k hk
    exact hstep.contents_eq hgood (refresh_unshared hdeliverable.careful) hc₀ hne.symm hflag hk
  push Not at hne
  subst hne
  have hstage : w.active event.conn = true → (w.sock event.conn).Stage cfg := by
    intro hactive
    obtain ⟨hc₀, hkilled⟩ := active_iff.mp hactive
    exact (h _ hc₀).stage hkilled
  have hsame : w' = w → event.conn ∈ w.socks → w.arrived cfg event.conn event = [] →
      w.request cfg event = none → Owes cfg w'.cache ((logs event.conn).next cfg event.conn w event)
        (w'.sock event.conn) := by
    rintro rfl hc₀ harrived hrequest
    rw [next_of_mem hc₀ harrived hrequest]
    exact h _ hc₀
  -- a callback that does not read from the client
  have hquiet : w.arrived cfg event.conn event = [] → w.request cfg event = none →
      ((∃ r, event = .readFile event.conn r) ∨ ∃ r, event = .write event.conn r) →
      Owes cfg w'.cache ((logs event.conn).next cfg event.conn w event)
        (w'.sock event.conn) := by
    intro harrived hrequest hevent
    rcases hdid.delivers hdeliverable hstage hevent with hw |
        ⟨g', s', died, hactive, rfl, hdelivers⟩
    · exact hsame hw (hw ▸ hc) harrived hrequest
    · have hc₀ := (active_iff.mp hactive).1
      rw [next_of_mem hc₀ harrived hrequest, set_sock_self]
      exact (h _ hc₀).delivers hdelivers
  cases event with
  | connect d =>
    cases hdid with
    | same harrived hrequest hold => exact hsame rfl hc (harrived _) hrequest
    | connect hd =>
      have hnext : (logs d).next cfg d w (.connect d) = ⟨[], []⟩ := if_pos ⟨rfl, hd⟩
      change Owes cfg w.cache ((logs d).next cfg d w (.connect d)) (Function.update w.sock d _ d)
      rw [hnext, Function.update_self]
      have hidle : (httpConnectSocket cfg).Idle := ⟨rfl, rfl, rfl, rfl, rfl, rfl⟩
      refine ⟨?_, fun _ => .idle hidle, List.forall_mem_nil _⟩
      rw [hidle.pending_eq_nil]
      rfl
  | receive d bytes answer flush =>
    cases hdid with
    | same harrived hrequest hold => exact hsame rfl hc (harrived _) hrequest
    | receive hactive hread hr =>
      change Owes cfg _ _ ((w.set d _ _).sock d)
      rw [set_sock_self]
      exact receive_owes (h d (active_iff.mp hactive).1) hgood hfaithful hdeliverable hactive
        hread hr
  | readFile d r => exact hquiet rfl rfl (Or.inl ⟨r, rfl⟩)
  | write d r => exact hquiet rfl rfl (Or.inr ⟨r, rfl⟩)
  | disconnect d =>
    cases hdid with
    | same harrived hrequest hold => exact hsame rfl hc (harrived _) hrequest
    | disconnect hd =>
      have hgone : d ∉ w.socks.erase d := hgood.owned.nodup.not_mem_erase
      exact absurd hc hgone
  | change d content =>
    obtain rfl := hdid.change_eq hdeliverable.undisturbed
    exact hsame rfl hc rfl rfl

/-- A connection that is closed by a callback whose system call has not failed has sent
everything. -/
theorem Did.closed (hgood : Good w) (hdeliverable : w.Deliverable cfg disk event)
    (hstage : w.active event.conn = true → (w.sock event.conn).Stage cfg)
    (hdid : Did cfg w event w') (hsucceeds : event.succeeds = true)
    (hactive : w.active event.conn = true) (hkilled : (w'.sock event.conn).killed = true) :
    (w'.sock event.conn).pending w'.cache = [] := by
  have hquiet : (∃ r, event = .readFile event.conn r) ∨ ∃ r, event = .write event.conn r := by
    cases event with
    | readFile d r => exact Or.inl ⟨r, rfl⟩
    | write d r => exact Or.inr ⟨r, rfl⟩
    | _ => cases hsucceeds
  rcases hdid.delivers hdeliverable hstage hquiet with rfl | ⟨g', s', died, -, rfl, hdelivers⟩
  · exact absurd ((active_iff.mp hactive).2.symm.trans hkilled) nofun
  · rw [set_sock_self] at hkilled ⊢
    exact hdelivers.closed hkilled hsucceeds

theorem World.Deliverable.faithful_step (hC : w.Deliverable cfg disk event) (hgood : Good w)
    (hfaithful : Faithful disk w) (hdid : Did cfg w event w')
    (hstep : Stepped cfg (w.kinds cfg event) event.conn w w') : Good w' ∧ Faithful disk w' := by
  by_cases hchange : ∃ c content, event = .change c content
  · obtain ⟨c, content, rfl⟩ := hchange
    obtain rfl := hdid.change_eq hC.undisturbed
    exact ⟨hgood, hfaithful⟩
  · refine Transfer.faithful_step hgood hfaithful hC.careful ?_ ?_ hstep
    · exact fun c content hevent => hchange ⟨c, content, hevent⟩
    · intro p hp hwhole
      obtain ⟨-, hsize⟩ := GetRequest.stSize_of_whole hwhole
      have hfile := hC.files p hp
      have hsmall := hfile.small
      refine ⟨hfile.onDisk, ?_⟩
      change p.2.content.length < 2 ^ 31
      omega

/-! ## Runs -/

/-- What a client has got and is still to get. -/
structure Served (cfg : HttpConfig) (g : Cache) (log : Log) (s : HttpSock) : Prop where
  sent : s.sent ++ s.pending g = log.responses
  ended : s.Idle → s.sent = log.responses
  moving : s.killed = false → 0 < cfg.sendBufferSize → s.pending g ≠ [] →
    s.sendBuffer ≠ [] ∨ (s.readSocket = .httpCacheRead ∨ s.readSocket = .httpFileRead) ∧
      s.sendBuffer.length < cfg.sendBufferSize
  announced : ∀ p ∈ log.handled, ∀ req, p.2 = .get req → req.transfers = true →
    ∀ n, req.contentLength = some n → (req.slice.length : Int) = n

theorem Owes.served (h : Owes cfg g log s) : Served cfg g log s where
  sent := h.sent
  ended hidle := by
    rw [← h.sent, hidle.pending_eq_nil, List.append_nil]
  moving hkilled hsize hpending := by
    cases h.stage hkilled with
    | idle hidle => exact absurd hidle.pending_eq_nil hpending
    | done hread hwrite hcache hsendfile =>
      refine Or.inl fun hempty => hpending ?_
      rw [pending_default hwrite, hempty, rest_eq_nil hread hcache hsendfile]
      rfl
    | cached _ _ _ _ hbuffer => exact Or.inl hbuffer
    | reads hreads =>
      by_cases hempty : s.sendBuffer = []
      · refine Or.inr ⟨hreads.readSocket, ?_⟩
        rw [hempty]
        exact hsize
      · exact Or.inl hempty
    | sendfile _ _ _ _ _ _ hbuffer => exact Or.inl hbuffer
  announced p hp req hanswer htransfers n hn :=
    GetRequest.contentLength_eq (h.nonneg p hp req hanswer htransfers) hn

/-- **The right bytes on every path.** -/
theorem files_delivered (cfg : HttpConfig) (entries : Nat) (disk : FileName → Int → List UInt8)
    (events : List Event)
    (hdeliverable : Meets cfg entries (fun w event => w.Deliverable cfg disk event) events) :
    ∀ pre, pre <+: events → ∃ w, World.run cfg entries pre = some w ∧
      (∀ c ∈ w.socks, Served cfg w.cache (World.log cfg entries c pre) (w.sock c)) ∧
      ∀ event, pre ++ [event] <+: events → event.succeeds = true → w.active event.conn = true →
        ∀ w', w.step cfg event = some w' → (w'.sock event.conn).killed = true →
          (w'.sock event.conn).pending w'.cache = [] := by
  have halways := always_of_history (I := fun pre w => Good w ∧ Faithful disk w ∧
      ∀ c ∈ w.socks, Owes cfg w.cache (World.log cfg entries c pre) (w.sock c))
    ⟨good_start cfg entries, ⟨fun _ _ hlive => (by cases hlive), List.forall_mem_nil _⟩,
      List.forall_mem_nil _⟩ (by
      rintro pre w event hw ⟨hgood, hfaithful, howes⟩ hC
      obtain ⟨w', hw', hstepped⟩ := step_stepped hgood hC.careful
      have hdid := step_did hw'
      have howes' := hdid.owes hgood hfaithful hC howes hstepped
      obtain ⟨hgood', hfaithful'⟩ := hC.faithful_step hgood hfaithful hdid hstepped
      refine ⟨w', hw', hgood', hfaithful', ?_⟩
      intro c hc
      rw [log_concat event hw]
      exact howes' c hc) hdeliverable
  intro pre hpre
  obtain ⟨w, hw, hgood, hfaithful, howes⟩ := halways pre hpre
  refine ⟨w, hw, fun c hc => (howes c hc).served, ?_⟩
  intro event hevent hsucceeds hactive w' hw' hkilled
  refine (step_did hw').closed hgood (hdeliverable pre event hevent w hw) ?_ hsucceeds hactive
    hkilled
  intro hactive
  obtain ⟨hc, hkilled⟩ := active_iff.mp hactive
  exact (howes _ hc).stage hkilled

/-- The file is fetched into the cache, and then again from there. -/
def fetchTwice : List Event :=
  fetchFile ++ [.receive 0 getBytes (.get (getFile 1)) flushNothing, .write 0 (.sent 100),
    .write 0 (.sent 2), .write 0 (.sent 100)]

theorem files_delivered_fetchTwice :
    Meets smallConfig 2 (fun w event => w.Deliverable smallConfig (fun _ _ => [1, 2, 3]) event)
      fetchTwice ∧
    ∀ pre, pre <+: fetchTwice → ∃ w, World.run smallConfig 2 pre = some w ∧
      (∀ c ∈ w.socks, Served smallConfig w.cache (World.log smallConfig 2 c pre) (w.sock c)) ∧
      ∀ event, pre ++ [event] <+: fetchTwice → event.succeeds = true →
        w.active event.conn = true → ∀ w', w.step smallConfig event = some w' →
          (w'.sock event.conn).killed = true → (w'.sock event.conn).pending w'.cache = [] :=
  ⟨meets_of_forall (by decide), files_delivered _ _ (fun _ _ => [1, 2, 3]) _
    (meets_of_forall (by decide))⟩

/-- A part of a file goes by `sendfile`. -/
def sendPart : List Event :=
  [.connect 0, .receive 0 getBytes (.get { getFile 1 with
    content := [1, 2, 3, 4, 5], range := some ⟨2, 3, 0⟩ }) flushNothing,
    .write 0 (.sent 100), .write 0 (.sent 100)]

/-- The first bytes of the file are sent. -/
theorem files_not_always_delivered : ¬ ∀ cfg entries events w,
    World.run cfg entries events = some w → ∀ c ∈ w.socks, (w.sock c).Idle →
      (w.sock c).sent = (World.log cfg entries c events).responses := by
  intro h
  cases hrun : World.run smallConfig 2 sendPart with
  | none =>
    have hsome : (World.run smallConfig 2 sendPart).isSome = true := by decide
    rw [hrun] at hsome
    cases hsome
  | some w =>
    have hwrong : (World.run smallConfig 2 sendPart).all (fun w => 0 ∈ w.socks ∧ (w.sock 0).Idle ∧
        (w.sock 0).sent ≠ (World.log smallConfig 2 0 sendPart).responses) = true := by decide
    rw [hrun, Option.all_some, decide_eq_true_iff] at hwrong
    obtain ⟨hc, hidle, hne⟩ := hwrong
    exact hne (h smallConfig 2 sendPart w hrun 0 hc hidle)

end Serveez.Transfer
