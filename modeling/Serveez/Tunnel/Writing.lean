import Serveez.Tunnel.State

/-!
# What is written in a tunnel

Writing, forwarding, answering and scheduling a shutdown change the sockets, each in its place, and
neither the structures nor what points to them.

* `Sends`: what comes into the send queues, and that all else stays.
* `write_sends`, `control_sends`, `answer_sends`: whose packets are sent where.
* `forward_cases`: a packet comes into the send queue of the target as it is.
-/

namespace Serveez.Tunnel

open Lib Udp

variable {cfg : TunnelConfig} {s s' s'' : TunnelState} {sock sock' : TnlSocket} {c : TnlConnect}

theorem sockAt_mem {id : Nat} (h : s.sockAt id = some sock) : sock ∈ s.socks ∧ sock.id = id :=
  findKey_mem h

/-- A socket that is read from is there and of its kind, and nothing of it is going away. -/
theorem of_reads {id : Nat} {kind : Kind} (hreads : s.reads id kind = some sock) :
    sock ∈ s.socks ∧ s.sockAt id = some sock ∧ sock.kind = kind ∧ s.nuke = false ∧
      sock.killed = false := by
  obtain ⟨hsock, hall⟩ := Option.filter_eq_some_iff.mp hreads
  simp only [Bool.and_eq_true, Bool.not_eq_true', beq_iff_eq] at hall
  obtain ⟨⟨hnuke, hkilled⟩, hkind⟩ := hall
  exact ⟨(sockAt_mem hsock).1, hsock, hkind, hnuke, hkilled⟩

/-- A socket after packets have been put into its send queue; it stays killed. -/
structure Later (packets : List Packet) (sock sock' : TnlSocket) : Prop where
  id : sock'.id = sock.id
  kind : sock'.kind = sock.kind
  data : sock'.data = sock.data
  client : sock'.client = sock.client
  killed : sock.killed = true → sock'.killed = true
  sent : sock'.sent = sock.sent ++ packets

theorem Later.refl (sock : TnlSocket) : Later [] sock sock :=
  ⟨rfl, rfl, rfl, rfl, fun h => h, (List.append_nil sock.sent).symm⟩

/-- `new` is what comes into the send queue of each socket. -/
structure Sends (s s' : TunnelState) (new : Nat → List Packet) : Prop where
  conns : s'.conns = s.conns
  client : s'.client = s.client
  nuke : s'.nuke = s.nuke
  faulted : s'.faulted = s.faulted
  since : s'.since = s.since
  socks : ∃ f : TnlSocket → TnlSocket, s'.socks = s.socks.map f ∧
    ∀ sock, Later (new sock.id) sock (f sock)

namespace Sends

variable {new new' : Nat → List Packet}

theorem refl (s : TunnelState) : Sends s s (fun _ => []) :=
  ⟨rfl, rfl, rfl, rfl, rfl, id, (List.map_id _).symm, Later.refl⟩

theorem trans (h : Sends s s' new) (h' : Sends s' s'' new') :
    Sends s s'' (fun id => new id ++ new' id) := by
  refine ⟨h'.conns.trans h.conns, h'.client.trans h.client, h'.nuke.trans h.nuke,
    h'.faulted.trans h.faulted, h'.since.trans h.since, ?_⟩
  obtain ⟨f, hf, hlater⟩ := h.socks
  obtain ⟨f', hf', hlater'⟩ := h'.socks
  refine ⟨f' ∘ f, by rw [hf', hf, List.map_map], fun sock => ?_⟩
  have h₁ := hlater sock
  have h₂ := hlater' (f sock)
  refine ⟨h₂.id.trans h₁.id, h₂.kind.trans h₁.kind, h₂.data.trans h₁.data,
    h₂.client.trans h₁.client, fun hkilled => h₂.killed (h₁.killed hkilled), ?_⟩
  rw [Function.comp_apply, h₂.sent, h₁.sent, h₁.id, List.append_assoc]

theorem setSock (s : TunnelState) (id : Nat) {f : TnlSocket → TnlSocket} {packets : List Packet}
    (hf : ∀ sock, Later packets sock (f sock)) :
    Sends s (s.setSock id f) (fun i => if i = id then packets else []) := by
  refine ⟨rfl, rfl, rfl, rfl, rfl, _, rfl, fun sock => ?_⟩
  by_cases hid : sock.id = id
  · rw [if_pos hid, if_pos hid]
    exact hf sock
  · rw [if_neg hid, if_neg hid]
    exact Later.refl sock

/-- One socket is changed, and nothing is sent. -/
theorem setQuiet (s : TunnelState) (id : Nat) {f : TnlSocket → TnlSocket}
    (hf : ∀ sock, Later [] sock (f sock)) : Sends s (s.setSock id f) (fun _ => []) := by
  have h := setSock s id hf
  simp only [ite_self] at h
  exact h

theorem setRemote (s : TunnelState) (id : Nat) (remote : Dest) :
    Sends s (s.setRemote id remote) (fun _ => []) :=
  setQuiet s id fun sock => ⟨rfl, rfl, rfl, rfl, fun h => h, (List.append_nil sock.sent).symm⟩

theorem setKilled (s : TunnelState) (id : Nat) : Sends s (s.setKilled id) (fun _ => []) :=
  setQuiet s id fun sock => ⟨rfl, rfl, rfl, rfl, fun _ => rfl, (List.append_nil sock.sent).symm⟩

theorem setBuffer (s : TunnelState) (id : Nat) (buffer : List UInt8) :
    Sends s (s.setBuffer id buffer) (fun _ => []) :=
  setQuiet s id fun sock => ⟨rfl, rfl, rfl, rfl, fun h => h, (List.append_nil sock.sent).symm⟩

theorem push (s : TunnelState) (id : Nat) (packets : List Packet) :
    Sends s (s.push id packets) (fun i => if i = id then packets else []) :=
  setSock s id fun _ => ⟨rfl, rfl, rfl, rfl, fun h => h, rfl⟩

theorem exists_before (h : Sends s s' new) (hsock : sock' ∈ s'.socks) :
    ∃ sock ∈ s.socks, Later (new sock.id) sock sock' := by
  obtain ⟨f, hf, hlater⟩ := h.socks
  rw [hf] at hsock
  obtain ⟨sock, hmem, rfl⟩ := List.mem_map.mp hsock
  exact ⟨sock, hmem, hlater sock⟩

theorem exists_after (h : Sends s s' new) (hsock : sock ∈ s.socks) :
    ∃ sock' ∈ s'.socks, Later (new sock.id) sock sock' := by
  obtain ⟨f, hf, hlater⟩ := h.socks
  exact ⟨f sock, hf ▸ List.mem_map_of_mem hsock, hlater sock⟩

theorem keyed (h : Sends s s' new) (hkeyed : Keyed TnlSocket.id s.socks) :
    Keyed TnlSocket.id s'.socks := by
  obtain ⟨f, hf, hlater⟩ := h.socks
  have hids : TnlSocket.id ∘ f = TnlSocket.id := funext fun sock => (hlater sock).id
  unfold Keyed
  rw [hf, List.map_map, hids]
  exact hkeyed

theorem sockAt_isSome (h : Sends s s' new) (id : Nat) :
    (s'.sockAt id).isSome = (s.sockAt id).isSome := by
  obtain ⟨f, hf, hlater⟩ := h.socks
  have hfind : s'.sockAt id = (s.sockAt id).map f := by
    unfold TunnelState.sockAt
    rw [hf, findKey_map fun sock => (hlater sock).id]
  rw [hfind, Option.isSome_map]

theorem free (h : Sends s s' new) (target conn : Nat) :
    s'.free target conn = s.free target conn := by
  have hsock := h.sockAt_isSome target
  have hconn : s'.connAt conn = s.connAt conn := congrArg (findKey TnlConnect.id conn) h.conns
  unfold TunnelState.free
  rw [hconn, ← Option.not_isSome, ← Option.not_isSome (s.sockAt target), hsock]

end Sends

/-! ## Writing -/

theorem schedule_sends {id : Nat} (hlive : (s.sockAt id).isSome = true) :
    ∃ s', svzSockScheduleForShutdown s id = some s' ∧ Sends s s' (fun _ => []) := by
  obtain ⟨sock, hsock⟩ := Option.isSome_iff_exists.mp hlive
  refine ⟨s.setKilled id, ?_, Sends.setKilled s id⟩
  unfold svzSockScheduleForShutdown
  rw [hsock, Option.map_some]

/-- What is sent has the remote address that the socket has. -/
theorem write_sends (proto : Proto) {id : Nat} (hsock : s.sockAt id = some sock)
    (buf : List UInt8) (owner : Dest) (ok : Bool) :
    ∃ r new, write proto s id buf owner ok = some r ∧ Sends s r.1 new ∧
      ∀ i, ∀ packet ∈ new i, i = id ∧ packet.dest = sock.remote ∧ packet.owner = owner ∧
        packet.close = false := by
  have hnone : ∀ i : Nat, ∀ packet ∈ ([] : List Packet), i = id ∧ packet.dest = sock.remote ∧
      packet.owner = owner ∧ packet.close = false :=
    fun _ packet hpacket => absurd hpacket List.not_mem_nil
  unfold write
  rw [hsock, Option.map_some]
  split_ifs
  · exact ⟨_, _, rfl, Sends.refl s, hnone⟩
  · refine ⟨_, _, rfl, Sends.push s id _, fun i packet hpacket => ?_⟩
    by_cases hid : i = id
    · rw [if_pos hid] at hpacket
      obtain ⟨piece, -, rfl⟩ := List.mem_map.mp hpacket
      exact ⟨hid, rfl, rfl, rfl⟩
    · rw [if_neg hid] at hpacket
      exact absurd hpacket List.not_mem_nil
  · exact ⟨_, _, rfl, Sends.refl s, hnone⟩
  · exact ⟨_, _, rfl, Sends.setKilled s id, hnone⟩

/-- The message that a target is gone. -/
theorem control_sends {id : Nat} (hsock : s.sockAt id = some sock) (owner : Dest) (ok : Bool) :
    ∃ s' new, svzIcmpSendControl s id owner ok = some s' ∧ Sends s s' new ∧
      (∀ i packet, packet ∈ new i → i = id ∧ packet = ⟨sock.remote, [], true, owner⟩) ∧
      (new id ≠ [] ↔ sock.killed = false ∧ ok = true) := by
  unfold svzIcmpSendControl
  rw [hsock, Option.map_some]
  split_ifs with hkilled hok
  · refine ⟨_, _, rfl, Sends.refl s, fun i packet hpacket => absurd hpacket List.not_mem_nil, ?_⟩
    exact iff_of_false (fun h => h rfl) (fun h => Bool.false_ne_true (h.1.symm.trans hkilled))
  · refine ⟨_, _, rfl, Sends.push s id _, fun i packet hpacket => ?_, ?_⟩
    · by_cases hid : i = id
      · rw [if_pos hid] at hpacket
        exact ⟨hid, List.mem_singleton.mp hpacket⟩
      · rw [if_neg hid] at hpacket
        exact absurd hpacket List.not_mem_nil
    · rw [if_pos rfl]
      exact iff_of_true (List.cons_ne_nil _ _) ⟨Bool.eq_false_iff.mpr hkilled, hok⟩
  · refine ⟨_, _, rfl, Sends.setKilled s id, fun i packet hpacket =>
      absurd hpacket List.not_mem_nil, ?_⟩
    exact iff_of_false (fun h => h rfl) (fun h => hok h.2)

/-- The three ways in which a packet is forwarded: the target does not take it, it takes it, or it
is scheduled for shutdown. -/
theorem forward_cases (cfg : TunnelConfig) {id : Nat} (hsock : s.sockAt id = some sock)
    (packet : List UInt8) (owner : Dest) (ok : Bool) :
    (sock.killed = true ∨ packet = []) ∧ forward cfg s id packet owner ok = some s ∨
      (sock.killed = false ∧ packet ≠ []) ∧ ok = true ∧ forward cfg s id packet owner ok =
        some (s.push id ((pieces cfg.target packet).map fun piece =>
          ⟨sock.remote, piece, false, owner⟩)) ∨
      (sock.killed = false ∧ packet ≠ []) ∧ ok = false ∧
        forward cfg s id packet owner ok = some (s.setKilled id) := by
  have htwice : (s.setKilled id).setKilled id = s.setKilled id := by
    have hsocks : modifyKey TnlSocket.id id (fun sock => { sock with killed := true })
        (modifyKey TnlSocket.id id (fun sock => { sock with killed := true }) s.socks) =
        modifyKey TnlSocket.id id ((fun sock => { sock with killed := true }) ∘
          fun sock => { sock with killed := true }) s.socks := modifyKey_modifyKey (fun _ => rfl)
    exact congrArg (fun socks => { s with socks := socks }) hsocks
  have hschedule : svzSockScheduleForShutdown s id = some (s.setKilled id) := by
    unfold svzSockScheduleForShutdown
    rw [hsock, Option.map_some]
  have hschedule' : svzSockScheduleForShutdown (s.setKilled id) id = some (s.setKilled id) := by
    have hlive := (Sends.setKilled s id).sockAt_isSome id
    rw [hsock, Option.isSome_some] at hlive
    obtain ⟨sock', hsock'⟩ := Option.isSome_iff_exists.mp hlive
    unfold svzSockScheduleForShutdown
    rw [hsock', Option.map_some, htwice]
  unfold forward tnlSendRequestSource write
  rw [hsock, Option.map_some, Option.bind_some]
  by_cases hskip : sock.killed = true ∨ packet = []
  · rw [if_pos hskip]
    exact Or.inl ⟨hskip, rfl⟩
  · obtain ⟨hkilled, hpacket⟩ := not_or.mp hskip
    have htaken := And.intro (Bool.eq_false_iff.mpr hkilled) hpacket
    rw [if_neg hskip]
    cases ok with
    | true => exact Or.inr (Or.inl ⟨htaken, rfl, rfl⟩)
    | false =>
      refine Or.inr (Or.inr ⟨htaken, rfl, ?_⟩)
      cases cfg.target.stream with
      | true => exact hschedule
      | false => exact hschedule'

theorem forward_sends (cfg : TunnelConfig) {id : Nat} (hsock : s.sockAt id = some sock)
    (packet : List UInt8) (owner : Dest) (ok : Bool) :
    ∃ s' new, forward cfg s id packet owner ok = some s' ∧ Sends s s' new := by
  rcases forward_cases cfg hsock packet owner ok with
    ⟨-, hforward⟩ | ⟨-, -, hforward⟩ | ⟨-, -, hforward⟩
  · exact ⟨_, _, hforward, Sends.refl s⟩
  · exact ⟨_, _, hforward, Sends.push s id _⟩
  · exact ⟨_, _, hforward, Sends.setKilled s id⟩

/-- An answer is sent to the address in the structure of the target. -/
theorem answer_sends (cfg : TunnelConfig) (hkeyed : Keyed TnlSocket.id s.socks) {conn x : Nat}
    (hdata : sock.data = some conn) (hconn : s.connAt conn = some c) (hx : c.sourceSock = some x)
    (hlive : (s.sockAt x).isSome = true) (closes : Bool) (packet : List UInt8) (ok : Bool) :
    ∃ r new, answer closes cfg s sock packet ok = some r ∧ Sends s r.1 new ∧
      ∀ i, ∀ packet ∈ new i, i = x ∧ packet.dest = c.addr ∧ packet.owner = sock.client ∧
        packet.close = false := by
  have hremote := Sends.setRemote s x c.addr
  obtain ⟨source, hsource⟩ := Option.isSome_iff_exists.mp hlive
  have hsource' : (s.setRemote x c.addr).sockAt x = some { source with remote := c.addr } :=
    findKey_of_mem (hremote.keyed hkeyed)
      ((mem_modifyKey hkeyed hsource).mpr (Or.inl rfl)) (sockAt_mem hsource).2
  obtain ⟨r, new, hr, hwrite, hnew⟩ := write_sends cfg.source hsource' packet sock.client ok
  have hboth := hremote.trans hwrite
  unfold answer tnlSendRequestTarget
  rw [hdata]
  dsimp only
  rw [hconn, Option.bind_some, hx]
  dsimp only
  rw [hr, Option.bind_some]
  split
  · rw [← hboth.sockAt_isSome] at hlive
    obtain ⟨s', hs', hschedule⟩ := schedule_sends hlive
    rw [hs', Option.map_some]
    refine ⟨_, _, rfl, hboth.trans hschedule, fun i packet hpacket => ?_⟩
    simp only [List.nil_append, List.append_nil] at hpacket
    exact hnew i packet hpacket
  · refine ⟨r, _, rfl, hboth, fun i packet hpacket => ?_⟩
    exact hnew i packet hpacket

theorem afterCallback_sends (ignored : Bool) (id : Nat) {r : TunnelState × Bool}
    {new : Nat → List Packet} (h : Sends s r.1 new) : Sends s (afterCallback ignored id r) new := by
  unfold afterCallback
  split
  · exact h
  · have hboth := h.trans (Sends.setKilled r.1 id)
    simp only [List.append_nil] at hboth
    exact hboth

end Serveez.Tunnel
