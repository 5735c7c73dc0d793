import Serveez.Tunnel.Writing

/-!
# Isolation of the clients in a tunnel

All clients of a packet oriented source share one socket. What tells them apart is the key of the
hash, and the address in the structure of a target, which is set on the socket before an answer.

* `tnlAddr_injective`: the key tells addresses apart.
* `Assigned`: whose target is whose, in every run.
* `isolated_of_keeps`: the clients are isolated while what is forwarded is what has come. The bytes
  of a datagram that is denied stay in the receive buffer, and go with the next one.
-/

namespace Serveez.Tunnel

open Lib Udp

/-! ## The key of a client -/

theorem printDecimal_injective {i j : Nat} (hi : i < 65536) (hj : j < 65536)
    (h : printDecimal i = printDecimal j) : i = j :=
  printLoop_injective hi hj (by omega) (by omega) (by omega) h

theorem separator_notMem_printDecimal {c : Char} (hc : ¬ IsDigit c) (i : Nat) :
    c ∉ printDecimal i := by
  intro hmem
  exact hc (isDigit_of_mem_printLoop (fun c hc => absurd hc List.not_mem_nil) c hmem)

/-- The parts before and behind the first separator. -/
theorem separator_injective {c : Char} {x x' z z' : List Char} (hx : c ∉ x) (hx' : c ∉ x')
    (h : x ++ c :: z = x' ++ c :: z') : x = x' ∧ z = z' := by
  rcases List.append_eq_append_iff.mp h with ⟨d, hd, hrest⟩ | ⟨d, hd, hrest⟩
  · cases d with
    | nil => exact ⟨(hd.trans (List.append_nil x)).symm, (List.cons.inj hrest).2⟩
    | cons b d =>
      obtain ⟨rfl, -⟩ := List.cons.inj hrest
      exact absurd (hd ▸ List.mem_append_right x List.mem_cons_self) hx'
  · cases d with
    | nil => exact ⟨hd.trans (List.append_nil x'), (List.cons.inj hrest).2.symm⟩
    | cons b d =>
      obtain ⟨rfl, -⟩ := List.cons.inj hrest
      exact absurd (hd ▸ List.mem_append_right x' List.mem_cons_self) hx

/-- Both print a number up to the separator. -/
theorem printDecimal_append_injective {c : Char} (hc : ¬ IsDigit c) {i j : Nat} {l l' : List Char}
    (hi : i < 65536) (hj : j < 65536)
    (h : printDecimal i ++ c :: l = printDecimal j ++ c :: l') : i = j ∧ l = l' := by
  obtain ⟨hprint, hrest⟩ := separator_injective (separator_notMem_printDecimal hc i)
    (separator_notMem_printDecimal hc j) h
  exact ⟨printDecimal_injective hi hj hprint, hrest⟩

theorem ntohs_injective {port port' : UInt16} (h : ntohs port = ntohs port') : port = port' := by
  unfold ntohs at h
  have hlt := port.toNat_lt
  have hlt' := port'.toNat_lt
  exact UInt16.toNat.inj (by omega)

theorem tnlAddr_injective {remote remote' : Dest} (h : tnlAddr remote = tnlAddr remote') :
    remote = remote' := by
  have hdot : ¬ IsDigit '.' := by decide
  have hcolon : ¬ IsDigit ':' := by decide
  have hoctet (addr : UInt32) (n : Nat) : addr.toNat / 256 ^ n % 256 < 65536 :=
    Nat.lt_trans (Nat.mod_lt (addr.toNat / 256 ^ n) (Nat.succ_pos 255)) (by omega)
  have hntohs (port : UInt16) : ntohs port < 65536 := by
    have hlt := port.toNat_lt
    unfold ntohs
    omega
  unfold tnlAddr ppAddress at h
  simp only [List.append_assoc, List.cons_append] at h
  obtain ⟨h₀, h⟩ := printDecimal_append_injective hdot (hoctet _ _) (hoctet _ _) h
  obtain ⟨h₁, h⟩ := printDecimal_append_injective hdot (hoctet _ _) (hoctet _ _) h
  obtain ⟨h₂, h⟩ := printDecimal_append_injective hdot (hoctet _ _) (hoctet _ _) h
  obtain ⟨h₃, h⟩ := printDecimal_append_injective hcolon (hoctet _ _) (hoctet _ _) h
  have hport := ntohs_injective (printDecimal_injective (hntohs _) (hntohs _) h)
  have haddr : remote.addr = remote'.addr := by
    have hlt := remote.addr.toNat_lt
    have hlt' := remote'.addr.toNat_lt
    simp only [Nat.pow_zero, Nat.pow_one, Nat.div_one, Nat.reducePow] at h₀ h₁ h₂ h₃
    exact UInt32.toNat.inj (by omega)
  cases remote
  cases remote'
  rw [Dest.mk.injEq]
  exact ⟨haddr, hport⟩

/-! ## What is promised -/

/-- What has been sent to a target is what has come from its client, up to where it was scheduled
for shutdown. A stream has no packets. -/
structure Forwarded (cfg : TunnelConfig) (heard : List (List UInt8)) (sock : TnlSocket) : Prop where
  order : if cfg.target.stream then (sock.sent.map Packet.payload).flatten <+: heard.flatten
    else sock.sent.map Packet.payload <+: heard
  whole : sock.killed = false →
    if cfg.target.stream then (sock.sent.map Packet.payload).flatten = heard.flatten
    else sock.sent.map Packet.payload = heard

/-- Each client has one target, which gets its datagrams, and what the socket that listens sends
goes to the client whose target it comes from. `closes` is whether that is also promised for the
messages that a target is gone. -/
structure Isolated (cfg : TunnelConfig) (closes : Bool) (socks : List TnlSocket)
    (since : Dest → List (List UInt8)) : Prop where
  once : ∀ sock ∈ socks, ∀ sock' ∈ socks, sock.kind = .target → sock'.kind = .target →
    sock.client = sock'.client → sock = sock'
  owner : ∀ sock ∈ socks, sock.kind = .target → ∀ packet ∈ sock.sent, packet.owner = sock.client
  forwarded : ∀ sock ∈ socks, sock.kind = .target → Forwarded cfg (since sock.client) sock
  replies : ∀ sock ∈ socks, sock.kind = .listener → ∀ packet ∈ sock.sent,
    (packet.close = true → closes = true) → packet.dest = packet.owner

/-- A client has a target that is not scheduled for shutdown, or gets one. -/
def Takes (s : TunnelState) (sender : Dest) (connected : Bool) : Prop :=
  (∃ sock ∈ s.socks, sock.kind = .target ∧ sock.client = sender ∧ sock.killed = false) ∨
    connected = true ∧ ∀ sock ∈ s.socks, sock.kind = .target → sock.client ≠ sender

/-- A datagram that is forwarded is all that is in the receive buffer. -/
def KeepsDatagrams (cfg : TunnelConfig) (s : TunnelState) : TunnelEvent → Prop
  | .datagram id _ _ sender packet connected _ =>
    cfg.denies sender.addr = false → Takes s sender connected →
      ∀ listener, s.sockAt id = some listener → listener.recvBuffer = [] ∧
        packet.length ≤ cfg.recvBufferSize ∧
        (cfg.target.stream = true ∨ packet ≠ [] ∧ packet.length ≤ svzUdpMsgSize)
  | _ => True

/-- The last packet of an ICMP source was from the client whose target goes, or no message is sent
for it. -/
def KeepsCloses (cfg : TunnelConfig) (s : TunnelState) : TunnelEvent → Prop
  | .shutdown id ok => cfg.source = .icmp → s.nuke = false → ok = true →
    ∀ sock, s.sockAt id = some sock → sock.kind = .target →
      ∀ listener ∈ s.socks, listener.kind = .listener → listener.killed = false →
        listener.remote = sock.client
  | _ => True

def KeepsIsolation (cfg : TunnelConfig) (closes : Bool) (s : TunnelState) (event : TunnelEvent) :
    Prop := KeepsDatagrams cfg s event ∧ (closes = true → KeepsCloses cfg s event)

/-! ## Whose target is whose -/

/-- A target has the structure of the client that it was created for. -/
def Owns (listener : Nat) (s : TunnelState) (sock : TnlSocket) : Prop :=
  ∃ c ∈ s.conns, sock.data = some c.id ∧ c.sourceSock = some listener ∧
    c.targetSock = some sock.id ∧ c.addr = sock.client ∧ (tnlAddr sock.client, c.id) ∈ s.client

structure Assigned (listener : Nat) (s : TunnelState) : Prop where
  socks : Keyed TnlSocket.id s.socks
  conns : Keyed TnlConnect.id s.conns
  keys : Keyed Prod.fst s.client
  values : Keyed Prod.snd s.client
  kinds : ∀ sock ∈ s.socks, sock.kind = .listener ∧ sock.id = listener ∨
    sock.kind = .target ∧ sock.id ≠ listener ∧ Owns listener s sock
  entry : s.nuke = false → ∀ e ∈ s.client, ∃ sock ∈ s.socks, sock.kind = .target ∧
    sock.data = some e.2 ∧ e.1 = tnlAddr sock.client

section Assigned

variable {cfg : TunnelConfig} {closes : Bool} {listener : Nat} {s s' : TunnelState}
  {sock sock' : TnlSocket} {new : Nat → List Packet} {since : Dest → List (List UInt8)}
  {sender : Dest} {packet : List UInt8}

namespace Assigned

theorem owns (h : Assigned listener s) (hsock : sock ∈ s.socks) (hkind : sock.kind = .target) :
    sock.id ≠ listener ∧ Owns listener s sock := by
  rcases h.kinds sock hsock with ⟨hlistener, -⟩ | ⟨-, hown⟩
  · exact Kind.noConfusion (hkind.symm.trans hlistener)
  · exact hown

theorem id_listener (h : Assigned listener s) (hsock : sock ∈ s.socks)
    (hkind : sock.kind = .listener) : sock.id = listener := by
  rcases h.kinds sock hsock with ⟨-, hid⟩ | ⟨htarget, -⟩
  · exact hid
  · exact Kind.noConfusion (hkind.symm.trans htarget)

theorem once (h : Assigned listener s) (hsock : sock ∈ s.socks) (hsock' : sock' ∈ s.socks)
    (hkind : sock.kind = .target) (hkind' : sock'.kind = .target)
    (hclient : sock.client = sock'.client) : sock = sock' := by
  obtain ⟨-, c, hc, -, -, hown, -, hentry⟩ := h.owns hsock hkind
  obtain ⟨-, c', hc', -, -, hown', -, hentry'⟩ := h.owns hsock' hkind'
  have hpair := h.keys.eq_of_key hentry hentry' (congrArg tnlAddr hclient)
  obtain rfl := h.conns.eq_of_key hc hc' (Prod.mk.inj hpair).2
  exact h.socks.eq_of_key hsock hsock' (Option.some.inj (hown.symm.trans hown'))

theorem of_entry (h : Assigned listener s) (hnuke : s.nuke = false) {e : List Char × Nat}
    (hfind : findKey Prod.fst (tnlAddr sender) s.client = some e) :
    ∃ sock ∈ s.socks, sock.kind = .target ∧ sock.client = sender ∧
      ∃ c, s.connAt e.2 = some c ∧ c.targetSock = some sock.id := by
  obtain ⟨hmem, hkey⟩ := findKey_mem hfind
  obtain ⟨sock, hsock, hkind, hdata, hclient⟩ := h.entry hnuke e hmem
  obtain ⟨-, c, hc, hdata', -, hown, -⟩ := h.owns hsock hkind
  refine ⟨sock, hsock, hkind, tnlAddr_injective (hclient.symm.trans hkey), c, ?_, hown⟩
  rw [Option.some.inj (hdata.symm.trans hdata')]
  exact findKey_of_mem h.conns hc rfl

theorem of_noEntry (h : Assigned listener s)
    (hfind : findKey Prod.fst (tnlAddr sender) s.client = none) (hsock : sock ∈ s.socks)
    (hkind : sock.kind = .target) : sock.client ≠ sender := by
  rintro rfl
  obtain ⟨-, c, -, -, -, -, -, hentry⟩ := h.owns hsock hkind
  exact findKey_none.mp hfind _ hentry rfl

/-- Only the sockets change, which keep what makes them targets. -/
theorem sends (h : Assigned listener s) (hsends : Sends s s' new) : Assigned listener s' := by
  refine ⟨hsends.keyed h.socks, hsends.conns ▸ h.conns, hsends.client ▸ h.keys,
    hsends.client ▸ h.values, fun sock hsock => ?_, fun hnuke e he => ?_⟩
  · obtain ⟨old, hold, hlater⟩ := hsends.exists_before hsock
    unfold Owns
    rw [hlater.kind, hlater.id, hlater.data, hlater.client, hsends.conns, hsends.client]
    exact h.kinds old hold
  · rw [hsends.client] at he
    rw [hsends.nuke] at hnuke
    obtain ⟨old, hold, hkind, hdata, hclient⟩ := h.entry hnuke e he
    obtain ⟨sock, hsock, hlater⟩ := hsends.exists_after hold
    exact ⟨sock, hsock, hlater.kind.trans hkind, hlater.data.trans hdata,
      hclient.trans (congrArg tnlAddr hlater.client.symm)⟩

theorem create (h : Assigned listener s) (cfg : TunnelConfig) {target conn : Nat}
    (hfree : s.free target conn = true) (hsock : sock ∈ s.socks) (hkind : sock.kind = .listener)
    (hnuke : s.nuke = false) (hfind : findKey Prod.fst (tnlAddr sender) s.client = none) :
    Assigned listener { tnlCreate cfg s sock.id target conn sender with
      client := (tnlAddr sender, conn) :: s.client } := by
  obtain rfl := h.id_listener hsock hkind
  unfold TunnelState.free at hfree
  simp only [Bool.and_eq_true, Option.isNone_iff_eq_none] at hfree
  obtain ⟨htarget, hconn⟩ := hfree
  refine ⟨h.socks.cons htarget, h.conns.cons hconn, h.keys.cons hfind,
    h.values.cons (findKey_none.mpr (fun e he hsame => ?_)), fun other hother => ?_,
    fun hnuke e he => ?_⟩
  · obtain ⟨other, hother, hkind', hdata, -⟩ := h.entry hnuke e he
    obtain ⟨-, c, hc, hdata', -⟩ := h.owns hother hkind'
    exact findKey_none.mp hconn c hc ((Option.some.inj (hdata'.symm.trans hdata)).trans hsame)
  · rcases List.mem_cons.mp hother with rfl | hother
    · refine Or.inr ⟨rfl, fun heq => findKey_none.mp htarget sock hsock heq.symm, _,
        List.mem_cons_self, rfl, rfl, rfl, rfl, List.mem_cons_self⟩
    · refine (h.kinds other hother).imp_right (fun ⟨hkind', hne, c, hc, hdata, hx, hy, haddr,
        hentry⟩ => ⟨hkind', hne, c, List.mem_cons_of_mem _ hc, hdata, hx, hy, haddr,
          List.mem_cons_of_mem _ hentry⟩)
  · rcases List.mem_cons.mp he with rfl | he
    · exact ⟨_, List.mem_cons_self, rfl, rfl, rfl⟩
    · obtain ⟨other, hother, hown⟩ := h.entry hnuke e he
      exact ⟨other, List.mem_cons_of_mem _ hother, hown⟩

/-- A socket goes that no entry needs. -/
theorem freeSock (h : Assigned listener s) {gone : Nat}
    (hentry : s.nuke = false → ∀ sock ∈ s.socks, sock.kind = .target → sock.id ≠ gone) :
    Assigned listener (s.freeSock gone) := by
  refine ⟨h.socks.removeKey gone, h.conns, h.keys, h.values,
    fun sock hsock => h.kinds sock (mem_removeKey.mp hsock).1, fun hnuke e he => ?_⟩
  obtain ⟨sock, hsock, hkind, hown⟩ := h.entry hnuke e he
  exact ⟨sock, mem_removeKey.mpr ⟨hsock, hentry hnuke sock hsock hkind⟩, hkind, hown⟩

/-- A target goes, with its structure and its entry. -/
theorem leave (h : Assigned listener s) (hsock : sock ∈ s.socks) (hkind : sock.kind = .target)
    {conn : Nat} (hdata : sock.data = some conn) :
    Assigned listener ((deleteClient s conn).freeSock sock.id) := by
  obtain ⟨-, c, hc, hdata', -, -, -, hentry⟩ := h.owns hsock hkind
  obtain rfl := Option.some.inj (hdata'.symm.trans hdata)
  have hvalue : findKey Prod.snd c.id s.client = some (tnlAddr sock.client, c.id) :=
    findKey_of_mem h.values hentry rfl
  have hfind : s.client.find? (·.2 = c.id) = some (tnlAddr sock.client, c.id) := hvalue
  unfold deleteClient
  rw [hfind]
  refine ⟨h.socks.removeKey sock.id, h.conns.removeKey c.id, h.keys.removeKey (tnlAddr sock.client),
    h.values.sublist (List.filter_sublist.map Prod.snd), fun other hother => ?_,
    fun hnuke e he => ?_⟩
  · obtain ⟨hother, hne⟩ := mem_removeKey.mp hother
    refine (h.kinds other hother).imp_right (fun ⟨hkind', hne', c', hc', hdata', hx, hy, haddr,
      hentry'⟩ => ⟨hkind', hne', c', mem_removeKey.mpr ⟨hc', fun heq => hne ?_⟩, hdata', hx, hy,
        haddr, mem_removeKey.mpr ⟨hentry', fun heq => hne ?_⟩⟩)
    · have hpair := h.values.eq_of_key hentry' hentry heq
      exact congrArg TnlSocket.id
        (h.once hother hsock hkind' hkind (tnlAddr_injective (Prod.mk.inj hpair).1))
    · exact congrArg TnlSocket.id (h.once hother hsock hkind' hkind (tnlAddr_injective heq))
  · obtain ⟨he, hne⟩ := mem_removeKey.mp he
    obtain ⟨other, hother, hkind', hdata'', hclient⟩ := h.entry hnuke e he
    refine ⟨other, mem_removeKey.mpr ⟨hother, fun heq => hne ?_⟩, hkind', hdata'', hclient⟩
    obtain rfl := h.socks.eq_of_key hother hsock heq
    exact hclient

end Assigned

/-! ## What is sent -/

/-- The half of it that is left when a target is scheduled for shutdown. -/
theorem Forwarded.grow {heard : List (List UInt8)} (h : Forwarded cfg heard sock)
    (packet : List UInt8) (hsent : sock'.sent = sock.sent) (hkilled : sock'.killed = true) :
    Forwarded cfg (heard ++ [packet]) sock' := by
  refine ⟨?_, fun halive => absurd (halive.symm.trans hkilled) Bool.false_ne_true⟩
  have horder := h.order
  rw [hsent]
  split
  · next hstream =>
    rw [if_pos hstream] at horder
    rw [List.flatten_append]
    exact horder.trans (List.prefix_append _ _)
  · next hstream =>
    rw [if_neg hstream] at horder
    exact horder.trans (List.prefix_append _ _)

theorem Forwarded.later {heard : List (List UInt8)} (h : Forwarded cfg heard sock)
    (hlater : Later [] sock sock') : Forwarded cfg heard sock' := by
  have hsent : sock'.sent = sock.sent := hlater.sent.trans (List.append_nil sock.sent)
  refine ⟨hsent ▸ h.order, fun halive => ?_⟩
  rw [hsent]
  refine h.whole (Bool.eq_false_iff.mpr (fun hkilled => ?_))
  exact Bool.false_ne_true (halive.symm.trans (hlater.killed hkilled))

theorem chunks_single (hne : packet ≠ []) (hlength : packet.length ≤ svzUdpMsgSize) :
    chunks packet.length packet = [packet] := by
  cases packet with
  | nil => exact absurd rfl hne
  | cons byte bytes =>
    rw [List.length_cons, chunks, List.take_of_length_le hlength, List.drop_of_length_le hlength]
    cases bytes.length <;> rfl

theorem Forwarded.taken {heard : List (List UInt8)} (h : Forwarded cfg heard sock)
    (halive : sock.killed = false) (owner : Dest)
    (hfits : cfg.target.stream = true ∨ packet ≠ [] ∧ packet.length ≤ svzUdpMsgSize)
    (hlater : Later ((pieces cfg.target packet).map fun piece =>
      ⟨sock.remote, piece, false, owner⟩) sock sock') :
    Forwarded cfg (heard ++ [packet]) sock' := by
  have hwhole := h.whole halive
  have hequal : if cfg.target.stream then
      (sock'.sent.map Packet.payload).flatten = (heard ++ [packet]).flatten
      else sock'.sent.map Packet.payload = heard ++ [packet] := by
    have hpieces : ((pieces cfg.target packet).map fun piece =>
        (⟨sock.remote, piece, false, owner⟩ : Packet)).map Packet.payload =
        pieces cfg.target packet := by
      rw [List.map_map]
      exact List.map_id _
    rw [hlater.sent, List.map_append, hpieces]
    unfold pieces
    split
    · next hstream =>
      rw [if_pos hstream] at hwhole
      rw [List.flatten_append, List.flatten_append, hwhole]
    · next hstream =>
      rw [if_neg hstream] at hwhole
      obtain ⟨hne, hlength⟩ := hfits.resolve_left hstream
      rw [hwhole, chunks_single hne hlength]
  refine ⟨?_, fun _ => hequal⟩
  split
  · next hstream =>
    rw [if_pos hstream] at hequal
    exact hequal ▸ List.prefix_rfl
  · next hstream =>
    rw [if_neg hstream] at hequal
    exact hequal ▸ List.prefix_rfl

/-- What is sent is owned by the client of its target, and answers go to their owner. -/
theorem Isolated.sends {since' : Dest → List (List UInt8)} (h : Isolated cfg closes s.socks since)
    (hsends : Sends s s' new) (hassigned : Assigned listener s')
    (htarget : ∀ sock ∈ s.socks, sock.kind = .target → ∀ sock' ∈ s'.socks,
      Later (new sock.id) sock sock' →
        (∀ packet ∈ new sock.id, packet.owner = sock.client) ∧
          Forwarded cfg (since' sock.client) sock')
    (hlistener : ∀ sock ∈ s.socks, sock.kind = .listener → ∀ packet ∈ new sock.id,
      (packet.close = true → closes = true) → packet.dest = packet.owner) :
    Isolated cfg closes s'.socks since' := by
  refine ⟨fun a ha b hb => hassigned.once ha hb, fun sock' hsock' hkind packet hpacket => ?_,
    fun sock' hsock' hkind => ?_, fun sock' hsock' hkind packet hpacket hclose => ?_⟩
  all_goals
    obtain ⟨sock, hsock, hlater⟩ := hsends.exists_before hsock'
    have hkind := hlater.kind.symm.trans hkind
  · rw [hlater.client]
    rw [hlater.sent] at hpacket
    rcases List.mem_append.mp hpacket with hold | hnew
    · exact h.owner sock hsock hkind packet hold
    · exact (htarget sock hsock hkind sock' hsock' hlater).1 packet hnew
  · rw [hlater.client]
    exact (htarget sock hsock hkind sock' hsock' hlater).2
  · rw [hlater.sent] at hpacket
    rcases List.mem_append.mp hpacket with hold | hnew
    · exact h.replies sock hsock hkind packet hold hclose
    · exact hlistener sock hsock hkind packet hnew hclose

theorem Isolated.answers (h : Isolated cfg closes s.socks since) (hassigned : Assigned listener s)
    (hsends : Sends s s' new)
    (hnew : ∀ i, ∀ packet ∈ new i, i = listener ∧ ((packet.close = true → closes = true) →
      packet.dest = packet.owner)) : Isolated cfg closes s'.socks since := by
  refine h.sends hsends (hassigned.sends hsends) (fun sock hsock hkind sock' _ hlater => ?_)
    (fun sock _ _ packet hpacket => (hnew sock.id packet hpacket).2)
  have hnil : new sock.id = [] := by
    refine List.eq_nil_iff_forall_not_mem.mpr (fun packet hpacket => ?_)
    exact (hassigned.owns hsock hkind).1 (hnew sock.id packet hpacket).1
  rw [hnil] at hlater ⊢
  exact ⟨fun packet hpacket => absurd hpacket List.not_mem_nil,
    (h.forwarded sock hsock hkind).later hlater⟩

theorem Isolated.quiet (h : Isolated cfg closes s.socks since) (hassigned : Assigned listener s)
    (hsends : Sends s s' (fun _ => [])) : Isolated cfg closes s'.socks since :=
  h.answers hassigned hsends (fun _ _ hpacket => absurd hpacket List.not_mem_nil)

theorem Isolated.subset {socks socks' : List TnlSocket} (h : Isolated cfg closes socks since)
    (hsub : socks' ⊆ socks) : Isolated cfg closes socks' since :=
  ⟨fun a ha b hb => h.once a (hsub ha) b (hsub hb), fun a ha => h.owner a (hsub ha),
    fun a ha => h.forwarded a (hsub ha), fun a ha => h.replies a (hsub ha)⟩

/-- A datagram that no target takes. -/
theorem Isolated.unheard (h : Isolated cfg closes s.socks since) (hassigned : Assigned listener s)
    (hsends : Sends s s' (fun _ => [])) {heard : List (List UInt8)}
    (hheard : ∀ sock ∈ s.socks, sock.kind = .target → sock.client = sender →
      sock.killed = true ∧ ∃ packet, heard = since sender ++ [packet]) :
    Isolated cfg closes s'.socks (Function.update since sender heard) := by
  refine h.sends hsends (hassigned.sends hsends) (fun sock hsock hkind sock' _ hlater => ?_)
    (fun _ _ _ _ hpacket => absurd hpacket List.not_mem_nil)
  refine ⟨fun packet hpacket => absurd hpacket List.not_mem_nil, ?_⟩
  by_cases hclient : sock.client = sender
  · obtain ⟨hkilled, packet, rfl⟩ := hheard sock hsock hkind hclient
    have hforwarded := h.forwarded sock hsock hkind
    rw [hclient, Function.update_self]
    rw [hclient] at hforwarded
    exact hforwarded.grow packet (hlater.sent.trans (List.append_nil sock.sent))
      (hlater.killed hkilled)
  · rw [Function.update_of_ne hclient]
    exact (h.forwarded sock hsock hkind).later hlater

theorem Isolated.forward {past : List (List UInt8)}
    (h : Isolated cfg closes s.socks (Function.update since sender past))
    (hassigned : Assigned listener s) (hsock : sock ∈ s.socks) (hkind : sock.kind = .target)
    (hclient : sock.client = sender) (halive : sock.killed = false) (ok : Bool)
    (hfits : cfg.target.stream = true ∨ packet ≠ [] ∧ packet.length ≤ svzUdpMsgSize) :
    ∃ s' new, forward cfg s sock.id packet sender ok = some s' ∧ Sends s s' new ∧
      Isolated cfg closes s'.socks (Function.update since sender (past ++ [packet])) := by
  have hforwarded := h.forwarded sock hsock hkind
  rw [hclient, Function.update_self] at hforwarded
  -- the targets of the other clients get nothing
  have hstep {s' : TunnelState} (packets : List Packet)
      (hsends : Sends s s' (fun i => if i = sock.id then packets else []))
      (howner : ∀ sent ∈ packets, sent.owner = sender)
      (hown : ∀ sock' ∈ s'.socks, Later packets sock sock' →
        Forwarded cfg (past ++ [packet]) sock') :
      Isolated cfg closes s'.socks (Function.update since sender (past ++ [packet])) := by
    refine h.sends hsends (hassigned.sends hsends)
      (fun other hother hkind' sock' hsock' hlater => ?_)
      (fun other hother hkind' packet hpacket => ?_)
    · by_cases hid : other.id = sock.id
      · obtain rfl := hassigned.socks.eq_of_key hother hsock hid
        rw [if_pos rfl] at hlater ⊢
        rw [hclient, Function.update_self]
        exact ⟨howner, hown sock' hsock' hlater⟩
      · have hother' := h.forwarded other hother hkind'
        have hne : other.client ≠ sender := fun heq => hid (congrArg TnlSocket.id
          (hassigned.once hother hsock hkind' hkind (heq.trans hclient.symm)))
        rw [Function.update_of_ne hne] at hother' ⊢
        rw [if_neg hid] at hlater ⊢
        exact ⟨fun packet hpacket => absurd hpacket List.not_mem_nil, hother'.later hlater⟩
    · have hne : other.id ≠ sock.id := fun heq => by
        obtain rfl := hassigned.socks.eq_of_key hother hsock heq
        exact Kind.noConfusion (hkind'.symm.trans hkind)
      rw [if_neg hne] at hpacket
      exact absurd hpacket List.not_mem_nil
  have hquiet {s' : TunnelState} (hsends : Sends s s' (fun _ => [])) :
      Sends s s' (fun i => if i = sock.id then [] else []) := by
    simp only [ite_self]
    exact hsends
  have hnone : ∀ sent ∈ ([] : List Packet), sent.owner = sender :=
    fun sent hsent => absurd hsent List.not_mem_nil
  have hfind : s.sockAt sock.id = some sock := findKey_of_mem hassigned.socks hsock rfl
  rcases forward_cases cfg hfind packet sender ok with
    ⟨hskip, hforward⟩ | ⟨-, -, hforward⟩ | ⟨-, -, hforward⟩
  · have hempty : packet = [] :=
      hskip.resolve_left (fun hkilled => Bool.false_ne_true (halive.symm.trans hkilled))
    have hstream := hfits.resolve_right (fun h => h.1 hempty)
    refine ⟨_, _, hforward, Sends.refl s, hstep [] (hquiet (Sends.refl s)) hnone ?_⟩
    intro sock' _ hlater
    obtain ⟨horder, hwhole⟩ := hforwarded.later hlater
    rw [if_pos hstream] at horder hwhole
    refine ⟨?_, fun halive' => ?_⟩
    all_goals rw [if_pos hstream, hempty, List.flatten_append, List.flatten_singleton,
      List.append_nil]
    · exact horder
    · exact hwhole halive'
  · refine ⟨_, _, hforward, Sends.push s sock.id _, hstep _ (Sends.push s sock.id _) ?_ ?_⟩
    · intro sent hsent
      obtain ⟨piece, -, rfl⟩ := List.mem_map.mp hsent
      rfl
    · exact fun sock' _ hlater => hforwarded.taken halive sender hfits hlater
  · have hkilled := Sends.setKilled s sock.id
    refine ⟨_, _, hforward, hkilled, hstep [] (hquiet hkilled) hnone ?_⟩
    intro sock' hsock' hlater
    rcases (mem_modifyKey hassigned.socks hfind).mp hsock' with rfl | ⟨-, hne⟩
    · exact hforwarded.grow packet rfl rfl
    · exact absurd hlater.id hne

/-! ## Datagrams -/

/-- The socket that listens, after the remote address has been set. -/
theorem handle_isolated {s : TunnelState} (h : Assigned listener s)
    (hiso : Isolated cfg closes s.socks s.since) (hnuke : s.nuke = false) (hsock : sock ∈ s.socks)
    (hkind : sock.kind = .listener) {target conn : Nat} (hfree : s.free target conn = true)
    {connected : Bool} (ok : Bool) (htakes : Takes s sender connected)
    (hfits : cfg.target.stream = true ∨ packet ≠ [] ∧ packet.length ≤ svzUdpMsgSize) :
    ∃ s', tnlHandleRequestSource cfg s { sock with remote := sender } packet target conn connected
        ok = some s' ∧ Assigned listener s' ∧ s'.since = s.since ∧ Isolated cfg closes s'.socks
          (Function.update s.since sender
            (if (findKey Prod.fst (tnlAddr sender) s.client).isNone then [packet]
              else s.since sender ++ [packet])) := by
  unfold tnlHandleRequestSource
  dsimp only
  cases hfind : findKey Prod.fst (tnlAddr sender) s.client with
  | some e =>
    obtain ⟨t, ht, htkind, hclient, c, hc, hown⟩ := h.of_entry hnuke hfind
    have halive : t.killed = false := by
      rcases htakes with ⟨t', ht', htkind', hclient', halive⟩ | ⟨-, hno⟩
      · obtain rfl := h.once ht ht' htkind htkind' (hclient.trans hclient'.symm)
        exact halive
      · exact absurd hclient (hno t ht htkind)
    have hiso' : Isolated cfg closes s.socks (Function.update s.since sender (s.since sender)) := by
      rw [Function.update_eq_self]
      exact hiso
    obtain ⟨s', new, hs', hsends, hiso''⟩ :=
      hiso'.forward h ht htkind hclient halive ok hfits
    dsimp only
    rw [hc, Option.bind_some, hown, Option.bind_some, hs']
    exact ⟨s', rfl, h.sends hsends, hsends.since, hiso''⟩
  | none =>
    have hno : ∀ a ∈ s.socks, a.kind = .target → a.client ≠ sender :=
      fun a ha => h.of_noEntry hfind ha
    have hconnected : connected = true := by
      rcases htakes with ⟨t, ht, htkind, hclient, -⟩ | ⟨hconnected, -⟩
      · exact absurd hclient (hno t ht htkind)
      · exact hconnected
    have hcreate := h.create cfg hfree hsock hkind hnuke hfind
    dsimp only
    rw [if_pos hconnected]
    -- the new target has been sent nothing, and nothing has come from its client before
    have hiso' : Isolated cfg closes { tnlCreate cfg s sock.id target conn sender with
        client := (tnlAddr sender, conn) :: s.client }.socks
          (Function.update s.since sender []) := by
      refine ⟨fun a ha b hb => hcreate.once ha hb, fun a ha hakind packet hpacket => ?_,
        fun a ha hakind => ?_, fun a ha hakind packet hpacket hclose => ?_⟩
      · rcases List.mem_cons.mp ha with rfl | ha
        · exact absurd hpacket List.not_mem_nil
        · exact hiso.owner a ha hakind packet hpacket
      · rcases List.mem_cons.mp ha with rfl | ha
        · rw [Function.update_self]
          refine ⟨?_, fun _ => ?_⟩
          · split <;> exact List.prefix_rfl
          · split <;> rfl
        · rw [Function.update_of_ne (hno a ha hakind)]
          exact hiso.forwarded a ha hakind
      · rcases List.mem_cons.mp ha with rfl | ha
        · exact absurd hpacket List.not_mem_nil
        · exact hiso.replies a ha hakind packet hpacket hclose
    obtain ⟨s', new, hs', hsends, hiso''⟩ :=
      hiso'.forward hcreate List.mem_cons_self rfl rfl rfl ok hfits
    exact ⟨s', hs', hcreate.sends hsends, hsends.since, hiso''⟩

theorem handle_unheard (cfg : TunnelConfig) {s : TunnelState} (h : Assigned listener s)
    (hnuke : s.nuke = false) (sock : TnlSocket) (target conn : Nat) (packet : List UInt8)
    {connected : Bool} (ok : Bool) (htakes : ¬ Takes s sender connected) :
    tnlHandleRequestSource cfg s { sock with remote := sender } packet target conn connected ok =
      some s := by
  obtain ⟨hkilled, hnew⟩ := not_or.mp htakes
  unfold tnlHandleRequestSource
  dsimp only
  cases hfind : findKey Prod.fst (tnlAddr sender) s.client with
  | some e =>
    obtain ⟨t, ht, htkind, hclient, c, hc, hown⟩ := h.of_entry hnuke hfind
    have hdead : t.killed = true := by
      by_contra halive
      exact hkilled ⟨t, ht, htkind, hclient, Bool.eq_false_iff.mpr halive⟩
    have hat : s.sockAt t.id = some t := findKey_of_mem h.socks ht rfl
    dsimp only
    rw [hc, Option.bind_some, hown, Option.bind_some]
    rcases forward_cases cfg hat packet sender ok with
      ⟨-, hforward⟩ | ⟨⟨halive, -⟩, -⟩ | ⟨⟨halive, -⟩, -⟩
    · exact hforward
    · exact absurd (halive.symm.trans hdead) Bool.false_ne_true
    · exact absurd (halive.symm.trans hdead) Bool.false_ne_true
  | none =>
    have hconnected : ¬ connected = true :=
      fun hconnected => hnew ⟨hconnected, fun a ha => h.of_noEntry hfind ha⟩
    dsimp only
    rw [if_neg hconnected]

theorem takes_setRemote (id : Nat) (remote sender : Dest) (connected : Bool) :
    Takes (s.setRemote id remote) sender connected ↔ Takes s sender connected := by
  obtain ⟨f, hsocks, hsame⟩ : ∃ f : TnlSocket → TnlSocket,
      (s.setRemote id remote).socks = s.socks.map f ∧
        ∀ a, (f a).kind = a.kind ∧ (f a).client = a.client ∧ (f a).killed = a.killed := by
    refine ⟨_, rfl, fun a => ?_⟩
    split <;> exact ⟨rfl, rfl, rfl⟩
  unfold Takes
  simp only [hsocks, List.mem_map, exists_exists_and_eq_and, forall_exists_index, and_imp,
    forall_apply_eq_imp_iff₂, hsame]

theorem read_isolated (h : Assigned listener s) (hiso : Isolated cfg closes s.socks s.since)
    (hnuke : s.nuke = false) (hsock : sock ∈ s.socks) (hkind : sock.kind = .listener)
    {target conn : Nat} (hfree : s.free target conn = true) {connected : Bool} (ok : Bool)
    (hsome : ¬ (cfg.source = .udp ∧ packet = []))
    (hkeeps : cfg.denies sender.addr = false → Takes s sender connected → sock.recvBuffer = [] ∧
      packet.length ≤ cfg.recvBufferSize ∧
      (cfg.target.stream = true ∨ packet ≠ [] ∧ packet.length ≤ svzUdpMsgSize)) :
    ∃ s', readSocket cfg s sock target conn sender packet connected ok = some s' ∧
      Assigned listener s' ∧ s'.since = s.since ∧ Isolated cfg closes s'.socks
        (Function.update s.since sender (if cfg.denies sender.addr then s.since sender
          else if (findKey Prod.fst (tnlAddr sender) s.client).isNone then [packet]
          else s.since sender ++ [packet])) := by
  have hremote := Sends.setRemote s sock.id sender
  have h₀ := h.sends hremote
  by_cases hdenied : cfg.denies sender.addr = true
  · rw [if_pos hdenied, Function.update_eq_self]
    have hquiet {s' : TunnelState} (hsends : Sends s s' (fun _ => [])) :
        Assigned listener s' ∧ s'.since = s.since ∧ Isolated cfg closes s'.socks s.since :=
      ⟨h.sends hsends, hsends.since, hiso.quiet h hsends⟩
    unfold readSocket
    dsimp only
    split_ifs
    · exact ⟨_, rfl, hquiet (Sends.setKilled s sock.id)⟩
    · exact ⟨_, rfl, hquiet (hremote.trans (Sends.setKilled _ sock.id))⟩
    · exact ⟨_, rfl, hquiet (hremote.trans (Sends.setBuffer _ sock.id _))⟩
  · rw [if_neg hdenied]
    by_cases htakes : Takes s sender connected
    · obtain ⟨hbuffer, hlength, hfits⟩ := hkeeps (Bool.eq_false_iff.mpr hdenied) htakes
      have hroom : cfg.recvBufferSize - sock.recvBuffer.length = cfg.recvBufferSize := by
        rw [hbuffer]
        rfl
      have htake : sock.recvBuffer ++ packet.take cfg.recvBufferSize = packet := by
        rw [hbuffer, List.nil_append, List.take_of_length_le hlength]
      have hudp : ¬ (cfg.source = .udp ∧ cfg.recvBufferSize = 0) := fun hzero =>
        hsome ⟨hzero.1, List.length_eq_zero_iff.mp (by omega)⟩
      have hicmp : ¬ (cfg.source ≠ .udp ∧ cfg.recvBufferSize < packet.length) := by omega
      have hmem : { sock with remote := sender } ∈ (s.setRemote sock.id sender).socks :=
        (mem_modifyKey h.socks (findKey_of_mem h.socks hsock rfl)).mpr (Or.inl rfl)
      obtain ⟨s', hs', h', hsince, hiso'⟩ := handle_isolated h₀ (hiso.quiet h hremote) hnuke hmem
        hkind ((hremote.free target conn).trans hfree) ok ((takes_setRemote _ _ _ _).mpr htakes)
        hfits
      have hbuffered := Sends.setBuffer s' sock.id []
      unfold readSocket
      dsimp only
      rw [hroom, if_neg hudp, if_neg hicmp, if_neg hdenied, htake]
      exact ⟨_, congrArg (Option.map _) hs', h'.sends hbuffered, hsince,
        hiso'.quiet h' hbuffered⟩
    · obtain ⟨hkilled, hnew⟩ := not_or.mp htakes
      generalize hheard : (if (findKey Prod.fst (tnlAddr sender) s.client).isNone then [packet]
        else s.since sender ++ [packet]) = heard
      have hquiet {s' : TunnelState} (hsends : Sends s s' (fun _ => [])) :
          Assigned listener s' ∧ s'.since = s.since ∧
            Isolated cfg closes s'.socks (Function.update s.since sender heard) := by
        refine ⟨h.sends hsends, hsends.since, hiso.unheard h hsends (fun t ht htkind hclient => ?_)⟩
        refine ⟨?_, packet, hheard.symm.trans (if_neg (fun hnone => ?_))⟩
        · by_contra halive
          exact hkilled ⟨t, ht, htkind, hclient, Bool.eq_false_iff.mpr halive⟩
        · exact h.of_noEntry (Option.isNone_iff_eq_none.mp hnone) ht htkind hclient
      unfold readSocket
      dsimp only
      split_ifs
      · exact ⟨_, rfl, hquiet (Sends.setKilled s sock.id)⟩
      · exact ⟨_, rfl, hquiet (hremote.trans (Sends.setKilled _ sock.id))⟩
      · have hunheard := handle_unheard cfg h₀ hnuke sock target conn (sock.recvBuffer ++
          packet.take (cfg.recvBufferSize - sock.recvBuffer.length)) ok
          (mt (takes_setRemote _ _ _ _).mp htakes)
        rw [hunheard]
        exact ⟨_, rfl, hquiet (hremote.trans (Sends.setBuffer _ sock.id _))⟩

/-! ## Answers -/

theorem Assigned.fault (h : Assigned listener s) : Assigned listener { s with faulted := true } :=
  ⟨h.socks, h.conns, h.keys, h.values, h.kinds, h.entry⟩

theorem reply_isolated (h : Assigned listener s) (hsock : sock ∈ s.socks)
    (hkind : sock.kind = .target) (shuts : Bool) (packet : List UInt8) (ok : Bool) :
    answer shuts cfg s sock packet ok = none ∨
      ∃ r new, answer shuts cfg s sock packet ok = some r ∧ Sends s r.1 new ∧
        ∀ i, ∀ packet ∈ new i, i = listener ∧ packet.dest = packet.owner := by
  obtain ⟨-, c, hc, hdata, hx, -, haddr, -⟩ := h.owns hsock hkind
  have hconn : s.connAt c.id = some c := findKey_of_mem h.conns hc rfl
  cases hlive : (s.sockAt listener).isSome with
  | true =>
    obtain ⟨r, new, hr, hsends, hnew⟩ :=
      answer_sends cfg h.socks hdata hconn hx hlive shuts packet ok
    refine Or.inr ⟨r, new, hr, hsends, fun i packet hpacket => ?_⟩
    obtain ⟨hid, hdest, howner, -⟩ := hnew i packet hpacket
    exact ⟨hid, hdest.trans (haddr.trans howner.symm)⟩
  | false =>
    have hgone := (Sends.setRemote s listener c.addr).sockAt_isSome listener
    rw [hlive, Option.isSome_eq_false_iff, Option.isNone_iff_eq_none] at hgone
    refine Or.inl ?_
    unfold answer tnlSendRequestTarget write
    rw [hdata]
    dsimp only
    rw [hconn, Option.bind_some, hx]
    dsimp only
    rw [hgone, Option.map_none, Option.bind_none]

/-! ## Targets that go -/

theorem shutdown_isolated (hstream : cfg.source.stream = false) (h : Assigned listener s)
    (hiso : Isolated cfg closes s.socks s.since) {id : Nat} {ok : Bool}
    (hfind : s.sockAt id = some sock)
    (hkeeps : closes = true → KeepsCloses cfg s (.shutdown id ok)) :
    let s' := settle s (svzSockShutdown cfg s sock ok)
    Assigned listener s' ∧ Isolated cfg closes s'.socks s'.since := by
  obtain ⟨hsock, hid⟩ := sockAt_mem hfind
  have hsub (s' : TunnelState) : (s'.freeSock sock.id).socks ⊆ s'.socks :=
    fun _ ha => (mem_removeKey.mp ha).1
  unfold svzSockShutdown
  rcases h.kinds sock hsock with ⟨hkind, hlistener⟩ | ⟨hkind, -, c, hc, hdata, hx, hown, -⟩
  · rw [hkind]
    refine ⟨h.freeSock (fun _ a ha hakind => ?_), hiso.subset (hsub s)⟩
    rw [hlistener]
    exact (h.owns ha hakind).1
  · have hnot : ¬ cfg.source.stream = true := fun h => Bool.false_ne_true (hstream.symm.trans h)
    have hconn : s.connAt c.id = some c := findKey_of_mem h.conns hc rfl
    rw [hkind]
    dsimp only
    unfold tnlDisconnectTarget
    rw [hdata]
    dsimp only
    by_cases hnuke : s.nuke = true
    · rw [if_pos hnuke, if_neg hnot, Option.map_some]
      exact ⟨h.freeSock (fun hup => absurd (hup.symm.trans hnuke) Bool.false_ne_true),
        hiso.subset (hsub s)⟩
    · rw [if_neg hnuke, hconn, Option.bind_some,
        if_neg (fun hcheck => Option.some_ne_none listener (hx.symm.trans hcheck.2))]
      -- the message that the target is gone, and then the target goes
      have hleave {s₁ : TunnelState} {new : Nat → List Packet} (hsends : Sends s s₁ new)
          (hnew : ∀ i, ∀ packet ∈ new i, i = listener ∧ ((packet.close = true → closes = true) →
            packet.dest = packet.owner)) :
          let s' := (deleteClient s₁ c.id).freeSock sock.id
          Assigned listener s' ∧ Isolated cfg closes s'.socks s'.since := by
        obtain ⟨sock₁, hsock₁, hlater⟩ := hsends.exists_after hsock
        have h₁ := (h.sends hsends).leave hsock₁ (hlater.kind.trans hkind)
          (hlater.data.trans hdata)
        rw [hlater.id] at h₁
        have hboth : (deleteClient s₁ c.id).socks = s₁.socks ∧
            (deleteClient s₁ c.id).since = s₁.since := by
          unfold deleteClient
          split <;> exact ⟨rfl, rfl⟩
        refine ⟨h₁, ?_⟩
        have hiso₁ := hiso.answers h hsends hnew
        rw [show ((deleteClient s₁ c.id).freeSock sock.id).since = s.since from
          hboth.2.trans hsends.since]
        exact hiso₁.subset (fun a ha => hboth.1 ▸ hsub _ ha)
      by_cases hicmp : cfg.source = .icmp
      · rw [if_pos hicmp, hx, Option.bind_some]
        cases hlive : s.sockAt listener with
        | none =>
          unfold svzIcmpSendControl
          rw [hlive]
          exact ⟨h.fault, hiso⟩
        | some source =>
          obtain ⟨s₁, new, hs₁, hsends, hnew, hsome⟩ := control_sends hlive sock.client ok
          rw [hs₁, Option.bind_some, if_neg hnot]
          refine hleave hsends (fun i packet hpacket => ?_)
          obtain ⟨rfl, rfl⟩ := hnew i packet hpacket
          refine ⟨rfl, fun hcloses => ?_⟩
          obtain ⟨halive, hok⟩ := hsome.mp (List.ne_nil_of_mem hpacket)
          obtain ⟨hmem, hsid⟩ := sockAt_mem hlive
          have hskind : source.kind = .listener := by
            rcases h.kinds source hmem with ⟨hskind, -⟩ | ⟨-, hne, -⟩
            · exact hskind
            · exact absurd hsid hne
          exact hkeeps (hcloses rfl) hicmp (Bool.eq_false_iff.mpr hnuke) hok sock hfind hkind source
            hmem hskind halive
      · rw [if_neg hicmp, Option.bind_some, if_neg hnot]
        exact hleave (Sends.refl s) (fun _ _ hpacket => absurd hpacket List.not_mem_nil)

/-! ## Steps -/

theorem step_isolated {event : TunnelEvent} (hstream : cfg.source.stream = false)
    (h : Assigned listener s) (hiso : Isolated cfg closes s.socks s.since)
    (hstep : tunnelStep cfg s event = some s') (hkeeps : KeepsIsolation cfg closes s event) :
    Assigned listener s' ∧ Isolated cfg closes s'.socks s'.since := by
  have hquiet {s' : TunnelState} (hsends : Sends s s' (fun _ => [])) :
      Assigned listener s' ∧ Isolated cfg closes s'.socks s'.since := by
    rw [hsends.since]
    exact ⟨h.sends hsends, hiso.quiet h hsends⟩
  cases event with
  | accept id target conn remote connected =>
    simp only [tunnelStep] at hstep
    split at hstep
    · cases hstep
    · next hguard => exact absurd (Or.inr (Or.inr (Or.inl hstream))) hguard
  | datagram id target conn sender packet connected ok =>
    simp only [tunnelStep] at hstep
    split at hstep
    · cases hstep
    · next hguard =>
      obtain ⟨-, -, hfree, hsome⟩ := by simpa only [not_or, Bool.not_eq_false] using hguard
      obtain ⟨sock, hreads, rfl⟩ := Option.map_eq_some_iff.mp hstep
      obtain ⟨hmem, hsock, hkind, hnuke, -⟩ := of_reads hreads
      obtain ⟨s₁, hs₁, h₁, hsince, hiso₁⟩ := read_isolated h hiso hnuke hmem hkind hfree ok hsome
        (fun hdenied htakes => hkeeps.1 hdenied htakes sock hsock)
      rw [hs₁]
      refine ⟨⟨h₁.socks, h₁.conns, h₁.keys, h₁.values, h₁.kinds, h₁.entry⟩, ?_⟩
      show Isolated cfg closes s₁.socks (Function.update s₁.since sender _)
      rw [hsince]
      exact hiso₁
  | stray id addr =>
    simp only [tunnelStep] at hstep
    split at hstep
    · cases hstep
    · obtain ⟨sock, -, rfl⟩ := Option.map_eq_some_iff.mp hstep
      exact hquiet (Sends.setRemote s id _)
  | data id packet ok =>
    simp only [tunnelStep] at hstep
    split at hstep
    · cases hstep
    · obtain ⟨sock, hreads, rfl⟩ := Option.map_eq_some_iff.mp hstep
      obtain ⟨hmem, -, hkind, -, -⟩ := of_reads hreads
      rcases h.kinds sock hmem with ⟨hkind', -⟩ | ⟨hkind', -⟩ <;>
        exact Kind.noConfusion (hkind.symm.trans hkind')
  | reply id packet ok =>
    simp only [tunnelStep] at hstep
    split at hstep
    · cases hstep
    · obtain ⟨sock, hreads, rfl⟩ := Option.map_eq_some_iff.mp hstep
      obtain ⟨hmem, -, hkind, -, -⟩ := of_reads hreads
      have hanswer (shuts ignored : Bool) :
          let s' := settle s ((answer shuts cfg s sock packet ok).map (afterCallback ignored id))
          Assigned listener s' ∧ Isolated cfg closes s'.socks s'.since := by
        rcases reply_isolated h hmem hkind shuts packet ok with hnone | ⟨r, new, hr, hsends, hnew⟩
        · rw [hnone]
          exact ⟨h.fault, hiso⟩
        · rw [hr]
          have hafter := afterCallback_sends ignored id hsends
          have hsince := hafter.since
          refine ⟨h.sends hafter, ?_⟩
          have hiso' := hiso.answers h hafter (fun i packet hpacket =>
            ⟨(hnew i packet hpacket).1, fun _ => (hnew i packet hpacket).2⟩)
          rw [← hsince] at hiso'
          exact hiso'
      unfold tnlCheckRequestTcpTarget tnlHandleRequestUdpTarget tnlHandleRequestIcmpTarget
      cases cfg.target with
      | tcp => exact hanswer true false
      | pipe => exact hanswer true false
      | udp => exact hanswer cfg.source.stream false
      | icmp => exact hanswer cfg.source.stream true
  | kill id =>
    simp only [tunnelStep] at hstep
    split at hstep
    · cases hstep
    · obtain ⟨sock, -, rfl⟩ := Option.map_eq_some_iff.mp hstep
      exact hquiet (Sends.setKilled s id)
  | shutdown id ok =>
    simp only [tunnelStep] at hstep
    split at hstep
    · cases hstep
    · obtain ⟨sock, hfilter, rfl⟩ := Option.map_eq_some_iff.mp hstep
      obtain ⟨hsock, -⟩ := Option.filter_eq_some_iff.mp hfilter
      exact shutdown_isolated hstream h hiso hsock hkeeps.2
  | nuke =>
    simp only [tunnelStep] at hstep
    split at hstep
    · cases hstep
    · obtain rfl := Option.some.inj hstep
      exact ⟨⟨h.socks, h.conns, h.keys, h.values, h.kinds,
        fun hup => absurd hup.symm Bool.false_ne_true⟩, hiso⟩

end Assigned

end Serveez.Tunnel
