import Serveez.Tunnel.Writing

/-!
# Liveness of the peers in a tunnel

While every structure links a source and a target that are both there, a callback finds its peer.
When one side goes, only a stream on the other side is told, and told by a callback that has no
structure left to look into.

* `Coupled`: the structures that are there, and what points to them.
* `peersLive_iff`: the peers are there in all states of a run just when no step leaves one behind.
-/

namespace Serveez.Tunnel

open Lib Udp

/-- A structure has not been freed, and its sockets have not. -/
def Alive (s : TunnelState) (conn : Nat) : Prop :=
  ∃ c, s.connAt conn = some c ∧
    (∀ id, c.sourceSock = some id → (s.sockAt id).isSome = true) ∧
    ∀ id, c.targetSock = some id → (s.sockAt id).isSome = true

structure PeersLive (s : TunnelState) : Prop where
  faultless : s.faulted = false
  data : ∀ sock ∈ s.socks, ∀ conn, sock.data = some conn → Alive s conn
  client : ∀ entry ∈ s.client, Alive s entry.2

/-- A socket that goes leaves no peer behind, and finds its structure unless that is checked. -/
def KeepsPeers (cfg : TunnelConfig) (s : TunnelState) : TunnelEvent → Prop
  | .shutdown id _ => ∀ sock, s.sockAt id = some sock →
    match sock.kind with
    | .listener => ∀ c ∈ s.conns, c.sourceSock ≠ some id
    | .source =>
      if cfg.target.stream then sock.data ≠ none ∨ cfg.debug = true else sock.data = none
    | .target =>
      if s.nuke then cfg.source.stream = true ∨ sock.data = none
      else sock.data ≠ none ∨ cfg.debug = true
  | _ => True

/-! ## What is linked -/

/-- A socket of a kind, with what it points to. -/
def Side (s : TunnelState) (kind : Kind) (id : Nat) (data : Option Nat) : Prop :=
  ∃ sock ∈ s.socks, sock.id = id ∧ sock.kind = kind ∧ sock.data = data

/-- A structure links its sockets, or a target with the socket that listens. -/
def Linked (cfg : TunnelConfig) (s : TunnelState) (c : TnlConnect) : Prop :=
  ∃ x y, c.sourceSock = some x ∧ c.targetSock = some y ∧ Side s .target y (some c.id) ∧
    if cfg.source.stream then Side s .source x (some c.id)
    else Side s .listener x none ∧ ∃ entry ∈ s.client, entry.2 = c.id

/-- The structure that a socket points to is its own. -/
def Held (s : TunnelState) (sock : TnlSocket) (conn : Nat) : Prop :=
  ∃ c ∈ s.conns, c.id = conn ∧ (sock.kind = .target ∧ c.targetSock = some sock.id ∨
    sock.kind = .source ∧ c.sourceSock = some sock.id)

structure Coupled (cfg : TunnelConfig) (s : TunnelState) : Prop where
  socks : Keyed TnlSocket.id s.socks
  conns : Keyed TnlConnect.id s.conns
  keys : Keyed Prod.fst s.client
  values : Keyed Prod.snd s.client
  linked : ∀ c ∈ s.conns, Linked cfg s c
  held : ∀ sock ∈ s.socks, ∀ conn, sock.data = some conn → Held s sock conn
  entry : ∀ entry ∈ s.client, ∃ c ∈ s.conns, c.id = entry.2
  stream : cfg.source.stream = true → s.client = []
  idle : ∀ sock ∈ s.socks, sock.data = none →
    sock.kind = .listener ∨ sock.killed = true ∨ s.nuke = true

section Coupled

variable {cfg : TunnelConfig} {s s' : TunnelState} {sock : TnlSocket} {c : TnlConnect}

namespace Coupled

theorem sockAt (h : Coupled cfg s) (hsock : sock ∈ s.socks) : s.sockAt sock.id = some sock :=
  findKey_of_mem h.socks hsock rfl

theorem connAt (h : Coupled cfg s) (hc : c ∈ s.conns) : s.connAt c.id = some c :=
  findKey_of_mem h.conns hc rfl

theorem side_eq (h : Coupled cfg s) (hsock : sock ∈ s.socks) {kind : Kind} {data : Option Nat}
    (hside : Side s kind sock.id data) : sock.kind = kind ∧ sock.data = data := by
  obtain ⟨other, hother, hid, hkind, hdata⟩ := hside
  obtain rfl := h.socks.eq_of_key hsock hother hid.symm
  exact ⟨hkind, hdata⟩

theorem alive (h : Coupled cfg s) (hc : c ∈ s.conns) : Alive s c.id := by
  obtain ⟨x, y, hx, hy, ⟨target, htarget, hyid, -⟩, hsource⟩ := h.linked c hc
  refine ⟨c, h.connAt hc, fun id hid => ?_, fun id hid => ?_⟩
  · obtain rfl := Option.some.inj (hx.symm.trans hid)
    obtain ⟨source, hmem, rfl⟩ : ∃ source ∈ s.socks, source.id = x := by
      split at hsource
      · obtain ⟨source, hmem, hid, -⟩ := hsource
        exact ⟨source, hmem, hid⟩
      · obtain ⟨⟨source, hmem, hid, -⟩, -⟩ := hsource
        exact ⟨source, hmem, hid⟩
    rw [h.sockAt hmem]
    rfl
  · obtain rfl := Option.some.inj (hy.symm.trans hid)
    rw [← hyid, h.sockAt htarget]
    rfl

theorem peersLive (h : Coupled cfg s) (hfaulted : s.faulted = false) : PeersLive s := by
  refine ⟨hfaulted, fun sock hsock conn hdata => ?_, fun entry hentry => ?_⟩
  · obtain ⟨c, hc, rfl, -⟩ := h.held sock hsock conn hdata
    exact h.alive hc
  · obtain ⟨c, hc, hid⟩ := h.entry entry hentry
    rw [← hid]
    exact h.alive hc

theorem of_target (h : Coupled cfg s) (hsock : sock ∈ s.socks) (hkind : sock.kind = .target)
    {conn : Nat} (hdata : sock.data = some conn) :
    ∃ c ∈ s.conns, c.id = conn ∧ c.targetSock = some sock.id := by
  obtain ⟨c, hc, hid, ⟨-, hown⟩ | ⟨hsource, -⟩⟩ := h.held sock hsock conn hdata
  · exact ⟨c, hc, hid, hown⟩
  · rw [hkind] at hsource
    exact Kind.noConfusion hsource

theorem of_source (h : Coupled cfg s) (hsock : sock ∈ s.socks) (hkind : sock.kind = .source)
    {conn : Nat} (hdata : sock.data = some conn) :
    ∃ c ∈ s.conns, c.id = conn ∧ c.sourceSock = some sock.id := by
  obtain ⟨c, hc, hid, ⟨htarget, -⟩ | ⟨-, hown⟩⟩ := h.held sock hsock conn hdata
  · rw [hkind] at htarget
    exact Kind.noConfusion htarget
  · exact ⟨c, hc, hid, hown⟩

end Coupled

/-! ## What is written -/

theorem Sends.side {new : Nat → List Packet} (h : Sends s s' new) {kind : Kind} {id : Nat}
    {data : Option Nat} (hside : Side s kind id data) : Side s' kind id data := by
  obtain ⟨sock, hsock, rfl, rfl, rfl⟩ := hside
  obtain ⟨sock', hsock', hlater⟩ := h.exists_after hsock
  exact ⟨sock', hsock', hlater.id, hlater.kind, hlater.data⟩

/-- The sockets point to what they pointed to, and those that are killed stay so. -/
theorem Sends.coupled {new : Nat → List Packet} (h : Sends s s' new) (hcoupled : Coupled cfg s) :
    Coupled cfg s' := by
  refine ⟨h.keyed hcoupled.socks, h.conns ▸ hcoupled.conns, h.client ▸ hcoupled.keys,
    h.client ▸ hcoupled.values, fun c hc => ?_, fun sock hsock conn hdata => ?_, ?_,
    fun hstream => ?_, fun sock hsock hdata => ?_⟩
  · rw [h.conns] at hc
    obtain ⟨x, y, hx, hy, htarget, hsource⟩ := hcoupled.linked c hc
    refine ⟨x, y, hx, hy, h.side htarget, ?_⟩
    split
    · next hstream =>
      rw [if_pos hstream] at hsource
      exact h.side hsource
    · next hstream =>
      rw [if_neg hstream] at hsource
      rw [h.client]
      exact ⟨h.side hsource.1, hsource.2⟩
  · obtain ⟨old, hold, hlater⟩ := h.exists_before hsock
    obtain ⟨c, hc, hconn, hown⟩ := hcoupled.held old hold conn (hlater.data.symm.trans hdata)
    refine ⟨c, h.conns ▸ hc, hconn, ?_⟩
    rw [hlater.id, hlater.kind]
    exact hown
  · rw [h.client, h.conns]
    exact hcoupled.entry
  · rw [h.client]
    exact hcoupled.stream hstream
  · obtain ⟨old, hold, hlater⟩ := h.exists_before hsock
    rw [hlater.kind, h.nuke]
    exact (hcoupled.idle old hold (hlater.data.symm.trans hdata)).imp_right
      (fun h => h.imp_left hlater.killed)

/-- A source that is read from finds its target. -/
theorem source_sends (h : Coupled cfg s) (hsock : sock ∈ s.socks) (hkind : sock.kind = .source)
    (hdata : sock.data ≠ none) (packet : List UInt8) (ok : Bool) :
    ∃ r new, tnlCheckRequestTcpSource cfg s sock packet ok = some r ∧ Sends s r.1 new := by
  obtain ⟨conn, hconn⟩ := Option.ne_none_iff_exists'.mp hdata
  obtain ⟨c, hc, rfl, -⟩ := h.of_source hsock hkind hconn
  obtain ⟨c', hc', -, hlive⟩ := h.alive hc
  obtain rfl := Option.some.inj ((h.connAt hc).symm.trans hc')
  obtain ⟨x, y, -, hy, -⟩ := h.linked c hc
  unfold tnlCheckRequestTcpSource tnlSendRequestSource
  rw [hconn]
  dsimp only
  rw [hc', Option.bind_some, hy]
  obtain ⟨target, htarget⟩ := Option.isSome_iff_exists.mp (hlive y hy)
  obtain ⟨r, new, hr, hsends, -⟩ := write_sends cfg.target htarget packet c.addr ok
  exact ⟨r, new, hr, hsends⟩

/-- A target that is read from finds its source. -/
theorem target_sends (h : Coupled cfg s) (hsock : sock ∈ s.socks) (hkind : sock.kind = .target)
    (hdata : sock.data ≠ none) (closes : Bool) (packet : List UInt8) (ok : Bool) :
    ∃ r new, answer closes cfg s sock packet ok = some r ∧ Sends s r.1 new := by
  obtain ⟨conn, hconn⟩ := Option.ne_none_iff_exists'.mp hdata
  obtain ⟨c, hc, rfl, -⟩ := h.of_target hsock hkind hconn
  obtain ⟨c', hc', hlive, -⟩ := h.alive hc
  obtain rfl := Option.some.inj ((h.connAt hc).symm.trans hc')
  obtain ⟨x, y, hx, -⟩ := h.linked c hc
  obtain ⟨r, new, hr, hsends, -⟩ :=
    answer_sends cfg h.socks hconn hc' hx (hlive x hx) closes packet ok
  exact ⟨r, new, hr, hsends⟩

theorem Coupled.of_reads (h : Coupled cfg s) {id : Nat} {kind : Kind}
    (hreads : s.reads id kind = some sock) :
    sock ∈ s.socks ∧ sock.id = id ∧ sock.kind = kind ∧ (kind ≠ .listener → sock.data ≠ none) := by
  obtain ⟨hmem, hsock, hkind, hnuke, hkilled⟩ := Tunnel.of_reads hreads
  refine ⟨hmem, (sockAt_mem hsock).2, hkind, fun hnot hnone => ?_⟩
  rcases h.idle sock hmem hnone with hlistener | hkilled' | hnuke'
  · exact hnot (hkind.symm.trans hlistener)
  · exact Bool.false_ne_true (hkilled.symm.trans hkilled')
  · exact Bool.false_ne_true (hnuke.symm.trans hnuke')

/-! ## New targets -/

theorem Side.grow {kind : Kind} {id : Nat} {data : Option Nat} (h : Side s kind id data)
    (hsub : s.socks ⊆ s'.socks) : Side s' kind id data := by
  obtain ⟨sock, hsock, hown⟩ := h
  exact ⟨sock, hsub hsock, hown⟩

/-- Sockets and structures are added, with the links among them. -/
theorem Coupled.grow (h : Coupled cfg s) (socks : List TnlSocket) (conns : List TnlConnect)
    (client : List (List Char × Nat)) (hsocks' : s'.socks = socks ++ s.socks)
    (hconns' : s'.conns = conns ++ s.conns) (hclient' : s'.client = client ++ s.client)
    (hnuke : s'.nuke = s.nuke) (hsocks : Keyed TnlSocket.id s'.socks)
    (hconns : Keyed TnlConnect.id s'.conns) (hkeys : Keyed Prod.fst s'.client)
    (hvalues : Keyed Prod.snd s'.client) (hlinked : ∀ c ∈ conns, Linked cfg s' c)
    (hheld : ∀ sock ∈ socks, ∀ conn, sock.data = some conn → Held s' sock conn)
    (hentry : ∀ e ∈ client, ∃ c ∈ s'.conns, c.id = e.2)
    (hstream : cfg.source.stream = true → client = [])
    (hidle : ∀ sock ∈ socks, sock.data = none → sock.killed = true) : Coupled cfg s' := by
  have hsub : s.socks ⊆ s'.socks := hsocks' ▸ List.subset_append_right socks s.socks
  have hold : s.conns ⊆ s'.conns := hconns' ▸ List.subset_append_right conns s.conns
  refine ⟨hsocks, hconns, hkeys, hvalues, fun c hc => ?_, fun sock hsock conn hdata => ?_,
    fun e he => ?_, fun hsource => ?_, fun sock hsock hdata => ?_⟩
  · rw [hconns'] at hc
    rcases List.mem_append.mp hc with hc | hc
    · exact hlinked c hc
    · obtain ⟨x, y, hx, hy, htarget, hsource⟩ := h.linked c hc
      refine ⟨x, y, hx, hy, htarget.grow hsub, ?_⟩
      split
      · next hstream =>
        rw [if_pos hstream] at hsource
        exact hsource.grow hsub
      · next hstream =>
        rw [if_neg hstream] at hsource
        obtain ⟨hlistener, entry, hentry, hid⟩ := hsource
        exact ⟨hlistener.grow hsub, entry, hclient' ▸ List.mem_append_right client hentry, hid⟩
  · rw [hsocks'] at hsock
    rcases List.mem_append.mp hsock with hsock | hsock
    · exact hheld sock hsock conn hdata
    · obtain ⟨c, hc, hid, hown⟩ := h.held sock hsock conn hdata
      exact ⟨c, hold hc, hid, hown⟩
  · rw [hclient'] at he
    rcases List.mem_append.mp he with he | he
    · exact hentry e he
    · obtain ⟨c, hc, hid⟩ := h.entry e he
      exact ⟨c, hold hc, hid⟩
  · rw [hclient', hstream hsource, h.stream hsource]
    rfl
  · rw [hsocks'] at hsock
    rw [hnuke]
    rcases List.mem_append.mp hsock with hsock | hsock
    · exact Or.inr (Or.inl (hidle sock hsock hdata))
    · exact h.idle sock hsock hdata

theorem connect_coupled (h : Coupled cfg s) {sock target conn : Nat}
    (hstream : cfg.source.stream = true) (hsock : s.sockAt sock = none)
    (hfree : s.free target conn = true) (hne : sock ≠ target) (remote : Dest) (connected : Bool) :
    Coupled cfg (tnlConnectSocket cfg s sock target conn remote connected) := by
  unfold TunnelState.free at hfree
  simp only [Bool.and_eq_true, Option.isNone_iff_eq_none] at hfree
  obtain ⟨htarget, hconn⟩ := hfree
  unfold tnlConnectSocket
  dsimp only
  split
  · next hconnected =>
    have hsocks : Keyed TnlSocket.id (⟨sock, .source, some conn, !connected, remote, [], [],
        remote⟩ :: s.socks) := h.socks.cons hsock
    refine h.grow [_, _] [_] [] rfl rfl rfl rfl ?_ ?_ ?_ ?_ ?_ ?_ ?_ ?_ ?_
    · refine hsocks.cons (findKey_none.mpr (fun other hother => ?_))
      rcases List.mem_cons.mp hother with rfl | hother
      · exact hne
      · exact findKey_none.mp htarget other hother
    · exact h.conns.cons hconn
    · exact h.keys
    · exact h.values
    · intro c hc
      obtain rfl := List.mem_singleton.mp hc
      refine ⟨sock, target, rfl, rfl, ⟨_, List.mem_cons_self, rfl, rfl, rfl⟩, ?_⟩
      rw [if_pos hstream]
      exact ⟨_, List.mem_cons_of_mem _ List.mem_cons_self, rfl, rfl, rfl⟩
    · intro other hother conn' hdata
      refine ⟨_, List.mem_cons_self, ?_⟩
      rcases List.mem_cons.mp hother with rfl | hother
      · exact ⟨Option.some.inj hdata, Or.inl ⟨rfl, rfl⟩⟩
      · obtain rfl := List.mem_singleton.mp hother
        exact ⟨Option.some.inj hdata, Or.inr ⟨rfl, rfl⟩⟩
    · exact fun e he => absurd he List.not_mem_nil
    · exact fun _ => rfl
    · intro other hother hdata
      rcases List.mem_cons.mp hother with rfl | hother
      · exact absurd hdata (Option.some_ne_none conn)
      · obtain rfl := List.mem_singleton.mp hother
        exact absurd hdata (Option.some_ne_none conn)
  · next hconnected =>
    refine h.grow [_] [] [] rfl rfl rfl rfl ?_ ?_ ?_ ?_ ?_ ?_ ?_ ?_ ?_
    · exact h.socks.cons hsock
    · exact h.conns
    · exact h.keys
    · exact h.values
    · exact fun c hc => absurd hc List.not_mem_nil
    · intro other hother conn' hdata
      obtain rfl := List.mem_singleton.mp hother
      exact absurd hdata.symm (Option.some_ne_none conn')
    · exact fun e he => absurd he List.not_mem_nil
    · exact fun _ => rfl
    · intro other hother _
      obtain rfl := List.mem_singleton.mp hother
      show (!connected) = true
      rw [Bool.eq_false_iff.mpr hconnected]
      rfl

theorem create_coupled (h : Coupled cfg s) {target conn : Nat} (hstream : cfg.source.stream = false)
    (hfree : s.free target conn = true) (hsock : sock ∈ s.socks) (hkind : sock.kind = .listener)
    {k : List Char} (hk : findKey Prod.fst k s.client = none) (remote : Dest) :
    Coupled cfg { tnlCreate cfg s sock.id target conn remote with
      client := (k, conn) :: s.client } := by
  unfold TunnelState.free at hfree
  simp only [Bool.and_eq_true, Option.isNone_iff_eq_none] at hfree
  obtain ⟨htarget, hconn⟩ := hfree
  have hdata : sock.data = none := by
    refine Option.eq_none_iff_forall_ne_some.mpr (fun conn' hconn' => ?_)
    obtain ⟨c, -, -, ⟨hother, -⟩ | ⟨hother, -⟩⟩ := h.held sock hsock conn' hconn' <;>
      exact Kind.noConfusion (hkind.symm.trans hother)
  refine h.grow [_] [_] [_] rfl rfl rfl rfl ?_ ?_ ?_ ?_ ?_ ?_ ?_ ?_ ?_
  · exact h.socks.cons htarget
  · exact h.conns.cons hconn
  · exact h.keys.cons hk
  · refine h.values.cons (findKey_none.mpr (fun e he hsame => ?_))
    obtain ⟨c, hc, hid⟩ := h.entry e he
    exact findKey_none.mp hconn c hc (hid.trans hsame)
  · intro c hc
    obtain rfl := List.mem_singleton.mp hc
    refine ⟨sock.id, target, rfl, rfl, ⟨_, List.mem_cons_self, rfl, rfl, rfl⟩, ?_⟩
    rw [if_neg (by rw [hstream]; exact Bool.false_ne_true)]
    exact ⟨⟨sock, List.mem_cons_of_mem _ hsock, rfl, hkind, hdata⟩, _, List.mem_cons_self, rfl⟩
  · intro other hother conn' hdata'
    obtain rfl := List.mem_singleton.mp hother
    exact ⟨_, List.mem_cons_self, Option.some.inj hdata', Or.inl ⟨rfl, rfl⟩⟩
  · intro e he
    obtain rfl := List.mem_singleton.mp he
    exact ⟨_, List.mem_cons_self, rfl⟩
  · exact fun htrue => absurd (hstream.symm.trans htrue) Bool.false_ne_true
  · intro other hother hnone
    obtain rfl := List.mem_singleton.mp hother
    exact absurd hnone (Option.some_ne_none conn)

/-! ## Sockets that go -/

/-- A socket goes that no structure points to. -/
theorem Coupled.freeSock (h : Coupled cfg s) {gone : Nat}
    (hsource : ∀ c ∈ s.conns, c.sourceSock ≠ some gone)
    (htarget : ∀ c ∈ s.conns, c.targetSock ≠ some gone) : Coupled cfg (s.freeSock gone) := by
  have hside {kind : Kind} {id : Nat} {data : Option Nat} (hne : id ≠ gone)
      (hside : Side s kind id data) : Side (s.freeSock gone) kind id data := by
    obtain ⟨other, hother, rfl, hown⟩ := hside
    exact ⟨other, mem_removeKey.mpr ⟨hother, hne⟩, rfl, hown⟩
  refine ⟨h.socks.removeKey gone, h.conns, h.keys, h.values, fun c hc => ?_,
    fun other hother conn hconn => ?_, h.entry, h.stream,
    fun other hother => h.idle other (mem_removeKey.mp hother).1⟩
  · obtain ⟨x, y, hx, hy, hlinked, hown⟩ := h.linked c hc
    have hxne : x ≠ gone := fun heq => hsource c hc (heq ▸ hx)
    refine ⟨x, y, hx, hy, hside (fun heq => htarget c hc (heq ▸ hy)) hlinked, ?_⟩
    split
    · next hstream =>
      rw [if_pos hstream] at hown
      exact hside hxne hown
    · next hstream =>
      rw [if_neg hstream] at hown
      exact ⟨hside hxne hown.1, hown.2⟩
  · exact h.held other (mem_removeKey.mp hother).1 conn hconn

/-- The two sockets of a stream tunnel part: one goes, and the other one points to nothing. -/
theorem Coupled.part (h : Coupled cfg s) {other : TnlSocket} (hstream : cfg.source.stream = true)
    (hc : c ∈ s.conns) (hsock : sock ∈ s.socks) (hother : other ∈ s.socks)
    (hsides : c.sourceSock = some sock.id ∧ c.targetSock = some other.id ∨
      c.sourceSock = some other.id ∧ c.targetSock = some sock.id)
    (hdata : sock.data = some c.id) (hdata' : other.data = some c.id)
    {f : TnlSocket → TnlSocket} (hf : ∀ a, (f a).id = a.id ∧ (f a).kind = a.kind ∧
      (f a).data = none ∧ ((f a).killed = true ∨ s.nuke = true)) :
    Coupled cfg (((s.setSock other.id f).freeConnect c.id).freeSock sock.id) := by
  have hmem (a : TnlSocket) : a ∈ removeKey TnlSocket.id sock.id
      (modifyKey TnlSocket.id other.id f s.socks) ↔
      (a = f other ∨ a ∈ s.socks ∧ a.id ≠ other.id) ∧ a.id ≠ sock.id := by
    rw [mem_removeKey, mem_modifyKey h.socks (h.sockAt hother)]
  -- the sockets of other structures stay
  have hside {kind : Kind} {id conn : Nat} (hne : conn ≠ c.id)
      (hside : Side s kind id (some conn)) :
      Side (((s.setSock other.id f).freeConnect c.id).freeSock sock.id) kind id (some conn) := by
    obtain ⟨a, ha, rfl, hkind, hconn⟩ := hside
    refine ⟨a, (hmem a).mpr ⟨Or.inr ⟨ha, fun heq => hne ?_⟩, fun heq => hne ?_⟩, rfl, hkind, hconn⟩
    · obtain rfl := h.socks.eq_of_key ha hother heq
      exact Option.some.inj (hconn.symm.trans hdata')
    · obtain rfl := h.socks.eq_of_key ha hsock heq
      exact Option.some.inj (hconn.symm.trans hdata)
  refine ⟨?_, h.conns.removeKey c.id, h.keys, h.values, fun c' hc' => ?_,
    fun a ha conn hconn => ?_, fun e he => ?_, h.stream, fun a ha hnone => ?_⟩
  · exact (h.socks.modifyKey other.id (fun a => (hf a).1)).removeKey sock.id
  · obtain ⟨hc', hne⟩ := mem_removeKey.mp hc'
    obtain ⟨x, y, hx, hy, htarget, hsource⟩ := h.linked c' hc'
    rw [if_pos hstream] at hsource
    refine ⟨x, y, hx, hy, hside hne htarget, ?_⟩
    rw [if_pos hstream]
    exact hside hne hsource
  · obtain ⟨rfl | ⟨ha, hne⟩, hne'⟩ := (hmem a).mp ha
    · exact absurd ((hf other).2.2.1.symm.trans hconn).symm (Option.some_ne_none conn)
    · obtain ⟨c', hc', rfl, hown⟩ := h.held a ha conn hconn
      refine ⟨c', mem_removeKey.mpr ⟨hc', fun heq => ?_⟩, rfl, hown⟩
      obtain rfl := h.conns.eq_of_key hc' hc heq
      rcases hown with ⟨-, hown⟩ | ⟨-, hown⟩ <;>
        rcases hsides with ⟨hx, hy⟩ | ⟨hx, hy⟩
      · exact hne (Option.some.inj (hown.symm.trans hy))
      · exact hne' (Option.some.inj (hown.symm.trans hy))
      · exact hne' (Option.some.inj (hown.symm.trans hx))
      · exact hne (Option.some.inj (hown.symm.trans hx))
  · have hempty : s.client = [] := h.stream hstream
    exact absurd (hempty ▸ show e ∈ s.client from he) List.not_mem_nil
  · obtain ⟨rfl | ⟨ha, hne⟩, -⟩ := (hmem a).mp ha
    · exact Or.inr (hf other).2.2.2
    · exact h.idle a ha hnone

theorem Coupled.leave (h : Coupled cfg s) (hstream : cfg.source.stream = false)
    (hc : c ∈ s.conns) (hsock : sock ∈ s.socks) (hkind : sock.kind = .target)
    (hown : c.targetSock = some sock.id) (hdata : sock.data = some c.id) :
    Coupled cfg ((deleteClient s c.id).freeSock sock.id) := by
  obtain ⟨x, y, hx, hy, -, hsource⟩ := h.linked c hc
  rw [if_neg (by rw [hstream]; exact Bool.false_ne_true)] at hsource
  obtain ⟨⟨listener, hlistener, hlid, hlkind, hldata⟩, entry, hentry, hid⟩ := hsource
  have hfind : ∃ e, s.client.find? (·.2 = c.id) = some e ∧ e = entry := by
    have hvalue : findKey Prod.snd c.id s.client = some entry := findKey_of_mem h.values hentry hid
    exact ⟨entry, hvalue, rfl⟩
  obtain ⟨e, hfind, rfl⟩ := hfind
  unfold deleteClient
  rw [hfind]
  -- a socket without this structure stays
  have hside {kind : Kind} {id : Nat} {data : Option Nat} (hne : data ≠ some c.id)
      (hside : Side s kind id data) :
      Side (({ s with client := removeKey Prod.fst e.1 s.client }.freeConnect c.id).freeSock
        sock.id) kind id data := by
    obtain ⟨a, ha, rfl, hkind, rfl⟩ := hside
    refine ⟨a, mem_removeKey.mpr ⟨ha, fun heq => hne ?_⟩, rfl, hkind, rfl⟩
    obtain rfl := h.socks.eq_of_key ha hsock heq
    exact hdata
  refine ⟨h.socks.removeKey sock.id, h.conns.removeKey c.id, h.keys.removeKey e.1, ?_,
    fun c' hc' => ?_, fun a ha conn hconn => ?_, fun e' he' => ?_, fun htrue => ?_,
    fun a ha => h.idle a (mem_removeKey.mp ha).1⟩
  · exact h.values.sublist (List.filter_sublist.map Prod.snd)
  · obtain ⟨hc', hne⟩ := mem_removeKey.mp hc'
    obtain ⟨x', y', hx', hy', htarget', hsource'⟩ := h.linked c' hc'
    rw [if_neg (by rw [hstream]; exact Bool.false_ne_true)] at hsource'
    obtain ⟨hlistener', entry', hentry', hid'⟩ := hsource'
    refine ⟨x', y', hx', hy', hside (fun heq => hne (Option.some.inj heq)) htarget', ?_⟩
    rw [if_neg (by rw [hstream]; exact Bool.false_ne_true)]
    refine ⟨hside (Option.some_ne_none c.id).symm hlistener', entry',
      mem_removeKey.mpr ⟨hentry', fun heq => hne ?_⟩, hid'⟩
    obtain rfl := h.keys.eq_of_key hentry' hentry heq
    exact hid'.symm.trans hid
  · obtain ⟨ha, hne⟩ := mem_removeKey.mp ha
    obtain ⟨c', hc', rfl, hown'⟩ := h.held a ha conn hconn
    refine ⟨c', mem_removeKey.mpr ⟨hc', fun heq => ?_⟩, rfl, hown'⟩
    obtain rfl := h.conns.eq_of_key hc' hc heq
    rcases hown' with ⟨-, hown'⟩ | ⟨hkind', hown'⟩
    · exact hne (Option.some.inj (hown'.symm.trans hown))
    · have hsame : a.id = listener.id :=
        (Option.some.inj (hown'.symm.trans hx)).trans hlid.symm
      obtain rfl := h.socks.eq_of_key ha hlistener hsame
      exact Kind.noConfusion (hkind'.symm.trans hlkind)
  · obtain ⟨he', hne⟩ := mem_removeKey.mp he'
    obtain ⟨c', hc', hid'⟩ := h.entry e' he'
    refine ⟨c', mem_removeKey.mpr ⟨hc', fun heq => hne ?_⟩, hid'⟩
    have hvalues : e'.2 = e.2 := hid'.symm.trans (heq.trans hid.symm)
    rw [h.values.eq_of_key he' hentry hvalues]
  · exact absurd (hstream.symm.trans htrue) Bool.false_ne_true

/-- A socket that points to nothing and does not listen is in no structure. -/
theorem Coupled.of_none (h : Coupled cfg s) (hsock : sock ∈ s.socks) (hdata : sock.data = none)
    (hkind : sock.kind ≠ .listener) (hc : c ∈ s.conns) :
    c.sourceSock ≠ some sock.id ∧ c.targetSock ≠ some sock.id := by
  obtain ⟨x, y, hx, hy, htarget, hsource⟩ := h.linked c hc
  constructor
  · intro heq
    obtain rfl := Option.some.inj (hx.symm.trans heq)
    split at hsource
    · exact absurd ((h.side_eq hsock hsource).2.symm.trans hdata) (Option.some_ne_none c.id)
    · exact hkind (h.side_eq hsock hsource.1).1
  · intro heq
    obtain rfl := Option.some.inj (hy.symm.trans heq)
    exact absurd ((h.side_eq hsock htarget).2.symm.trans hdata) (Option.some_ne_none c.id)

theorem kill_clear (s : TunnelState) (id : Nat) :
    (s.setKilled id).clearData id =
      s.setSock id fun sock => { sock with killed := true, data := none } := by
  have hsocks : modifyKey TnlSocket.id id (fun sock => { sock with data := none })
      (modifyKey TnlSocket.id id (fun sock => { sock with killed := true }) s.socks) =
      modifyKey TnlSocket.id id ((fun sock => { sock with data := none }) ∘
        fun sock => { sock with killed := true }) s.socks := modifyKey_modifyKey (fun _ => rfl)
  exact congrArg (fun socks => { s with socks := socks }) hsocks

/-- What a socket leaves that is shut down. -/
def Shuts (cfg : TunnelConfig) (s : TunnelState) (sock : TnlSocket) (ok : Bool) : Prop :=
  ∃ s', svzSockShutdown cfg s sock ok = some s' ∧ Coupled cfg s' ∧ s'.faulted = s.faulted

theorem source_shuts (h : Coupled cfg s) (hsock : sock ∈ s.socks) (hkind : sock.kind = .source)
    (hkeeps : if cfg.target.stream then sock.data ≠ none ∨ cfg.debug = true else sock.data = none)
    (ok : Bool) : Shuts cfg s sock ok := by
  have hnone (hdata : sock.data = none) : Coupled cfg (s.freeSock sock.id) := by
    have hkind' : sock.kind ≠ .listener := fun h => Kind.noConfusion (hkind.symm.trans h)
    exact h.freeSock (fun c hc => (h.of_none hsock hdata hkind' hc).1)
      (fun c hc => (h.of_none hsock hdata hkind' hc).2)
  unfold Shuts svzSockShutdown tnlDisconnectSource
  rw [hkind]
  dsimp only
  split at hkeeps
  · next htarget =>
    rw [if_pos htarget]
    cases hdata : sock.data with
    | none =>
      dsimp only
      rw [if_pos (hkeeps.resolve_left (fun h => h hdata)), Option.map_some]
      exact ⟨_, rfl, hnone hdata, rfl⟩
    | some conn =>
      obtain ⟨c, hc, rfl, hx⟩ := h.of_source hsock hkind hdata
      obtain ⟨x, y, hx', hy, ⟨other, hother, rfl, -, hdata'⟩, hsource⟩ := h.linked c hc
      obtain rfl := Option.some.inj (hx'.symm.trans hx)
      have hstream : cfg.source.stream = true := by
        by_contra hnot
        rw [if_neg hnot] at hsource
        exact Kind.noConfusion (hkind.symm.trans (h.side_eq hsock hsource.1).1)
      dsimp only
      rw [h.connAt hc, Option.bind_some, hy]
      dsimp only
      unfold svzSockScheduleForShutdown
      rw [h.sockAt hother, Option.map_some, Option.map_some, Option.map_some, kill_clear]
      exact ⟨_, rfl, h.part hstream hc hsock hother (Or.inl ⟨hx, hy⟩) hdata hdata'
        (fun a => ⟨rfl, rfl, rfl, Or.inl rfl⟩), rfl⟩
  · next htarget =>
    rw [if_neg htarget, Option.map_some]
    exact ⟨_, rfl, hnone hkeeps, rfl⟩

theorem target_shuts (h : Coupled cfg s) (hsock : sock ∈ s.socks) (hkind : sock.kind = .target)
    (hkeeps : if s.nuke then cfg.source.stream = true ∨ sock.data = none
      else sock.data ≠ none ∨ cfg.debug = true) (ok : Bool) : Shuts cfg s sock ok := by
  unfold Shuts svzSockShutdown tnlDisconnectTarget
  rw [hkind]
  dsimp only
  cases hdata : sock.data with
  | none =>
    have hkind' : sock.kind ≠ .listener := fun h => Kind.noConfusion (hkind.symm.trans h)
    have hsome : s.nuke = true ∨ cfg.debug = true := by
      split at hkeeps
      · next hnuke => exact Or.inl hnuke
      · exact Or.inr (hkeeps.resolve_left (fun h => h hdata))
    dsimp only
    rw [if_pos hsome, Option.map_some]
    exact ⟨_, rfl, h.freeSock (fun c hc => (h.of_none hsock hdata hkind' hc).1)
      (fun c hc => (h.of_none hsock hdata hkind' hc).2), rfl⟩
  | some conn =>
    obtain ⟨c, hc, rfl, hy⟩ := h.of_target hsock hkind hdata
    obtain ⟨x, y, hx, hy', -, hsource⟩ := h.linked c hc
    dsimp only
    by_cases hnuke : s.nuke = true
    · rw [if_pos hnuke] at hkeeps ⊢
      have hstream : cfg.source.stream = true :=
        hkeeps.resolve_right (fun hnone => Option.some_ne_none c.id (hdata.symm.trans hnone))
      rw [if_pos hstream] at hsource ⊢
      obtain ⟨other, hother, rfl, -, hdata'⟩ := hsource
      rw [h.connAt hc, Option.bind_some, hx]
      dsimp only
      rw [h.sockAt hother, Option.map_some, Option.map_some]
      exact ⟨_, rfl, h.part hstream hc hsock hother (Or.inr ⟨hx, hy⟩) hdata hdata'
        (fun a => ⟨rfl, rfl, rfl, Or.inr hnuke⟩), rfl⟩
    · rw [if_neg hnuke, h.connAt hc, Option.bind_some,
        if_neg (fun hcheck => Option.some_ne_none x (hx.symm.trans hcheck.2))]
      by_cases hstream : cfg.source.stream = true
      · have hicmp : cfg.source ≠ .icmp := fun heq => by
          rw [heq] at hstream
          exact Bool.false_ne_true hstream
        rw [if_pos hstream] at hsource
        obtain ⟨other, hother, rfl, -, hdata'⟩ := hsource
        rw [if_neg hicmp, Option.bind_some, if_pos hstream, hx, Option.bind_some]
        unfold svzSockScheduleForShutdown
        rw [h.sockAt hother, Option.map_some, Option.map_some, Option.map_some, kill_clear]
        exact ⟨_, rfl, h.part hstream hc hsock hother (Or.inr ⟨hx, hy⟩) hdata hdata'
          (fun a => ⟨rfl, rfl, rfl, Or.inl rfl⟩), rfl⟩
      · have hstream' := Bool.eq_false_iff.mpr hstream
        obtain ⟨c', hc', hlive, -⟩ := h.alive hc
        obtain rfl := Option.some.inj ((h.connAt hc).symm.trans hc')
        obtain ⟨s₁, new, hs₁, hsends⟩ : ∃ s₁ new, (if cfg.source = .icmp then
            c.sourceSock.bind fun xsock => svzIcmpSendControl s xsock sock.client ok
            else some s) = some s₁ ∧ Sends s s₁ new := by
          split
          · obtain ⟨source, hsource⟩ := Option.isSome_iff_exists.mp (hlive x hx)
            obtain ⟨s₁, new, hs₁, hsends, -⟩ := control_sends hsource sock.client ok
            rw [hx, Option.bind_some]
            exact ⟨s₁, new, hs₁, hsends⟩
          · exact ⟨s, _, rfl, Sends.refl s⟩
        rw [hs₁, Option.bind_some, if_neg hstream, Option.map_some]
        have h₁ := hsends.coupled h
        have hc₁ : c ∈ s₁.conns := hsends.conns ▸ hc
        obtain ⟨sock₁, hsock₁, hid₁, hkind₁, hdata₁⟩ :=
          hsends.side ⟨sock, hsock, rfl, hkind, hdata⟩
        rw [← hid₁]
        refine ⟨_, rfl, h₁.leave hstream' hc₁ hsock₁ hkind₁ (hid₁ ▸ hy) hdata₁, ?_⟩
        unfold deleteClient
        split
        · exact hsends.faulted
        · exact hsends.faulted

theorem shutdown_shuts (h : Coupled cfg s) {id : Nat} (ok : Bool) (hsock : s.sockAt id = some sock)
    (hkeeps : KeepsPeers cfg s (.shutdown id ok)) : Shuts cfg s sock ok := by
  obtain ⟨hmem, rfl⟩ := sockAt_mem hsock
  have hkeeps := hkeeps sock hsock
  cases hkind : sock.kind with
  | listener =>
    rw [hkind] at hkeeps
    refine ⟨s.freeSock sock.id, ?_, h.freeSock hkeeps (fun c hc heq => ?_), rfl⟩
    · unfold svzSockShutdown
      rw [hkind]
      rfl
    · obtain ⟨x, y, -, hy, htarget, -⟩ := h.linked c hc
      obtain rfl := Option.some.inj (hy.symm.trans heq)
      exact Kind.noConfusion (hkind.symm.trans (h.side_eq hmem htarget).1)
  | source =>
    rw [hkind] at hkeeps
    exact source_shuts h hmem hkind hkeeps ok
  | target =>
    rw [hkind] at hkeeps
    exact target_shuts h hmem hkind hkeeps ok

/-! ## Datagrams -/

theorem Coupled.hear (h : Coupled cfg s) (sender : Dest) (heard : List (List UInt8)) :
    Coupled cfg (s.hear sender heard) :=
  ⟨h.socks, h.conns, h.keys, h.values, h.linked, h.held, h.entry, h.stream, h.idle⟩

theorem handle_coupled (h : Coupled cfg s) {target conn : Nat} (hstream : cfg.source.stream = false)
    (hfree : s.free target conn = true) (hsock : sock ∈ s.socks) (hkind : sock.kind = .listener)
    (listener : TnlSocket) (hid : listener.id = sock.id) (packet : List UInt8)
    (connected ok : Bool) :
    ∃ s', tnlHandleRequestSource cfg s listener packet target conn connected ok = some s' ∧
      Coupled cfg s' ∧ s'.faulted = s.faulted := by
  unfold tnlHandleRequestSource
  split
  · next entry hentry =>
    obtain ⟨c, hc, hvalue⟩ := h.entry entry (findKey_mem hentry).1
    obtain ⟨x, y, -, hy, -⟩ := h.linked c hc
    obtain ⟨c', hc', -, hlive⟩ := h.alive hc
    obtain rfl := Option.some.inj ((h.connAt hc).symm.trans hc')
    rw [← hvalue, hc', Option.bind_some, hy, Option.bind_some]
    obtain ⟨target, htarget⟩ := Option.isSome_iff_exists.mp (hlive y hy)
    obtain ⟨s', new, hs', hsends⟩ := forward_sends cfg htarget packet listener.remote ok
    exact ⟨s', hs', hsends.coupled h, hsends.faulted⟩
  · next hnone =>
    split
    · have hcreate := create_coupled h hstream hfree hsock hkind hnone listener.remote
      rw [← hid] at hcreate
      obtain ⟨s', new, hs', hsends⟩ :=
        forward_sends cfg (hcreate.sockAt List.mem_cons_self) packet listener.remote ok
      exact ⟨s', hs', hsends.coupled hcreate, hsends.faulted⟩
    · exact ⟨s, rfl, h, rfl⟩

theorem read_coupled (h : Coupled cfg s) {target conn : Nat} (hstream : cfg.source.stream = false)
    (hfree : s.free target conn = true) (hsock : sock ∈ s.socks) (hkind : sock.kind = .listener)
    (sender : Dest) (packet : List UInt8) (connected ok : Bool) :
    ∃ s', readSocket cfg s sock target conn sender packet connected ok = some s' ∧
      Coupled cfg s' ∧ s'.faulted = s.faulted := by
  have hremote := Sends.setRemote s sock.id sender
  have hkilled := Sends.setKilled s sock.id
  unfold readSocket
  dsimp only
  split_ifs
  · exact ⟨_, rfl, hkilled.coupled h, rfl⟩
  · have hboth := hremote.trans (Sends.setKilled (s.setRemote sock.id sender) sock.id)
    exact ⟨_, rfl, hboth.coupled h, rfl⟩
  · have hcoupled := hremote.coupled h
    exact ⟨_, rfl, (Sends.setBuffer (s.setRemote sock.id sender) sock.id _).coupled hcoupled, rfl⟩
  · have hfree' := (hremote.free target conn).trans hfree
    obtain ⟨sock', hmem, hlater⟩ := hremote.exists_after hsock
    obtain ⟨s', hs', hcoupled, hfaulted⟩ := handle_coupled (hremote.coupled h) hstream hfree' hmem
      (hlater.kind.trans hkind) { sock with remote := sender } hlater.id.symm _
      connected ok
    rw [hs', Option.map_some]
    exact ⟨_, rfl, (Sends.setBuffer s' sock.id []).coupled hcoupled, hfaulted⟩

/-! ## Steps -/

theorem step_coupled {event : TunnelEvent} (h : Coupled cfg s) (hfaulted : s.faulted = false)
    (hkeeps : KeepsPeers cfg s event) (hstep : tunnelStep cfg s event = some s') :
    Coupled cfg s' ∧ s'.faulted = false := by
  -- the steps that change no links
  have hsame {r : TunnelState × Bool} {new : Nat → List Packet} (ignored : Bool) (id : Nat)
      (hr : Sends s r.1 new) : Coupled cfg (afterCallback ignored id r) ∧
        (afterCallback ignored id r).faulted = false :=
    have hafter := afterCallback_sends ignored id hr
    ⟨hafter.coupled h, hafter.faulted.trans hfaulted⟩
  cases event with
  | accept id target conn remote connected =>
    simp only [tunnelStep] at hstep
    split at hstep
    · cases hstep
    · next hguard =>
      obtain rfl := Option.some.inj hstep
      simp only [not_or, Bool.not_eq_true, Bool.not_eq_false] at hguard
      obtain ⟨-, -, hstream, hsock, hne, hfree⟩ := hguard
      rw [Option.isSome_eq_false_iff, Option.isNone_iff_eq_none] at hsock
      refine ⟨connect_coupled h hstream hsock hfree hne remote connected, ?_⟩
      unfold tnlConnectSocket
      dsimp only
      split <;> exact hfaulted
  | datagram id target conn sender packet connected ok =>
    simp only [tunnelStep] at hstep
    split at hstep
    · cases hstep
    · next hguard =>
      simp only [not_or, Bool.not_eq_true, Bool.not_eq_false] at hguard
      obtain ⟨-, hstream, hfree, -⟩ := hguard
      obtain ⟨listener, hreads, rfl⟩ := Option.map_eq_some_iff.mp hstep
      obtain ⟨hmem, rfl, hkind, -⟩ := h.of_reads hreads
      obtain ⟨s₁, hs₁, hcoupled, hfaulted₁⟩ :=
        read_coupled h hstream hfree hmem hkind sender packet connected ok
      rw [hs₁]
      exact ⟨hcoupled.hear sender _, hfaulted₁.trans hfaulted⟩
  | stray id addr =>
    simp only [tunnelStep] at hstep
    split at hstep
    · cases hstep
    · obtain ⟨listener, -, rfl⟩ := Option.map_eq_some_iff.mp hstep
      exact ⟨(Sends.setRemote s id _).coupled h, hfaulted⟩
  | data id packet ok =>
    simp only [tunnelStep] at hstep
    split at hstep
    · cases hstep
    · obtain ⟨source, hreads, rfl⟩ := Option.map_eq_some_iff.mp hstep
      obtain ⟨hmem, -, hkind, hdata⟩ := h.of_reads hreads
      obtain ⟨r, new, hr, hsends⟩ := source_sends h hmem hkind (hdata Kind.noConfusion) packet ok
      rw [hr]
      exact hsame false id hsends
  | reply id packet ok =>
    simp only [tunnelStep] at hstep
    split at hstep
    · cases hstep
    · obtain ⟨target, hreads, rfl⟩ := Option.map_eq_some_iff.mp hstep
      obtain ⟨hmem, -, hkind, hdata⟩ := h.of_reads hreads
      have hanswer (closes : Bool) :=
        target_sends h hmem hkind (hdata Kind.noConfusion) closes packet ok
      obtain ⟨r, new, hr, hsends⟩ := hanswer true
      obtain ⟨r', new', hr', hsends'⟩ := hanswer cfg.source.stream
      unfold tnlCheckRequestTcpTarget tnlHandleRequestUdpTarget tnlHandleRequestIcmpTarget
      rw [hr, hr']
      cases cfg.target with
      | tcp => exact hsame false id hsends
      | pipe => exact hsame false id hsends
      | udp => exact hsame false id hsends'
      | icmp => exact hsame true id hsends'
  | kill id =>
    simp only [tunnelStep] at hstep
    split at hstep
    · cases hstep
    · obtain ⟨sock, -, rfl⟩ := Option.map_eq_some_iff.mp hstep
      exact ⟨(Sends.setKilled s id).coupled h, hfaulted⟩
  | shutdown id ok =>
    simp only [tunnelStep] at hstep
    split at hstep
    · cases hstep
    · obtain ⟨sock, hfilter, rfl⟩ := Option.map_eq_some_iff.mp hstep
      obtain ⟨hsock, -⟩ := Option.filter_eq_some_iff.mp hfilter
      obtain ⟨s₁, hs₁, hcoupled, hfaulted₁⟩ := shutdown_shuts h ok hsock hkeeps
      rw [hs₁]
      exact ⟨hcoupled, hfaulted₁.trans hfaulted⟩
  | nuke =>
    simp only [tunnelStep] at hstep
    split at hstep
    · cases hstep
    · obtain rfl := Option.some.inj hstep
      exact ⟨⟨h.socks, h.conns, h.keys, h.values, h.linked, h.held, h.entry, h.stream,
        fun _ _ _ => Or.inr (Or.inr rfl)⟩, hfaulted⟩

/-- A structure whose target is there stays behind when its source goes. -/
theorem source_dangles (h : Coupled cfg s) (hc : c ∈ s.conns)
    (hsource : c.sourceSock = some sock.id) (hsock : sock ∈ s.socks) (hkind : sock.kind ≠ .target) :
    ¬ PeersLive (s.freeSock sock.id) := by
  intro hlive
  obtain ⟨x, y, -, -, ⟨target, htarget, -, htkind, hdata⟩, -⟩ := h.linked c hc
  have hne : target.id ≠ sock.id := fun heq => by
    obtain rfl := h.socks.eq_of_key htarget hsock heq
    exact hkind htkind
  obtain ⟨c', hc', hboth, -⟩ :=
    hlive.data target (mem_removeKey.mpr ⟨htarget, hne⟩) c.id hdata
  obtain rfl := Option.some.inj ((h.connAt hc).symm.trans hc')
  have hgone : (s.freeSock sock.id).sockAt sock.id = none :=
    findKey_none.mpr (fun a ha => (mem_removeKey.mp ha).2)
  have hthere := hboth sock.id hsource
  rw [hgone] at hthere
  exact Bool.false_ne_true hthere

/-- An entry of the hash stays behind when its target goes without it. -/
theorem target_dangles (h : Coupled cfg s) (hstream : cfg.source.stream = false) (hc : c ∈ s.conns)
    (htarget : c.targetSock = some sock.id) : ¬ PeersLive (s.freeSock sock.id) := by
  intro hlive
  obtain ⟨x, y, -, -, -, hsource⟩ := h.linked c hc
  rw [if_neg (by rw [hstream]; exact Bool.false_ne_true)] at hsource
  obtain ⟨-, entry, hentry, hid⟩ := hsource
  obtain ⟨c', hc', -, hboth⟩ := hlive.client entry hentry
  rw [hid] at hc'
  obtain rfl := Option.some.inj ((h.connAt hc).symm.trans hc')
  have hgone : (s.freeSock sock.id).sockAt sock.id = none :=
    findKey_none.mpr (fun a ha => (mem_removeKey.mp ha).2)
  have hthere := hboth sock.id htarget
  rw [hgone] at hthere
  exact Bool.false_ne_true hthere

theorem shutdown_keeps (h : Coupled cfg s) {id : Nat} {ok : Bool} (hsock : s.sockAt id = some sock)
    (hlive : PeersLive (settle s (svzSockShutdown cfg s sock ok))) :
    KeepsPeers cfg s (.shutdown id ok) := by
  obtain ⟨hmem, rfl⟩ := sockAt_mem hsock
  have hfault (hnone : svzSockShutdown cfg s sock ok = none) : False := by
    have hfaultless := hlive.faultless
    rw [hnone] at hfaultless
    exact Bool.false_ne_true hfaultless.symm
  intro sock' hsock'
  obtain rfl := Option.some.inj (hsock.symm.trans hsock')
  unfold svzSockShutdown at hlive hfault
  cases hkind : sock.kind with
  | listener =>
    rw [hkind] at hlive
    have hnot : sock.kind ≠ .target := fun heq => Kind.noConfusion (hkind.symm.trans heq)
    exact fun c hc hsource => source_dangles h hc hsource hmem hnot hlive
  | source =>
    rw [hkind] at hlive hfault
    have hnot : sock.kind ≠ .target := fun heq => Kind.noConfusion (hkind.symm.trans heq)
    unfold tnlDisconnectSource at hlive hfault
    dsimp only
    split
    · next htarget =>
      rw [if_pos htarget] at hfault
      by_contra hboth
      obtain ⟨hdata, hdebug⟩ := not_or.mp hboth
      refine hfault ?_
      rw [not_not.mp hdata]
      dsimp only
      rw [if_neg hdebug, Option.map_none]
    · next htarget =>
      rw [if_neg htarget] at hlive
      by_contra hdata
      obtain ⟨conn, hconn⟩ := Option.ne_none_iff_exists'.mp hdata
      obtain ⟨c, hc, -, hsource⟩ := h.of_source hmem hkind hconn
      exact source_dangles h hc hsource hmem hnot hlive
  | target =>
    rw [hkind] at hlive hfault
    unfold tnlDisconnectTarget at hlive hfault
    dsimp only
    split
    · next hnuke =>
      by_contra hboth
      obtain ⟨hstream, hdata⟩ := not_or.mp hboth
      obtain ⟨conn, hconn⟩ := Option.ne_none_iff_exists'.mp hdata
      obtain ⟨c, hc, -, htarget⟩ := h.of_target hmem hkind hconn
      rw [hconn] at hlive
      dsimp only at hlive
      rw [if_pos hnuke, if_neg hstream, Option.map_some] at hlive
      exact target_dangles h (Bool.eq_false_iff.mpr hstream) hc htarget hlive
    · next hnuke =>
      by_contra hboth
      obtain ⟨hdata, hdebug⟩ := not_or.mp hboth
      refine hfault ?_
      rw [not_not.mp hdata]
      dsimp only
      rw [if_neg (not_or.mpr ⟨hnuke, hdebug⟩), Option.map_none]

theorem step_keeps {event : TunnelEvent} (h : Coupled cfg s)
    (hstep : tunnelStep cfg s event = some s') (hlive : PeersLive s') :
    KeepsPeers cfg s event := by
  cases event with
  | shutdown id ok =>
    simp only [tunnelStep] at hstep
    split at hstep
    · cases hstep
    · obtain ⟨sock, hfilter, rfl⟩ := Option.map_eq_some_iff.mp hstep
      exact shutdown_keeps h (Option.filter_eq_some_iff.mp hfilter).1 hlive
  | _ => exact trivial

end Coupled

theorem start_coupled (cfg : TunnelConfig) (listener : Nat) :
    Coupled cfg (startTunnel cfg listener) := by
  have hsocks : ∀ sock ∈ (startTunnel cfg listener).socks, sock.kind = .listener ∧
      sock.data = none := by
    intro sock hsock
    unfold startTunnel at hsock
    dsimp only at hsock
    split at hsock
    · exact absurd hsock List.not_mem_nil
    · obtain rfl := List.mem_singleton.mp hsock
      exact ⟨rfl, rfl⟩
  refine ⟨?_, List.nodup_nil, List.nodup_nil, List.nodup_nil,
    fun c hc => absurd hc List.not_mem_nil, fun sock hsock conn hdata => ?_,
    fun e he => absurd he List.not_mem_nil, fun _ => rfl,
    fun sock hsock _ => Or.inl (hsocks sock hsock).1⟩
  · unfold startTunnel Keyed
    dsimp only
    split
    · exact List.nodup_nil
    · exact List.nodup_singleton _
  · exact absurd ((hsocks sock hsock).2.symm.trans hdata).symm (Option.some_ne_none conn)

theorem peersLive_iff (cfg : TunnelConfig) (listener : Nat) (events : List TunnelEvent) :
    (∀ pre, pre <+: events → ∀ s, tunnelRun cfg listener pre = some s → PeersLive s) ↔
      ∀ pre event, pre ++ [event] <+: events → ∀ s s', tunnelRun cfg listener pre = some s →
        tunnelStep cfg s event = some s' → KeepsPeers cfg s event := by
  have hstart := start_coupled cfg listener
  refine forall_reached_iff (tunnelStep cfg) (Coupled cfg) PeersLive (KeepsPeers cfg) hstart
    (hstart.peersLive rfl) events ?_ ?_
  · exact fun s event s' hcoupled _ hstep hlive => step_keeps hcoupled hstep hlive
  · intro s event s' hcoupled hlive hstep hkeeps
    obtain ⟨hcoupled', hfaulted⟩ := step_coupled hcoupled hlive.faultless hkeeps hstep
    exact ⟨hcoupled', hcoupled'.peersLive hfaulted⟩

/-- A TCP source with a UDP target goes, and the target gets a reply for it; `ENABLE_DEBUG` is no
help. -/
theorem replyAfterSource_not_peersLive :
    ¬ ∀ s, tunnelRun ⟨.tcp, .udp, true, ⟨16777343, 20480⟩, 16384, fun _ => false⟩ 0
      [.accept 1 2 0 ⟨33554559, 37008⟩ true, .kill 1, .shutdown 1 true, .reply 2 [65] true] =
        some s → PeersLive s := by
  have hfault : (tunnelRun ⟨.tcp, .udp, true, ⟨16777343, 20480⟩, 16384, fun _ => false⟩ 0
      [.accept 1 2 0 ⟨33554559, 37008⟩ true, .kill 1, .shutdown 1 true, .reply 2 [65] true]).map
        TunnelState.faulted = some true := by decide
  intro hlive
  obtain ⟨s, hs, hfaulted⟩ := Option.map_eq_some_iff.mp hfault
  exact Bool.false_ne_true ((hlive s hs).faultless.symm.trans hfaulted)

end Serveez.Tunnel
