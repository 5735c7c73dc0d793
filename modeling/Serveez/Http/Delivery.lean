import Serveez.Http.Answers
import Serveez.Http.CacheContents

/-!
# What a connection has still to send

`HttpSock.pending` is what the client of a connection is still to get: what is in the send buffer,
and the rest of the file, which is in the cache, on the disk behind the position of the file
descriptor, or behind the offset that `sendfile` uses. A callback takes bytes off its front and
sends them.

* `writeSocket_delivers`, `httpFileRead_delivers`, `httpCacheRead_delivers`: the bytes sent and the
  pending ones together stay the same, and a connection is not closed before its last byte.
* `Answered.delivers`: a request adds its response.
-/

namespace Serveez.Transfer

open Cache Lib World

variable {cfg : HttpConfig} {g g' : Cache} {s s' : HttpSock} {died : Bool}

/-! ## Pending bytes -/

/-- The part of the file that has not been read. -/
def HttpSock.unread (s : HttpSock) : List UInt8 :=
  s.fileDesc.elim [] fun file => (file.content.drop file.pos).take s.filelength.toNat

/-- The part of the file that `sendfile` has not sent. -/
def HttpSock.unsent (s : HttpSock) : List UInt8 :=
  s.fileDesc.elim [] fun file => (file.content.drop s.fileoffset).take s.filelength.toNat

/-- What is to be sent behind the send buffer. -/
def HttpSock.rest (g : Cache) (s : HttpSock) : List UInt8 :=
  if s.flagCache then s.cache.elim [] fun cache => (g.contents cache.buffer).take cache.size
  else match s.readSocket with
    | .httpCacheRead => s.unread
    | .httpFileRead => s.unread
    | _ => if s.flagSendfile then s.unsent else []

def HttpSock.pending (g : Cache) (s : HttpSock) : List UInt8 :=
  (if s.writeSocket = .httpDefaultWrite then s.sendBuffer else []) ++ s.rest g

/-- The file is read into the send buffer, and all of it into the cache. -/
structure HttpSock.Reads (s : HttpSock) (file : OpenFile) : Prop where
  readSocket : s.readSocket = .httpCacheRead ∨ s.readSocket = .httpFileRead
  writeSocket : s.writeSocket = .httpDefaultWrite
  flagCache : s.flagCache = false
  flagSendfile : s.flagSendfile = false
  flagDone : s.flagDone = false
  fileDesc : s.fileDesc = some file
  nonneg : 0 ≤ s.filelength
  within : file.pos + s.filelength ≤ file.content.length
  whole : s.readSocket = .httpCacheRead → file.pos + s.filelength = file.content.length

/-- The states of a connection. -/
inductive HttpSock.Stage (cfg : HttpConfig) (s : HttpSock) : Prop
  | idle (hidle : s.Idle)
  /-- All of the response is in the send buffer. -/
  | done (hread : s.readSocket = .svzTcpReadSocket) (hwrite : s.writeSocket = .httpDefaultWrite)
      (hcache : s.flagCache = false) (hsendfile : s.flagSendfile = false)
      (hdone : s.flagDone = true)
  /-- The file comes from the cache. -/
  | cached (hread : s.readSocket = .svzTcpReadSocket) (hwrite : s.writeSocket ≠ .httpSendFile)
      (hcache : s.flagCache = true) (hdone : s.flagDone = false) (hbuffer : s.sendBuffer ≠ [])
  | reads {file : OpenFile} (hreads : s.Reads file)
  /-- The file goes by `sendfile`. -/
  | sendfile {file : OpenFile} (hcfg : cfg.sendfile = true) (hread : s.readSocket = .null)
      (hwrite : s.writeSocket ≠ .httpCacheWrite) (hcache : s.flagCache = false)
      (hsendfile : s.flagSendfile = true) (hdone : s.flagDone = false) (hbuffer : s.sendBuffer ≠ [])
      (hfile : s.fileDesc = some file) (hlength : 0 ≤ s.filelength)
      (hend : s.fileoffset + s.filelength ≤ file.content.length)

/-- What a callback leaves: `ok` tells that its system call has not failed. -/
structure Delivers (cfg : HttpConfig) (g : Cache) (s : HttpSock) (ok : Prop) (g' : Cache)
    (s' : HttpSock) (died : Bool) : Prop where
  sent : s'.sent ++ s'.pending g' = s.sent ++ s.pending g
  stage : died = false → s'.Stage cfg
  closed : died = true → ok → s'.pending g' = []

theorem rest_eq_nil (hread : s.readSocket = .svzTcpReadSocket) (hcache : s.flagCache = false)
    (hsendfile : s.flagSendfile = false) : s.rest g = [] := by
  unfold HttpSock.rest
  rw [hread, hcache, hsendfile]
  rfl

theorem HttpSock.Idle.pending_eq_nil (h : s.Idle) : s.pending g = [] := by
  rw [HttpSock.pending, if_pos h.writeSocket, h.sendBuffer,
    rest_eq_nil h.readSocket h.flagCache h.flagSendfile]
  rfl

/-- Some bytes of a file are taken off its rest. -/
theorem take_drop_chunk (content : List UInt8) {off n limit m : Nat}
    (hle : (chunk content off n limit).length ≤ m) :
    (content.drop off).take m = chunk content off n limit ++
      (content.drop (off + (chunk content off n limit).length)).take
        (m - (chunk content off n limit).length) := by
  have hsplit : chunk content off n limit ++
      content.drop (off + (chunk content off n limit).length) = content.drop off := by
    rw [← List.drop_drop]
    exact List.prefix_iff_eq_append.mp (List.take_prefix _ _)
  rw [← hsplit, List.take_append, List.take_of_length_le hle]

theorem chunk_ne_nil {content : List UInt8} {off limit : Nat} (hoff : off < content.length)
    (hlimit : 0 < limit) (n : Nat) : chunk content off n limit ≠ [] := by
  rw [chunk, ne_eq, List.take_eq_nil_iff, List.drop_eq_nil_iff]
  omega

/-- A connection that is kept alive begins again, and the others are closed as they are. -/
theorem httpKeepAlive_eq (h : httpKeepAlive g s = some (g', s', died)) :
    (died = false ∧ s' = { s with
      cache := none, fileDesc := none
      flagCache := false, flagDone := false, flagKeep := false, flagSendfile := false
      readSocket := .svzTcpReadSocket, writeSocket := .httpDefaultWrite, sendBuffer := [] }) ∨
    (died = true ∧ g' = g ∧ s' = s) := by
  unfold httpKeepAlive at h
  split at h
  · simp only [httpFreeSocket, Option.bind_eq_bind, Option.bind_eq_some_iff,
      Option.map_eq_some_iff] at h
    obtain ⟨⟨g₁, s₁⟩, ⟨g₂, -, hfree⟩, h⟩ := h
    cases hfree
    cases h
    exact Or.inl ⟨rfl, rfl⟩
  · cases h
    exact Or.inr ⟨rfl, rfl, rfl⟩

theorem httpKeepAlive_cases (h : httpKeepAlive g s = some (g', s', died)) :
    (died = false ∧ s'.Idle ∧ s'.sent = s.sent) ∨ (died = true ∧ g' = g ∧ s' = s) := by
  rcases httpKeepAlive_eq h with ⟨hdied, rfl⟩ | hclosed
  · exact Or.inl ⟨hdied, ⟨rfl, rfl, rfl, rfl, rfl, rfl⟩, rfl⟩
  · exact Or.inr hclosed

/-- The end of a response. -/
theorem httpKeepAlive_delivers {s₁ : HttpSock} {ok : Prop} (hpending : s₁.pending g = [])
    (hsent : s₁.sent = s.sent ++ s.pending g) (h : httpKeepAlive g s₁ = some (g', s', died)) :
    Delivers cfg g s ok g' s' died := by
  rcases httpKeepAlive_cases h with ⟨rfl, hidle, hsame⟩ | ⟨rfl, rfl, rfl⟩
  · refine ⟨?_, fun _ => .idle hidle, nofun⟩
    rw [hidle.pending_eq_nil, List.append_nil, hsame, hsent]
  · refine ⟨?_, nofun, fun _ _ => hpending⟩
    rw [hpending, List.append_nil, hsent]

/-! ## Writers -/

theorem pending_default (hwrite : s.writeSocket = .httpDefaultWrite) :
    s.pending g = s.sendBuffer ++ s.rest g := by
  rw [HttpSock.pending, if_pos hwrite]

/-- The socket after `n` bytes of the send buffer have been sent. -/
def HttpSock.flushed (s : HttpSock) (n : Nat) : HttpSock :=
  s.put (s.sent ++ s.sendBuffer.take n) (s.sendBuffer.drop n)

theorem flushed_pending (hwrite : s.writeSocket = .httpDefaultWrite) (n : Nat) :
    (s.flushed n).sent ++ (s.flushed n).pending g = s.sent ++ s.pending g := by
  have hwrite' : (s.flushed n).writeSocket = .httpDefaultWrite := hwrite
  rw [pending_default hwrite, pending_default hwrite']
  change s.sent ++ s.sendBuffer.take n ++ (s.sendBuffer.drop n ++ s.rest g) = _
  rw [List.append_assoc, ← List.append_assoc (List.take n _), List.take_append_drop]

theorem switchWriter_eq_self (hcache : s.flagCache = false) (hsendfile : s.flagSendfile = false) :
    switchWriter cfg s = s := by
  unfold switchWriter
  rw [hcache, hsendfile]
  simp only [Bool.false_eq_true, and_false, if_false, ite_self]

/-- A writer that takes over the connection has nothing in the send buffer to send. -/
theorem switchWriter_pending (cfg : HttpConfig) (g : Cache)
    (hwrite : s.writeSocket = .httpDefaultWrite) :
    (switchWriter cfg s).sent = s.sent ∧ (switchWriter cfg s).pending g = s.pending g := by
  unfold switchWriter
  split
  · exact ⟨rfl, rfl⟩
  next hempty =>
  have hempty : s.sendBuffer = [] := not_not.mp hempty
  have hpending : s.pending g = s.rest g := by
    rw [pending_default hwrite, hempty, List.nil_append]
  rw [hpending]
  split
  · exact ⟨rfl, rfl⟩
  split
  · exact ⟨rfl, rfl⟩
  · exact ⟨rfl, hpending⟩

theorem httpDefaultWrite_delivers {r : SendResult} (hstage : s.Stage cfg)
    (hwrite : s.writeSocket = .httpDefaultWrite)
    (h : httpDefaultWrite cfg g s r = some (g', s', died)) :
    Delivers cfg g s (r ≠ .error) g' s' died := by
  let n := r.count s.sendBuffer.length
  have hsent := flushed_pending (g := g) hwrite n
  have hwrite' : (s.flushed n).writeSocket = .httpDefaultWrite := hwrite
  change (checkDone g (s.flushed n) (decide (r = .error))).map _ = _ at h
  -- more is to be sent
  have hmore : ¬ ((s.flushed n).flagDone = true ∧ (s.flushed n).sendBuffer = []) →
      (switchWriter cfg (s.flushed n)).Stage cfg → Delivers cfg g s (r ≠ .error) g' s' died := by
    intro hnot hstage'
    rw [checkDone, if_neg hnot, Option.map_some, Option.some_inj, Prod.mk.injEq,
      Prod.mk.injEq] at h
    obtain ⟨rfl, rfl, rfl⟩ := h
    obtain ⟨hsame, hpending⟩ := switchWriter_pending cfg g hwrite'
    refine ⟨?_, fun _ => hstage', ?_⟩
    · rw [hsame, hpending]
      exact hsent
    · intro herror hok
      exact absurd (of_decide_eq_true herror) hok
  have hundone : s.flagDone = false →
      ¬ ((s.flushed n).flagDone = true ∧ (s.flushed n).sendBuffer = []) :=
    fun hfalse hboth => absurd (hfalse.symm.trans hboth.1) Bool.noConfusion
  have hself : s.flagCache = false → s.flagSendfile = false →
      switchWriter cfg (s.flushed n) = s.flushed n :=
    fun hcache hsendfile => switchWriter_eq_self (s := s.flushed n) hcache hsendfile
  cases hstage with
  | idle hidle =>
    refine hmore (hundone hidle.flagDone) ?_
    rw [hself hidle.flagCache hidle.flagSendfile]
    refine .idle ⟨hidle.readSocket, hwrite, hidle.flagCache, hidle.flagDone, hidle.flagSendfile, ?_⟩
    change s.sendBuffer.drop n = []
    rw [hidle.sendBuffer, List.drop_nil]
  | done hread _ hcache hsendfile hdone =>
    have hself := hself hcache hsendfile
    by_cases hover : (s.flushed n).flagDone = true ∧ (s.flushed n).sendBuffer = []
    · have hpending : (s.flushed n).pending g = [] := by
        rw [pending_default hwrite', hover.2]
        exact rest_eq_nil hread hcache hsendfile
      rw [hpending, List.append_nil] at hsent
      rw [checkDone, if_pos hover, Option.map_eq_some_iff] at h
      obtain ⟨⟨g₁, s₁, died₁⟩, hkeep, h⟩ := h
      cases h
      have hdelivers : Delivers cfg g s (r ≠ .error) g₁ s₁ died₁ :=
        httpKeepAlive_delivers hpending hsent hkeep
      rcases httpKeepAlive_cases hkeep with ⟨-, hidle, -⟩ | ⟨-, -, rfl⟩
      · rwa [switchWriter_eq_self hidle.flagCache hidle.flagSendfile]
      · rwa [hself]
    · refine hmore hover ?_
      rw [hself]
      exact .done hread hwrite hcache hsendfile hdone
  | cached hread hwriter hcache hdone =>
    have hcache' : (s.flushed n).flagCache = true := hcache
    refine hmore (hundone hdone) ?_
    unfold switchWriter
    split
    · next hbuffer => exact .cached hread hwriter hcache hdone hbuffer
    · exact .cached hread nofun hcache hdone nofun
  | reads hreads =>
    refine hmore (hundone hreads.flagDone) ?_
    rw [hself hreads.flagCache hreads.flagSendfile]
    exact .reads ⟨hreads.readSocket, hwrite, hreads.flagCache, hreads.flagSendfile,
      hreads.flagDone, hreads.fileDesc, hreads.nonneg, hreads.within, hreads.whole⟩
  | sendfile hcfg hread hwriter hcache hsendfile hdone _ hfile hlength hend =>
    have hcache' : ¬ (s.flushed n).flagCache = true := by
      rw [show (s.flushed n).flagCache = false from hcache]
      exact Bool.noConfusion
    have hsendfile' : cfg.sendfile = true ∧ (s.flushed n).flagSendfile = true := ⟨hcfg, hsendfile⟩
    refine hmore (hundone hdone) ?_
    unfold switchWriter
    split
    · next hbuffer =>
      exact .sendfile hcfg hread hwriter hcache hsendfile hdone hbuffer hfile hlength hend
    · exact .sendfile hcfg hread nofun hcache hsendfile hdone nofun hfile hlength hend

/-- A pointer that is moved on. -/
theorem contents_advance (g : Cache) (k : HttpCache) (n : Nat) :
    g.contents (k.advance n).buffer = (g.contents k.buffer).drop n := by
  unfold HttpCache.advance Cache.contents
  cases k.buffer with
  | none => exact List.drop_nil.symm
  | some p =>
    change ((g.block p.block).map (List.drop (p.off + n))).getD [] =
      (((g.block p.block).map (List.drop p.off)).getD []).drop n
    cases g.block p.block with
    | none => exact List.drop_nil.symm
    | some x => exact List.drop_drop.symm

theorem cachedBytes_eq {k : HttpCache} {n : Nat} {bytes : List UInt8}
    (h : cachedBytes g k n = some bytes) : bytes = (g.contents k.buffer).take n := by
  unfold cachedBytes at h
  split at h
  · next hzero =>
    cases h
    rw [hzero, List.take_zero]
  · obtain ⟨x, hx, rfl⟩ := Option.map_eq_some_iff.mp h
    rw [Cache.contents, hx]
    rfl

theorem httpCacheWrite_delivers {r : SendResult} (hstage : s.Stage cfg)
    (hwrite : s.writeSocket = .httpCacheWrite)
    (h : httpCacheWrite g s r = some (g', s', died)) :
    Delivers cfg g s (r ≠ .error) g' s' died := by
  have hnot : s.writeSocket ≠ .httpDefaultWrite := by
    rw [hwrite]
    exact WriteSocket.noConfusion
  cases hstage with
  | idle hidle => exact absurd hidle.writeSocket hnot
  | done _ hwrite' => exact absurd hwrite' hnot
  | reads hreads => exact absurd hreads.writeSocket hnot
  | sendfile _ _ hwrite' => exact absurd hwrite hwrite'
  | cached hread hwriter hcache hdone hbuffer =>
    unfold httpCacheWrite at h
    simp only [Option.bind_eq_bind, Option.bind_eq_some_iff] at h
    obtain ⟨k, hk, a, -, bytes, hbytes, h⟩ := h
    obtain rfl := cachedBytes_eq hbytes
    let n := r.count (min k.size (svzSockMaxWrite <<< 5))
    let s₁ : HttpSock := { s with
      cache := some (k.advance n), sent := s.sent ++ (g.contents k.buffer).take n }
    have hpending : s.pending g = (g.contents k.buffer).take k.size := by
      rw [HttpSock.pending, if_neg hnot, HttpSock.rest, if_pos hcache, hk]
      rfl
    have hpending₁ : s₁.pending g = ((g.contents k.buffer).drop n).take (k.size - n) := by
      rw [HttpSock.pending, if_neg (show s₁.writeSocket ≠ _ from hnot), HttpSock.rest,
        if_pos (show s₁.flagCache = true from hcache), ← contents_advance]
      rfl
    have hn : n ≤ k.size := (count_le _ r).trans (Nat.min_le_left _ _)
    have hsent : s₁.sent ++ s₁.pending g = s.sent ++ s.pending g := by
      rw [hpending₁, hpending]
      change s.sent ++ _ ++ _ = _
      rw [List.append_assoc, ← List.take_add, Nat.add_sub_cancel' hn]
    split at h
    · next hlast =>
      have hnil : s₁.pending g = [] := by
        rw [hpending₁]
        rw [hlast, List.take_zero]
      refine httpKeepAlive_delivers hnil ?_ h
      rw [← hsent, hnil, List.append_nil]
    · cases h
      refine ⟨hsent, fun _ => .cached hread hwriter hcache hdone hbuffer, ?_⟩
      intro herror hok
      exact absurd (of_decide_eq_true herror) hok

theorem doWrite_eq (hlength : 0 ≤ s.filelength) (file : OpenFile) :
    s.doWrite file = min s.filelength.toNat svzSockMaxWrite := by
  unfold HttpSock.doWrite
  simp only
  split
  · split <;> omega
  · split <;> omega

theorem httpSendFile_delivers {r : SendResult} (hstage : s.Stage cfg)
    (hwrite : s.writeSocket = .httpSendFile)
    (h : httpSendFile g s r = some (g', s', died)) :
    Delivers cfg g s (r ≠ .error ∧ r ≠ .unavailable) g' s' died := by
  have hnot : s.writeSocket ≠ .httpDefaultWrite := by
    rw [hwrite]
    exact WriteSocket.noConfusion
  cases hstage with
  | idle hidle => exact absurd hidle.writeSocket hnot
  | done _ hwrite' => exact absurd hwrite' hnot
  | reads hreads => exact absurd hreads.writeSocket hnot
  | cached _ hwrite' => exact absurd hwrite hwrite'
  | @sendfile file hcfg hread hwriter hcache hsendfile hdone hbuffer hfile hlength hend =>
    have hrest : ∀ s₁ : HttpSock, s₁.writeSocket = s.writeSocket → s₁.flagCache = s.flagCache →
        s₁.readSocket = s.readSocket → s₁.flagSendfile = s.flagSendfile →
        s₁.pending g = s₁.unsent := by
      intro s₁ hwrite₁ hcache₁ hread₁ hsendfile₁
      unfold HttpSock.pending HttpSock.rest
      rw [hwrite₁, hcache₁, hread₁, hsendfile₁, if_neg hnot, hcache, hread, hsendfile]
      rfl
    have hpending : s.pending g = (file.content.drop s.fileoffset).take s.filelength.toNat := by
      rw [hrest s rfl rfl rfl rfl, HttpSock.unsent, hfile]
      rfl
    unfold httpSendFile at h
    rw [hfile] at h
    cases r with
    | unavailable =>
      cases h
      exact ⟨rfl, nofun, fun _ hok => absurd rfl hok.2⟩
    | error =>
      cases h
      exact ⟨rfl, nofun, fun _ hok => absurd rfl hok.1⟩
    | sent n =>
      simp only at h
      rw [doWrite_eq hlength] at h
      have hle : (chunk file.content s.fileoffset n
          (min s.filelength.toNat svzSockMaxWrite)).length ≤ s.filelength.toNat := by
        unfold chunk
        rw [List.length_take]
        omega
      have hsplit := take_drop_chunk file.content hle
      have hsome : s.filelength ≠ 0 → chunk file.content s.fileoffset n
          (min s.filelength.toNat svzSockMaxWrite) ≠ [] := by
        intro hzero
        have hmax : 0 < svzSockMaxWrite := Nat.zero_lt_succ _
        exact chunk_ne_nil (by omega) (by omega) n
      generalize chunk file.content s.fileoffset n (min s.filelength.toNat svzSockMaxWrite) =
        bytes at h hle hsplit hsome
      have hsent : s.sent ++ s.pending g = (s.sendChunk bytes).sent ++
          (file.content.drop (s.fileoffset + bytes.length)).take
            (s.filelength.toNat - bytes.length) := by
        rw [hpending, hsplit, ← List.append_assoc]
        rfl
      rw [if_neg (fun hboth => hsome hboth.2 hboth.1)] at h
      split at h
      · next hlast =>
        have hover : s.filelength.toNat - bytes.length = 0 := by
          change s.filelength - bytes.length ≤ 0 at hlast
          omega
        rw [hover, List.take_zero, List.append_nil] at hsent
        have hnil : (s.sendChunk bytes).endSendfile.pending g = [] := by
          rw [pending_default rfl]
          exact rest_eq_nil rfl hcache rfl
        exact httpKeepAlive_delivers hnil hsent.symm h
      · next hmore =>
        have hmore : 0 < s.filelength - bytes.length := Int.not_le.mp hmore
        cases h
        have hnext : (s.sendChunk bytes).pending g =
            (file.content.drop (s.fileoffset + bytes.length)).take
              (s.filelength.toNat - bytes.length) := by
          rw [hrest (s.sendChunk bytes) rfl rfl rfl rfl, HttpSock.unsent,
            show (s.sendChunk bytes).fileDesc = some file from hfile]
          change List.take (s.filelength - bytes.length).toNat _ = _
          rw [show (s.filelength - bytes.length).toNat = s.filelength.toNat - bytes.length by omega]
          rfl
        refine ⟨?_, fun _ => ?_, nofun⟩
        · rw [hsent, hnext]
        · refine .sendfile hcfg hread hwriter hcache hsendfile hdone hbuffer hfile
            (Int.le_of_lt hmore) ?_
          change ((s.fileoffset + bytes.length : Nat) : Int) + (s.filelength - bytes.length) ≤ _
          omega

theorem writeSocket_delivers {r : SendResult} (hstage : s.Stage cfg)
    (h : writeSocket cfg g s r = some (g', s', died)) :
    Delivers cfg g s (r ≠ .error ∧ (s.writeSocket = .httpSendFile → r ≠ .unavailable)) g' s'
      died := by
  unfold writeSocket at h
  split at h
  · next hwrite =>
    obtain ⟨hsent, hstage', hclosed⟩ := httpDefaultWrite_delivers hstage hwrite h
    exact ⟨hsent, hstage', fun hdied hok => hclosed hdied hok.1⟩
  · next hwrite =>
    obtain ⟨hsent, hstage', hclosed⟩ := httpCacheWrite_delivers hstage hwrite h
    exact ⟨hsent, hstage', fun hdied hok => hclosed hdied hok.1⟩
  · next hwrite =>
    obtain ⟨hsent, hstage', hclosed⟩ := httpSendFile_delivers hstage hwrite h
    exact ⟨hsent, hstage', fun hdied hok => hclosed hdied ⟨hok.1, hok.2 hwrite⟩⟩

/-! ## Readers of files -/

theorem HttpSock.Stage.reads_of (hstage : s.Stage cfg)
    (hread : s.readSocket = .httpCacheRead ∨ s.readSocket = .httpFileRead) :
    ∃ file, s.Reads file := by
  have hnot : ∀ r, r = .svzTcpReadSocket ∨ r = .null → s.readSocket ≠ r := by
    rintro r (rfl | rfl) hr
    · rcases hread with hread | hread <;> exact absurd (hread.symm.trans hr) nofun
    · rcases hread with hread | hread <;> exact absurd (hread.symm.trans hr) nofun
  cases hstage with
  | idle hidle => exact absurd hidle.readSocket (hnot _ (Or.inl rfl))
  | done hread' => exact absurd hread' (hnot _ (Or.inl rfl))
  | cached hread' => exact absurd hread' (hnot _ (Or.inl rfl))
  | @reads file hreads => exact ⟨file, hreads⟩
  | sendfile _ hread' => exact absurd hread' (hnot _ (Or.inr rfl))

theorem HttpSock.Reads.pending_eq {file : OpenFile} (h : s.Reads file) : s.pending g =
    s.sendBuffer ++ (file.content.drop file.pos).take s.filelength.toNat := by
  have hrest : s.rest g = s.unread := by
    unfold HttpSock.rest
    rw [h.flagCache]
    rcases h.readSocket with hread | hread
    · rw [hread]
      rfl
    · rw [hread]
      rfl
  rw [pending_default h.writeSocket, hrest, HttpSock.unread, h.fileDesc]
  rfl

section Chunk

variable {file : OpenFile} {bytes : List UInt8} {ok : Prop} (hreads : s.Reads file)
  (hsplit : (file.content.drop file.pos).take s.filelength.toNat =
    bytes ++ (file.content.drop (file.pos + bytes.length)).take
      (s.filelength.toNat - bytes.length))

include hreads hsplit

theorem readChunk_last (hlast : (s.readChunk file bytes).filelength ≤ 0)
    (hread : s'.readSocket = .svzTcpReadSocket) (hwrite : s'.writeSocket = s.writeSocket)
    (hcache : s'.flagCache = s.flagCache) (hsendfile : s'.flagSendfile = s.flagSendfile)
    (hdone : s'.flagDone = true) (hsent : s'.sent = s.sent)
    (hbuffer : s'.sendBuffer = s.sendBuffer ++ bytes) : Delivers cfg g s ok g' s' false := by
  have hwrite := hwrite.trans hreads.writeSocket
  have hcache := hcache.trans hreads.flagCache
  have hsendfile := hsendfile.trans hreads.flagSendfile
  refine ⟨?_, fun _ => .done hread hwrite hcache hsendfile hdone, nofun⟩
  have hover : s.filelength.toNat - bytes.length = 0 := by
    change s.filelength - bytes.length ≤ 0 at hlast
    omega
  rw [hreads.pending_eq, hsplit, hover, List.take_zero, List.append_nil, pending_default hwrite,
    rest_eq_nil hread hcache hsendfile, List.append_nil, hsent, hbuffer]

theorem readChunk_more (hmore : ¬ (s.readChunk file bytes).filelength ≤ 0)
    (cache : Option HttpCache) :
    Delivers cfg g s ok g' { s.readChunk file bytes with cache := cache } false := by
  have hmore : 0 < s.filelength - bytes.length := Int.not_le.mp hmore
  have hreads' : HttpSock.Reads { s.readChunk file bytes with cache := cache }
      ⟨file.content, file.pos + bytes.length⟩ := by
    refine ⟨hreads.readSocket, hreads.writeSocket, hreads.flagCache, hreads.flagSendfile,
      hreads.flagDone, rfl, Int.le_of_lt hmore, ?_, ?_⟩
    · have hwithin := hreads.within
      change ((file.pos + bytes.length : Nat) : Int) + (s.filelength - bytes.length) ≤
        file.content.length
      omega
    · intro hread
      have hwhole := hreads.whole hread
      change ((file.pos + bytes.length : Nat) : Int) + (s.filelength - bytes.length) =
        file.content.length
      omega
  refine ⟨?_, fun _ => .reads hreads', nofun⟩
  have hnat : (s.filelength - bytes.length).toNat = s.filelength.toNat - bytes.length := by omega
  rw [hreads.pending_eq, hreads'.pending_eq, hsplit]
  change s.sent ++ (s.sendBuffer ++ bytes ++ List.take (s.filelength - bytes.length).toNat _) = _
  rw [hnat, List.append_assoc s.sendBuffer]

end Chunk

theorem httpFileRead_delivers {r : ReadResult} (hstage : s.Stage cfg)
    (hread : s.readSocket = .httpFileRead)
    (hfits : ∀ n, r = .data n → ∀ file ∈ s.fileDesc,
      ((chunk file.content file.pos n (cfg.sendBufferSize - s.sendBuffer.length)).length : Int) ≤
        s.filelength)
    (h : httpFileRead cfg g s r = some (g', s', died)) :
    Delivers cfg g s (r ≠ .error) g' s' died := by
  obtain ⟨file, hreads⟩ := hstage.reads_of (Or.inr hread)
  unfold httpFileRead at h
  simp only at h
  split at h
  · cases h
    exact ⟨rfl, fun _ => hstage, nofun⟩
  next hspace =>
  rw [hreads.fileDesc] at h
  cases r with
  | error =>
    cases h
    exact ⟨rfl, nofun, fun _ hok => absurd rfl hok⟩
  | data n =>
    simp only at h
    have hle := hfits n rfl file hreads.fileDesc
    have hwithin := hreads.within
    have hnonneg := hreads.nonneg
    have hsplit := take_drop_chunk file.content ((Int.le_toNat hnonneg).mpr hle)
    rw [if_neg (fun hboth => chunk_ne_nil (by omega) (by omega) n hboth.1)] at h
    split at h
    · next hlast =>
      cases h
      exact readChunk_last hreads hsplit hlast rfl rfl rfl rfl rfl rfl rfl
    · next hmore =>
      cases h
      exact readChunk_more hreads hsplit hmore s.cache

theorem httpCacheRead_delivers {r : ReadResult} (hstage : s.Stage cfg)
    (hread : s.readSocket = .httpCacheRead)
    (h : httpCacheRead cfg g s r = some (g', s', died)) :
    Delivers cfg g s (r ≠ .error) g' s' died := by
  obtain ⟨file, hreads⟩ := hstage.reads_of (Or.inl hread)
  have hreset : ∀ g₁, s.resetCache.pending g₁ = s.pending g := by
    intro g₁
    unfold HttpSock.pending HttpSock.rest
    rw [show s.resetCache.flagCache = false from hreads.flagCache, hreads.flagCache]
    rfl
  unfold httpCacheRead at h
  simp only at h
  split at h
  · cases h
    exact ⟨rfl, fun _ => hstage, nofun⟩
  next hspace =>
  simp only [Option.bind_eq_bind, Option.bind_eq_some_iff] at h
  obtain ⟨k, -, h⟩ := h
  rw [hreads.fileDesc] at h
  cases r with
  | error =>
    simp only [cacheReadError] at h
    split at h
    · simp only [Option.map_eq_some_iff] at h
      obtain ⟨g₁, -, h⟩ := h
      cases h
      refine ⟨?_, nofun, fun _ hok => absurd rfl hok⟩
      rw [hreset]
      rfl
    · cases h
      exact ⟨rfl, nofun, fun _ hok => absurd rfl hok⟩
  | data n =>
    simp only at h
    have hwhole := hreads.whole hread
    have hnonneg := hreads.nonneg
    have hle : (chunk file.content file.pos n
        (cfg.sendBufferSize - s.sendBuffer.length)).length ≤ s.filelength := by
      rw [chunk, List.length_take, List.length_drop]
      omega
    have hsplit := take_drop_chunk file.content ((Int.le_toNat hnonneg).mpr hle)
    have hsome : s.filelength ≠ 0 → chunk file.content file.pos n
        (cfg.sendBufferSize - s.sendBuffer.length) ≠ [] := by
      intro hzero
      exact chunk_ne_nil (by omega) (by omega) n
    generalize chunk file.content file.pos n (cfg.sendBufferSize - s.sendBuffer.length) =
      bytes at h hle hsplit hsome
    split at h
    · next hempty =>
      have hzero : s.filelength = 0 := not_not.mp fun hne => hsome hne hempty
      subst hempty
      simp only [cacheReadEnd, Option.map_eq_some_iff] at h
      obtain ⟨g₁, -, h⟩ := h
      rw [if_neg (not_not.mpr hzero)] at h
      cases h
      refine readChunk_last hreads hsplit ?_ rfl rfl rfl rfl rfl rfl (List.append_nil _).symm
      change s.filelength - 0 ≤ 0
      omega
    · simp only [cacheReadData, Option.bind_eq_bind, Option.bind_eq_some_iff] at h
      obtain ⟨⟨g₁, p⟩, -, h⟩ := h
      simp only at h
      split at h
      · next hlast =>
        simp only [Option.map_eq_some_iff] at h
        obtain ⟨g₂, -, h⟩ := h
        cases h
        exact readChunk_last hreads hsplit hlast rfl rfl rfl rfl rfl rfl rfl
      · next hmore =>
        cases h
        exact readChunk_more hreads hsplit hmore _

/-! ## Requests -/

/-- What the delivery of a file relies on. -/
structure GetRequest.Deliverable (cfg : HttpConfig) (disk : FileName → Int → List UInt8) (g : Cache)
    (s : HttpSock) (req : GetRequest) : Prop where
  onDisk : req.content = disk req.file req.mtime
  newer : ∀ a ∈ g.svzHashGet req.file, ∀ e ∈ g.entry a, e.date ≤ req.mtime
  nonneg : 0 ≤ req.stSize
  small : req.stSize < 2 ^ 31
  offset : cfg.sendfile = true → g.bypassed cfg req = true →
    s.fileoffset = req.start ∧ req.simple = false

theorem GetRequest.stSize_of_whole {req : GetRequest} (h : req.delivery = .whole) :
    req.start = 0 ∧ req.stSize = req.content.length := by
  unfold GetRequest.start GetRequest.stSize
  rw [h]
  exact ⟨rfl, rfl⟩

theorem GetRequest.part_within {req : GetRequest} {first last : Int}
    (h : req.delivery = .part first last) : 0 ≤ first ∧ last + 1 ≤ req.content.length := by
  unfold GetRequest.delivery at h
  cases hrange : req.range with
  | none =>
    rw [hrange] at h
    cases h
  | some range =>
    rw [hrange] at h
    simp only at h
    split at h
    · next hcheck =>
      simp only [httpCheckRange, Bool.not_eq_true', Bool.or_eq_false_iff,
        decide_eq_false_iff_not] at hcheck
      rw [Delivery.part.injEq] at h
      obtain ⟨rfl, rfl⟩ := h
      refine ⟨Int.natCast_nonneg _, ?_⟩
      split
      · omega
      · omega
    · cases h

/-- The part of the file that is asked for is within the file. -/
theorem GetRequest.within (req : GetRequest) : req.start + req.stSize ≤ req.content.length := by
  unfold GetRequest.start GetRequest.stSize
  cases hdelivery : req.delivery with
  | part first last =>
    have hwithin := GetRequest.part_within hdelivery
    change (first.toNat : Int) + (last - first + 1) ≤ _
    omega
  | whole => simp
  | invalid => simp

theorem GetRequest.length_slice {req : GetRequest} (hnonneg : 0 ≤ req.stSize) :
    (req.slice.length : Int) = req.stSize := by
  have hwithin := req.within
  rw [GetRequest.slice, List.length_take, List.length_drop]
  omega

/-- **The announced length** is that of the body. -/
theorem GetRequest.contentLength_eq {req : GetRequest} {n : Int} (hnonneg : 0 ≤ req.stSize)
    (h : req.contentLength = some n) : (req.slice.length : Int) = n := by
  rw [GetRequest.length_slice hnonneg]
  unfold GetRequest.contentLength at h
  cases hdelivery : req.delivery with
  | part first last =>
    rw [hdelivery] at h
    cases h
    rw [GetRequest.stSize, hdelivery]
  | whole =>
    rw [hdelivery] at h
    simp only [Option.ite_none_right_eq_some, Option.some_inj] at h
    exact h.2
  | invalid =>
    rw [hdelivery] at h
    simp only [Option.ite_none_right_eq_some, Option.some_inj] at h
    exact h.2

theorem toInt_eq {n : Int} (hnonneg : 0 ≤ n) (hsmall : n < 2 ^ 31) : toInt n = n := by
  unfold toInt
  rw [Int.bmod_eq_of_le] <;> omega

theorem lookup_complete {req : GetRequest} {l : List Addr} {k : HttpCache} (hl : Listed g l)
    (h : lookup g req = some (g', k, .complete)) :
    ∃ a e, k = ⟨e.buffer, e.size, some a⟩ ∧ req.delivery = .whole ∧ e.file = req.file ∧
      e.ready = true ∧ g.entry a = some e ∧ SameData g g' := by
  unfold lookup at h
  split at h
  · next hwhole =>
    rcases hl.httpCheckCache_spec req.file httpCacheReset with ⟨hcheck, -⟩ |
        ⟨a, e, g₁, l₁, he, hfile, hsame, -, hcheck⟩
    · rw [hcheck] at h
      cases h
    · rw [hcheck] at h
      cases hready : e.ready with
      | false =>
        rw [hready] at h
        cases h
      | true =>
        rw [hready] at h
        cases h
        exact ⟨a, e, rfl, hwhole, hfile, hready, he, hsame⟩
  · cases h

section Starting

variable {disk : FileName → Int → List UInt8} {req : GetRequest} {l : List Addr}
  (hl : Listed g l) (hopen : s.Open) (hread : s.readSocket = .svzTcpReadSocket)
  (hbuffer : s.sendBuffer = [] ↔ req.simple = true)
  (hfaithful : ∀ a e, dataOf g.entry a = some e → e.ready = true →
    g.contents e.buffer = disk e.file e.date)
  (hreq : req.Deliverable cfg disk g s)

include hl hfaithful hreq in
theorem hit_contents {g₁ : Cache} {k : HttpCache} {a : Addr} {e : CacheEntry}
    (hlookup : lookup g req = some (g₁, k, .complete)) (ha : k.entry = some a)
    (he : g₁.entry a = some e) (hsame : ¬ (req.mtime > e.date ∨ req.stSize ≠ e.size))
    (hblock : g'.block = g₁.block) : (g'.contents k.buffer).take k.size = req.slice := by
  obtain ⟨b, e₀, rfl, hwhole, hfile, hready, he₀, hdata⟩ := lookup_complete hl hlookup
  obtain rfl : b = a := Option.some_inj.mp ha
  obtain ⟨e₁, he₁, hunlinked⟩ := exists_of_dataOf (congrFun hdata.data b) he₀
  obtain rfl : e = e₁ := Option.some_inj.mp (he.symm.trans he₁)
  have hdate : e.unlinked.date = e₀.unlinked.date := congrArg CacheEntry.date hunlinked
  have hsize : e.unlinked.size = e₀.unlinked.size := congrArg CacheEntry.size hunlinked
  change e.date = e₀.date at hdate
  change e.size = e₀.size at hsize
  have hget : g.svzHashGet req.file = some b := hl.svzHashGet_eq_some_iff.mpr ⟨e₀, he₀, hfile⟩
  have hnewer := hreq.newer b hget e₀ he₀
  obtain ⟨hstart, hst⟩ := GetRequest.stSize_of_whole hwhole
  have hcontents : g'.contents e₀.buffer = req.content := by
    rw [contents_congr (g := g) fun q _ => (congrFun hblock q.block).trans
      (congrFun hdata.block q.block)]
    refine (hfaithful b e₀.unlinked (dataOf_eq_some he₀) hready).trans ?_
    rw [hreq.onDisk]
    change disk e₀.file e₀.date = _
    rw [hfile, show e₀.date = req.mtime by omega]
  change (g'.contents e₀.buffer).take e₀.size = _
  rw [hcontents, GetRequest.slice, hstart, List.drop_zero]
  congr 1
  omega

include hl hopen hread hbuffer hfaithful hreq in
theorem Started.delivers (h : Started cfg g s req g' s') :
    s'.sent ++ s'.pending g' = s.sent ++ s.sendBuffer ++ req.slice ∧ s'.Stage cfg := by
  have hint : toInt req.stSize = req.stSize := toInt_eq hreq.nonneg hreq.small
  have hslice : (req.content.drop req.start).take (toInt req.stSize).toNat = req.slice := by
    rw [hint]
    rfl
  have hnonneg : 0 ≤ toInt req.stSize := hint.symm ▸ hreq.nonneg
  have hwithin : req.start + toInt req.stSize ≤ req.content.length := hint.symm ▸ req.within
  cases h with
  | @hit g₁ _ k a e hlookup ha he hsame hblock =>
    have hcontents := hit_contents hl hfaithful hreq hlookup ha he hsame hblock
    cases hsimple : req.simple with
    | true =>
      refine ⟨?_, .cached hread nofun rfl hopen.flagDone nofun⟩
      rw [hbuffer.mpr hsimple, List.append_nil, ← hcontents]
      rfl
    | false =>
      have hne : s.sendBuffer ≠ [] := by
        intro hnil
        exact absurd (hsimple.symm.trans (hbuffer.mp hnil)) nofun
      refine ⟨?_, .cached hread ?_ rfl hopen.flagDone hne⟩
      · rw [pending_default, List.append_assoc, ← hcontents]
        · rfl
        · exact hopen.writeSocket
      · change s.writeSocket ≠ _
        rw [hopen.writeSocket]
        exact WriteSocket.noConfusion
  | @fill _ cache hwhole =>
    obtain ⟨hstart, hst⟩ := GetRequest.stSize_of_whole hwhole
    have hreads : HttpSock.Reads { s with
        cache := some cache, fileDesc := some ⟨req.content, req.start⟩
        filelength := toInt req.stSize, readSocket := .httpCacheRead
        disconnectedSocket := .httpCacheDisconnect } ⟨req.content, req.start⟩ := by
      refine ⟨Or.inl rfl, hopen.writeSocket, hopen.flagCache, hopen.flagSendfile, hopen.flagDone,
        rfl, hnonneg, hwithin, fun _ => ?_⟩
      change (req.start : Int) + toInt req.stSize = req.content.length
      rw [hint, hstart, hst]
      omega
    refine ⟨?_, .reads hreads⟩
    rw [hreads.pending_eq, List.append_assoc]
    exact congrArg (fun x => s.sent ++ (s.sendBuffer ++ x)) hslice
  | @bypass _ cache hbypassed =>
    unfold uncached
    split
    · next hcfg =>
      obtain ⟨hoffset, hsimple⟩ := hreq.offset hcfg hbypassed
      have hne : s.sendBuffer ≠ [] := by
        intro hnil
        exact absurd (hsimple.symm.trans (hbuffer.mp hnil)) nofun
      have hwriter : s.writeSocket ≠ .httpCacheWrite := by
        rw [hopen.writeSocket]
        exact WriteSocket.noConfusion
      refine ⟨?_, .sendfile hcfg rfl hwriter hopen.flagCache rfl hopen.flagDone hne rfl hnonneg ?_⟩
      · rw [pending_default, List.append_assoc, ← hslice, ← hoffset, HttpSock.rest, if_neg]
        · rfl
        · rw [hopen.flagCache]
          exact Bool.noConfusion
        · exact hopen.writeSocket
      · change (s.fileoffset : Int) + toInt req.stSize ≤ _
        rw [hoffset]
        exact hwithin
    · have hreads : HttpSock.Reads { s with
          fileDesc := some ⟨req.content, req.start⟩, filelength := toInt req.stSize
          cache := some cache, readSocket := .httpFileRead } ⟨req.content, req.start⟩ :=
        ⟨Or.inr rfl, hopen.writeSocket, hopen.flagCache, hopen.flagSendfile, hopen.flagDone, rfl,
          hnonneg, hwithin, nofun⟩
      refine ⟨?_, .reads hreads⟩
      rw [hreads.pending_eq, List.append_assoc]
      exact congrArg (fun x => s.sent ++ (s.sendBuffer ++ x)) hslice

end Starting

/-- **A request** between two responses adds its response to what is pending. -/
theorem Answered.delivers {disk : FileName → Int → List UInt8} {l : List Addr} {flushed : Prop}
    {answer : Answer} (hl : Listed g l) (hidle : s.Idle)
    (hfaithful : ∀ a e, dataOf g.entry a = some e → e.ready = true →
      g.contents e.buffer = disk e.file e.date)
    (hreq : ∀ req, answer = .get req → req.transfers = true → req.Deliverable cfg disk g s)
    (hflushed : flushed) (h : Answered cfg g s flushed answer g' s' died) :
    s'.sent ++ s'.pending g' = s.sent ++ answer.response ∧ (died = false → s'.Stage cfg) := by
  cases h with
  | @text _ _ n keep t b htext =>
    refine ⟨?_, fun _ => .done hidle.readSocket hidle.writeSocket hidle.flagCache
      hidle.flagSendfile rfl⟩
    rw [pending_default, rest_eq_nil, List.append_nil]
    · exact htext hflushed
    · exact hidle.readSocket
    · exact hidle.flagCache
    · exact hidle.flagSendfile
    · exact hidle.writeSocket
  | @file req n keep t b _ _ htransfers htext hbuffer hstarted =>
    have hopen : HttpSock.Open { s.put t b with keepalive := n, flagKeep := keep } :=
      ⟨hidle.writeSocket, hidle.flagCache, hidle.flagDone, hidle.flagSendfile⟩
    have hreq := hreq req rfl htransfers
    obtain ⟨hsent, hstage⟩ := hstarted.delivers hl hopen hidle.readSocket hbuffer hfaithful
      ⟨hreq.onDisk, hreq.newer, hreq.nonneg, hreq.small, hreq.offset⟩
    refine ⟨?_, fun _ => hstage⟩
    rw [hsent, Answer.response, if_pos htransfers, ← List.append_assoc, ← htext hflushed]
    rfl
  | malformed =>
    refine ⟨?_, fun hfalse => Bool.noConfusion hfalse⟩
    rw [hidle.pending_eq_nil]
    rfl

end Serveez.Transfer
