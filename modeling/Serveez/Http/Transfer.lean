import Serveez.Http.Cache
import Mathlib.Algebra.Group.Nat.Defs
import Mathlib.Algebra.Group.Int.Defs

/-!
# The delivery of files by the HTTP server

A connection reads requests, answers a `GET` from the cache, through the cache, with `sendfile`
or by reading the file into its send buffer, and is used again if it is kept alive. Here are its
callbacks `read_socket`, `write_socket` and `disconnected_socket` with the functions of
`http-proto.c`, `http-core.c` and `http-cache.c` they call. A callback works on the cache, which
all connections share, and on its own socket; where it answers -1 the third component of its
result is `true` and the connection is killed.

An event of the server is one call of a callback. It says what the system calls do: how many
bytes are read or sent, and what a request asks for and finds on the disk. The contents of the
files are bytes in a list; an open file may change between two events.
-/

namespace Serveez.Transfer

inductive ReadSocket
  | svzTcpReadSocket
  | httpCacheRead
  | httpFileRead
  | null
deriving DecidableEq

inductive WriteSocket
  | httpDefaultWrite
  | httpCacheWrite
  | httpSendFile
deriving DecidableEq

inductive DisconnectedSocket
  | httpDisconnect
  | httpCacheDisconnect

/-- A file descriptor: the file's contents and the position. -/
structure OpenFile where
  content : List UInt8
  pos : Nat

/-- The socket structure and its `http_socket_t`. The bytes the system has taken for the client
are recorded in `sent`. -/
structure HttpSock where
  readSocket : ReadSocket
  writeSocket : WriteSocket
  disconnectedSocket : DisconnectedSocket
  flagCache : Bool
  flagDone : Bool
  flagKeep : Bool
  flagSendfile : Bool
  keepalive : Nat
  cache : Option HttpCache
  fileDesc : Option OpenFile
  filelength : Int
  fileoffset : Nat
  sendBuffer : List UInt8
  recvBuffer : List UInt8
  sent : List UInt8
  killed : Bool

structure HttpConfig where
  cachesize : Nat
  keepalive : Nat
  sendBufferSize : Nat
  recvBufferSize : Nat
  /-- The program has been built with `sendfile`. -/
  sendfile : Bool

/-- What the system call of a writer does. -/
inductive SendResult
  | sent (n : Nat)
  | unavailable
  | error
deriving DecidableEq

/-- What `read` does; it answers no bytes only at the end of the file. -/
inductive ReadResult
  | data (n : Nat)
  | error
deriving DecidableEq

/-- What a callback leaves behind: the cache, the socket, and whether it answers -1. -/
abbrev Result := Option (Cache × HttpSock × Bool)

/-- The value of an `int` variable. -/
def toInt (x : Int) : Int := Int.bmod x (2 ^ 32)

def svzSockMaxWrite : Nat := 1024

/-- What is in the send buffer when the source sets its fill to 42, in order to be called. -/
def stale : List UInt8 := List.replicate 42 0

/-! ## The end of a response -/

/-- `cache->entry->usage--`. -/
def decreaseUsage (g : Cache) (s : HttpSock) : Option Cache := do
  let cache ← s.cache
  let entry ← cache.entry
  g.modify entry fun e => { e with usage := e.usage - 1 }

def httpFreeSocket (g : Cache) (s : HttpSock) : Option (Cache × HttpSock) :=
  (if s.flagCache then decreaseUsage g s else some g).map fun g =>
    (g, { s with cache := none, fileDesc := none })

def httpKeepAlive (g : Cache) (s : HttpSock) : Result :=
  if s.flagKeep then do
    let (g, s) ← httpFreeSocket g s
    some (g, { s with
      flagCache := false, flagDone := false, flagKeep := false, flagSendfile := false
      readSocket := .svzTcpReadSocket, writeSocket := .httpDefaultWrite, sendBuffer := [] }, false)
  else some (g, s, true)

def httpDisconnect (g : Cache) (s : HttpSock) : Option Cache := (httpFreeSocket g s).map Prod.fst

def httpCacheDisconnect (g : Cache) (s : HttpSock) : Option Cache :=
  match s.cache with
  | none => httpDisconnect g s
  | some cache =>
    match cache.entry with
    | none => httpDisconnect g s
    | some entry => do
      let e ← g.entry entry
      if e.ready then httpDisconnect g s
      else do
        -- the entry has not been fully read
        let g ← g.httpCacheDestroyEntry entry
        let g ← g.freeBlock cache.buffer
        httpDisconnect g { s with cache := some Cache.httpCacheReset }

/-! ## Writers -/

/-- The number of bytes a send of at most `limit` bytes takes. -/
def SendResult.count (limit : Nat) : SendResult → Nat
  | .sent n => min n limit
  | _ => 0

/-- Once the whole response has been sent the connection is kept or closed. -/
def checkDone (g : Cache) (s : HttpSock) (died : Bool) : Result :=
  if s.flagDone ∧ s.sendBuffer = [] then httpKeepAlive g s else some (g, s, died)

/-- The file may have to be sent now, from the cache or with `sendfile`. -/
def switchWriter (cfg : HttpConfig) (s : HttpSock) : HttpSock :=
  if s.sendBuffer ≠ [] then s
  else if s.flagCache then { s with sendBuffer := stale, writeSocket := .httpCacheWrite }
  else if cfg.sendfile ∧ s.flagSendfile then
    { s with sendBuffer := stale, writeSocket := .httpSendFile }
  else s

def httpDefaultWrite (cfg : HttpConfig) (g : Cache) (s : HttpSock) (r : SendResult) : Result :=
  let n := r.count s.sendBuffer.length
  let s := { s with sendBuffer := s.sendBuffer.drop n, sent := s.sent ++ s.sendBuffer.take n }
  (checkDone g s (r = .error)).map fun p => (p.1, switchWriter cfg p.2.1, p.2.2)

/-- The bytes of a cached file that are sent next. -/
def cachedBytes (g : Cache) (cache : HttpCache) (n : Nat) : Option (List UInt8) :=
  if n = 0 then some [] else (cache.buffer.bind g.bytesAt).map (List.take n)

/-- The next `n` bytes have been sent. -/
def HttpCache.advance (cache : HttpCache) (n : Nat) : HttpCache :=
  { cache with
    buffer := cache.buffer.map fun p => { p with off := p.off + n }
    size := cache.size - n }

def httpCacheWrite (g : Cache) (s : HttpSock) (r : SendResult) : Result := do
  let cache ← s.cache
  let _ ← cache.entry
  let n := r.count (min cache.size (svzSockMaxWrite <<< 5))
  let bytes ← cachedBytes g cache n
  let s := { s with cache := some (cache.advance n), sent := s.sent ++ bytes }
  if cache.size - n = 0 then httpKeepAlive g s else some (g, s, r = .error)

/-- The bytes at the offset of an open file that a transfer of at most `limit` bytes takes. -/
def chunk (content : List UInt8) (off n limit : Nat) : List UInt8 :=
  (content.drop off).take (min (max n 1) limit)

/-- The number of bytes `http_send_file` asks for. A negative one is very large for
`sendfile`. -/
def HttpSock.doWrite (s : HttpSock) (file : OpenFile) : Nat :=
  let n : Int := if s.filelength > svzSockMaxWrite then svzSockMaxWrite else s.filelength
  if n < 0 then file.content.length else n.toNat

/-- `sendfile` has taken some bytes. -/
def HttpSock.sendChunk (s : HttpSock) (bytes : List UInt8) : HttpSock :=
  { s with
    fileoffset := s.fileoffset + bytes.length
    filelength := s.filelength - bytes.length
    sent := s.sent ++ bytes }

/-- `sendfile` has taken the last bytes. -/
def HttpSock.endSendfile (s : HttpSock) : HttpSock :=
  { s with
    readSocket := .svzTcpReadSocket, recvBuffer := [], sendBuffer := []
    writeSocket := .httpDefaultWrite, flagSendfile := false }

def httpSendFile (g : Cache) (s : HttpSock) (r : SendResult) : Result :=
  match s.fileDesc, r with
  | some file, .sent n =>
    let bytes := chunk file.content s.fileoffset n (s.doWrite file)
    if bytes = [] ∧ s.filelength ≠ 0 then some (g, s, true)
    else if (s.sendChunk bytes).filelength ≤ 0 then
      httpKeepAlive g (s.sendChunk bytes).endSendfile
    else some (g, s.sendChunk bytes, false)
  | _, _ => some (g, s, true)

def writeSocket (cfg : HttpConfig) (g : Cache) (s : HttpSock) (r : SendResult) : Result :=
  match s.writeSocket with
  | .httpDefaultWrite => httpDefaultWrite cfg g s r
  | .httpCacheWrite => httpCacheWrite g s r
  | .httpSendFile => httpSendFile g s r

/-! ## Readers of files -/

/-- The entry of the cache gets what has been read. -/
def completeEntry (g : Cache) (cache : HttpCache) : Option Cache := do
  let entry ← cache.entry
  g.modify entry fun e => { e with size := cache.size, buffer := cache.buffer, ready := true }

/-- Bytes have been read from the file into the send buffer. -/
def HttpSock.readChunk (s : HttpSock) (file : OpenFile) (bytes : List UInt8) : HttpSock :=
  { s with
    fileDesc := some { file with pos := file.pos + bytes.length }
    sendBuffer := s.sendBuffer ++ bytes
    filelength := s.filelength - bytes.length }

/-- The whole file has been read. -/
def HttpSock.endFile (s : HttpSock) : HttpSock :=
  { s with readSocket := .svzTcpReadSocket, flagDone := true }

/-- The `http_cache_t` of a socket has been reset. -/
def HttpSock.resetCache (s : HttpSock) : HttpSock :=
  { s with cache := some Cache.httpCacheReset }

/-- The file has ended. If it is too early the size from `stat` was not true. -/
def cacheReadEnd (g : Cache) (s : HttpSock) (cache : HttpCache) : Result :=
  (completeEntry g cache).map fun g =>
    if s.filelength ≠ 0 then (g, s.resetCache, true) else (g, s.resetCache.endFile, false)

def cacheReadData (g : Cache) (s : HttpSock) (cache : HttpCache) (file : OpenFile)
    (bytes : List UInt8) : Result := do
  let (g, buffer) ← g.extend cache.buffer bytes
  let cache : HttpCache := ⟨some buffer, cache.size + bytes.length, cache.entry⟩
  if (s.readChunk file bytes).filelength ≤ 0 then
    (completeEntry g cache).map fun g => (g, (s.readChunk file bytes).resetCache.endFile, false)
  else some (g, { s.readChunk file bytes with cache := some cache }, false)

/-- The buffer is released, if there is one. -/
def cacheReadError (g : Cache) (s : HttpSock) (cache : HttpCache) : Result :=
  if cache.size > 0 then (g.freeBlock cache.buffer).map fun g => (g, s.resetCache, true)
  else some (g, s, true)

def httpCacheRead (cfg : HttpConfig) (g : Cache) (s : HttpSock) (r : ReadResult) : Result :=
  let doRead := cfg.sendBufferSize - s.sendBuffer.length
  if doRead = 0 then some (g, s, false)
  else do
    let cache ← s.cache
    match s.fileDesc, r with
    | some file, .data n =>
      let bytes := chunk file.content file.pos n doRead
      if bytes = [] then cacheReadEnd g s cache else cacheReadData g s cache file bytes
    | _, _ => cacheReadError g s cache

def httpFileRead (cfg : HttpConfig) (g : Cache) (s : HttpSock) (r : ReadResult) : Result :=
  let doRead := cfg.sendBufferSize - s.sendBuffer.length
  if doRead = 0 then some (g, s, false)
  else
    match s.fileDesc, r with
    | some file, .data n =>
      let bytes := chunk file.content file.pos n doRead
      if bytes = [] ∧ s.filelength ≠ 0 then some (g, s, true)
      else if (s.readChunk file bytes).filelength ≤ 0 then
        some (g, (s.readChunk file bytes).endFile, false)
      else some (g, s.readChunk file bytes, false)
    | _, _ => some (g, s, true)

/-! ## Requests -/

/-- `http_range_t` as `http_get_range` fills it in. -/
structure HttpRange where
  first : Nat
  last : Nat
  length : Nat
deriving DecidableEq

/-- `HTTP_VERSION`, which every header begins with. -/
def httpVersion : List UInt8 := [72, 84, 84, 80, 47, 49, 46, 48]

/-- The two texts of a response: the status line with the date and the name of the server, and
the fields; or the status line of an error, and the page. What follows `HTTP_VERSION` in the first
text is `status`. -/
structure HttpHeader where
  status : List UInt8
  field : List UInt8
deriving DecidableEq

def HttpHeader.response (header : HttpHeader) : List UInt8 := httpVersion ++ header.status

/-- A `GET` or `HEAD` request for a regular file that could be opened: what the request says, and
what `stat` and the disk know about the file. -/
structure GetRequest where
  file : FileName
  content : List UInt8
  mtime : Int
  header : HttpHeader
  keepAlive : Bool
  simple : Bool
  nofile : Bool
  /-- The file is not newer than the request's `If-Modified-Since`. -/
  notModified : Bool
  range : Option HttpRange
deriving DecidableEq

inductive Answer
  | get (req : GetRequest)
  /-- An error or a relocation. -/
  | plain (header : HttpHeader)
  | listing (dir : List UInt8)
  /-- `http_handle_request` answers -1. -/
  | malformed
deriving DecidableEq

/-- `http_check_range`; `true` where the source answers zero. -/
def httpCheckRange (range : HttpRange) (filesize : Nat) : Bool :=
  !(range.first = 0 || (range.last ≠ 0 && range.last ≤ range.first) ||
    (range.last ≥ filesize || range.length > filesize))

/-- The part of the file to be delivered. -/
inductive Delivery
  | whole
  | part (first last : Int)
  | invalid
deriving DecidableEq

def GetRequest.delivery (req : GetRequest) : Delivery :=
  match req.range with
  | none => .whole
  | some range =>
    if httpCheckRange range req.content.length then
      .part range.first (if range.last = 0 then (req.content.length : Int) - 1 else range.last)
    else .invalid

/-- `buf.st_size` when the header is written. -/
def GetRequest.stSize (req : GetRequest) : Int :=
  match req.delivery with
  | .part first last => last - first + 1
  | _ => req.content.length

/-- The position of the file descriptor after `lseek`. -/
def GetRequest.start (req : GetRequest) : Nat :=
  match req.delivery with
  | .part first _ => first.toNat
  | _ => 0

/-- The `Content-Length` in the header, if there is one. -/
def GetRequest.contentLength (req : GetRequest) : Option Int :=
  match req.delivery with
  | .part first last => some (last - first + 1)
  | _ => if req.stSize > 0 then some req.stSize else none

def httpCheckKeepalive (s : HttpSock) : HttpSock :=
  if s.flagKeep ∧ s.keepalive > 0 then { s with keepalive := s.keepalive - 1 }
  else { s with flagKeep := false }

/-- `svz_sock_write` flushes the send buffer before it puts more into it. -/
def svzSockWrite (cfg : HttpConfig) (g : Cache) (s : HttpSock) (bytes : List UInt8)
    (flush : SendResult) : Result :=
  if bytes = [] then some (g, s, false)
  else if s.sendBuffer = [] then some (g, { s with sendBuffer := bytes }, false)
  else do
    let (g, s, died) ← writeSocket cfg g s flush
    if died then some (g, s, true)
    else some (g, { s with sendBuffer := s.sendBuffer ++ bytes }, false)

/-- What the flushes for the two texts of a response do. -/
structure Flush where
  first : SendResult
  second : SendResult
deriving DecidableEq

/-- The fields are not written if the first text cannot be. -/
def httpSendHeader (cfg : HttpConfig) (g : Cache) (s : HttpSock) (header : HttpHeader)
    (flush : Flush) : Option (Cache × HttpSock) := do
  let (g, s, died) ← svzSockWrite cfg g s header.response flush.first
  if died then some (g, s)
  else do
    let (g, s, _) ← svzSockWrite cfg g s header.field flush.second
    some (g, s)

/-- The status line and the page of an error. -/
def httpErrorResponse (cfg : HttpConfig) (g : Cache) (s : HttpSock) (header : HttpHeader)
    (flush : Flush) : Option (Cache × HttpSock) := do
  let (g, s, _) ← svzSockWrite cfg g s header.response flush.first
  let (g, s, _) ← svzSockWrite cfg g s header.field flush.second
  some (g, { s with flagDone := true })

/-- The file is not delivered from the cache nor put into it. -/
def uncached (cfg : HttpConfig) (s : HttpSock) : HttpSock :=
  if cfg.sendfile then { s with readSocket := .null, flagSendfile := true }
  else { s with readSocket := .httpFileRead }

/-- A partial delivery does not ask the cache. -/
def lookup (g : Cache) (req : GetRequest) : Option (Cache × HttpCache × CacheStatus) :=
  if req.delivery = .whole then g.httpCheckCache req.file Cache.httpCacheReset
  else some (g, Cache.httpCacheReset, .inhibit)

/-- The file is completely in the cache: has it changed on the disk? -/
def fromCache (g : Cache) (s : HttpSock) (req : GetRequest) (cache : HttpCache) :
    Option (Cache × HttpSock) := do
  let entry ← cache.entry
  let e ← g.entry entry
  if req.mtime > e.date ∨ req.stSize ≠ e.size then
    let (g, cache) ← g.httpRefreshCache cache
    let g ← g.modify entry fun e => { e with date := req.mtime }
    some (g, { s with
      cache := some cache, fileDesc := some ⟨req.content, req.start⟩
      filelength := toInt req.stSize
      readSocket := .httpCacheRead, disconnectedSocket := .httpCacheDisconnect })
  else
    let g ← g.modify entry fun e => { e with hits := e.hits + 1, usage := e.usage + 1 }
    let s := { s with cache := some cache, flagCache := true }
    if req.simple then
      some (g, { s with sendBuffer := stale, writeSocket := .httpCacheWrite })
    else some (g, s)

/-- The file is not in the cache structures yet, or not all of it. -/
def fromDisk (cfg : HttpConfig) (g : Cache) (s : HttpSock) (req : GetRequest) (cache : HttpCache)
    (status : CacheStatus) : Option (Cache × HttpSock) := do
  let s := { s with
    fileDesc := some ⟨req.content, req.start⟩, filelength := toInt req.stSize }
  if status = .no ∧ 0 < req.stSize ∧ req.stSize < cfg.cachesize then
    let (g, cache, free) ← g.httpInitCache req.file
    if free then
      let entry ← cache.entry
      let g ← g.modify entry fun e => { e with date := req.mtime }
      some (g, { s with
        cache := some cache
        readSocket := .httpCacheRead, disconnectedSocket := .httpCacheDisconnect })
    else some (g, uncached cfg { s with cache := some cache })
  else some (g, uncached cfg { s with cache := some cache })

/-- The last part of `http_get_response`: how the file gets to the client. -/
def startTransfer (cfg : HttpConfig) (g : Cache) (s : HttpSock) (req : GetRequest) :
    Option (Cache × HttpSock) := do
  let (g, cache, status) ← lookup g req
  if status = .complete then fromCache g s req cache else fromDisk cfg g s req cache status

/-- The header of the response, which a simple request does not get. -/
def sendHeader (cfg : HttpConfig) (g : Cache) (s : HttpSock) (req : GetRequest)
    (flush : Flush) : Option (Cache × HttpSock) :=
  if req.simple then some (g, s)
  else httpSendHeader cfg g (httpCheckKeepalive s) req.header flush

def httpGetResponse (cfg : HttpConfig) (g : Cache) (s : HttpSock) (req : GetRequest)
    (flush : Flush) : Option (Cache × HttpSock) :=
  let s := { s with flagKeep := s.flagKeep || req.keepAlive }
  if req.notModified then
    (httpSendHeader cfg g (httpCheckKeepalive s) req.header flush).map fun p =>
      (p.1, { p.2 with flagDone := true })
  else if req.delivery = .invalid then httpErrorResponse cfg g s req.header flush
  else do
    let (g, s) ← sendHeader cfg g s req flush
    if req.nofile then some (g, { s with flagDone := true }) else startTransfer cfg g s req

def httpHandleRequest (cfg : HttpConfig) (g : Cache) (s : HttpSock) (answer : Answer)
    (flush : Flush) : Result :=
  match answer with
  | .get req => (httpGetResponse cfg g s req flush).map fun p => (p.1, p.2, false)
  | .plain header => (httpErrorResponse cfg g s header flush).map fun p => (p.1, p.2, false)
  | .listing dir => some (g, { s with sendBuffer := dir, flagDone := true }, false)
  | .malformed => some (g, s, true)

/-- The length of the first request in a buffer, if there is a complete one. -/
def requestLength : List UInt8 → Option Nat
  | [] => none
  | x :: l =>
    if [13, 10, 13, 10] <+: x :: l then some 4 else (requestLength l).map (· + 1)

def httpCheckRequest (cfg : HttpConfig) (g : Cache) (s : HttpSock) (answer : Answer)
    (flush : Flush) : Result :=
  match requestLength s.recvBuffer with
  | none => some (g, s, false)
  | some len => do
    let (g, s, died) ← httpHandleRequest cfg g s answer flush
    if died then some (g, s, true)
    else some (g, { s with recvBuffer := s.recvBuffer.drop len }, false)

def svzTcpReadSocket (cfg : HttpConfig) (g : Cache) (s : HttpSock) (bytes : List UInt8)
    (answer : Answer) (flush : Flush) : Result :=
  let doRead := cfg.recvBufferSize - s.recvBuffer.length
  if doRead = 0 ∨ bytes = [] then some (g, s, true)
  else
    httpCheckRequest cfg g { s with recvBuffer := s.recvBuffer ++ bytes.take doRead } answer flush

/-! ## The server -/

/-- The cache and the connections: the sockets in the list of the server are `socks`. -/
structure World where
  cache : Cache
  socks : List Nat
  sock : Nat → HttpSock

/-- `http_connect_socket`. -/
def httpConnectSocket (cfg : HttpConfig) : HttpSock where
  readSocket := .svzTcpReadSocket
  writeSocket := .httpDefaultWrite
  disconnectedSocket := .httpDisconnect
  flagCache := false
  flagDone := false
  flagKeep := false
  flagSendfile := false
  keepalive := cfg.keepalive
  cache := none
  fileDesc := none
  filelength := 0
  fileoffset := 0
  sendBuffer := []
  recvBuffer := []
  sent := []
  killed := false

inductive Event
  | connect (c : Nat)
  /-- Bytes arrive. If they complete a request it gets `answer`. -/
  | receive (c : Nat) (bytes : List UInt8) (answer : Answer) (flush : Flush)
  | readFile (c : Nat) (r : ReadResult)
  | write (c : Nat) (r : SendResult)
  | disconnect (c : Nat)
  /-- The file that the connection has opened changes on the disk. -/
  | change (c : Nat) (content : List UInt8)
deriving DecidableEq

/-- The connection of an event. -/
def Event.conn : Event → Nat
  | .connect c => c
  | .receive c _ _ _ => c
  | .readFile c _ => c
  | .write c _ => c
  | .disconnect c => c
  | .change c _ => c

namespace World

/-- The callbacks of a connection are called as long as it has not been killed. -/
def active (w : World) (c : Nat) : Bool := c ∈ w.socks && !(w.sock c).killed

/-- The world after a callback of the connection `c`. -/
def after (w : World) (c : Nat) (r : Result) : Option World :=
  r.map fun p => { w with
    cache := p.1, sock := Function.update w.sock c { p.2.1 with killed := p.2.2 } }

def step (cfg : HttpConfig) (w : World) : Event → Option World
  | .connect c =>
    if c ∈ w.socks then some w
    else some { w with
      socks := c :: w.socks, sock := Function.update w.sock c (httpConnectSocket cfg) }
  | .receive c bytes answer flush =>
    if w.active c ∧ (w.sock c).readSocket = .svzTcpReadSocket then
      w.after c (svzTcpReadSocket cfg w.cache (w.sock c) bytes answer flush)
    else some w
  | .readFile c r =>
    if w.active c then
      match (w.sock c).readSocket with
      | .httpCacheRead => w.after c (httpCacheRead cfg w.cache (w.sock c) r)
      | .httpFileRead => w.after c (httpFileRead cfg w.cache (w.sock c) r)
      | _ => some w
    else some w
  | .write c r =>
    if w.active c ∧ (w.sock c).sendBuffer ≠ [] then
      w.after c (writeSocket cfg w.cache (w.sock c) r)
    else some w
  | .disconnect c =>
    if c ∈ w.socks then
      (match (w.sock c).disconnectedSocket with
        | .httpDisconnect => httpDisconnect w.cache (w.sock c)
        | .httpCacheDisconnect => httpCacheDisconnect w.cache (w.sock c)).map fun g =>
          { w with cache := g, socks := w.socks.erase c }
    else some w
  | .change c content =>
    if c ∈ w.socks then
      some { w with sock := Function.update w.sock c { w.sock c with
        fileDesc := (w.sock c).fileDesc.map fun f => { f with content := content } } }
    else some w

/-- The server with an empty cache for `entries` files and no connections. -/
def start (cfg : HttpConfig) (entries : Nat) : World :=
  ⟨Cache.httpAllocCache entries, [], fun _ => httpConnectSocket cfg⟩

/-- A run ends where memory that is not allocated is used. -/
def run (cfg : HttpConfig) (entries : Nat) (events : List Event) : Option World :=
  events.foldl (fun w event => w.bind fun w => w.step cfg event) (some (start cfg entries))

end World

end Serveez.Transfer
