import Serveez.Lib.CInt

/-!
# The socket list of `server-core.c`

The core keeps the sockets it serves in a doubly linked list and, by their id, in the lookup
table `socktab`. A socket structure is a block of memory: the heap maps the address of an
allocated structure to its fields. Reading or writing a structure that has been freed, a
`NULL` pointer or a table entry outside the table is a `Fault`; a run that meets one is over.

A socket's flags other than `SVZ_SOFLG_ENQUEUED`, its descriptors and its referrer belong to
the servers, the callbacks and the code that creates sockets. They are its `Attrs`, which the
operation `modify` sets to anything. Closing descriptors, logging, buffers, addresses and the
functions run by `svz_sock_free` have no effect on the list and are left out.
-/

namespace Serveez.Core

open Lib

/-- The address of a socket structure. -/
abbrev Addr := Nat

inductive Fault
  | useAfterFree
  | nullPointer
  | outOfBounds
  | endlessLoop
  /-- `svz_realloc` ends the process when there is no memory. -/
  | exit

/-- The flags of a socket that the list operations read. -/
structure Flags where
  connected : Bool
  listening : Bool
  inited : Bool
  recvPipe : Bool
  sendPipe : Bool
  sock : Bool
  connecting : Bool
  priority : Bool

/-- `SVZ_SOFLG_PIPE` -/
def Flags.pipe (f : Flags) : Bool := f.recvPipe || f.sendPipe

structure Attrs where
  flags : Flags
  sockDesc : Int
  pipeDescRead : Int
  pipeDescWrite : Int
  referrerId : Int32
  referrerVersion : Int32

structure Sock where
  next : Option Addr
  prev : Option Addr
  id : Nat
  version : Int32
  /-- `SVZ_SOFLG_ENQUEUED` -/
  enqueued : Bool
  attrs : Attrs

structure State where
  heap : Addr → Option Sock
  svzSockRoot : Option Addr
  lastSocket : Option Addr
  socktab : List (Option Addr)
  sockId : Nat
  sockVersion : Int32
  sockLimit : Nat
  svzSockConnections : Int

/-- The core after `svz_boot`. -/
def boot : State :=
  { heap := fun _ => none
    svzSockRoot := none
    lastSocket := none
    socktab := List.replicate 1024 none
    sockId := 0
    sockVersion := 0
    sockLimit := 1024
    svzSockConnections := 0 }

/-! ## Memory -/

def deref : Option Addr → Except Fault Addr
  | none => .error .nullPointer
  | some p => .ok p

def State.load (c : State) (p : Addr) : Except Fault Sock :=
  match c.heap p with
  | none => .error .useAfterFree
  | some s => .ok s

def State.store (c : State) (p : Addr) (f : Sock → Sock) : Except Fault State := do
  let s ← c.load p
  return { c with heap := Function.update c.heap p (some (f s)) }

def State.entry (c : State) (i : Nat) : Except Fault (Option Addr) :=
  match c.socktab[i]? with
  | none => .error .outOfBounds
  | some e => .ok e

def State.setEntry (c : State) (i : Nat) (e : Option Addr) : Except Fault State :=
  if i < c.socktab.length then .ok { c with socktab := c.socktab.set i e }
  else .error .outOfBounds

/-! ## Descriptors -/

/-- `INVALID_SOCKET` and the invalid pipe handle -/
def invalid : Int := -1

def validateSock (a : Attrs) : Int :=
  if !(a.flags.listening || a.flags.connected || a.flags.connecting) then -1
  else if a.sockDesc = invalid then -1
  else 0

def svzPipeValid (a : Attrs) : Int :=
  if a.flags.listening then 0
  else if !a.flags.connected then -1
  else if a.flags.recvPipe ∧ a.pipeDescRead = invalid then -1
  else if a.flags.sendPipe ∧ a.pipeDescWrite = invalid then -1
  else 0

/-- The two checks that `svz_sock_enqueue` and `dequeue` begin with. -/
def descriptorsValid (a : Attrs) : Bool :=
  !(a.flags.pipe && svzPipeValid a == -1) && !(a.flags.sock && validateSock a == -1)

/-! ## Enqueue and dequeue -/

/-- Link `p` behind the last socket, or make it the root of an empty list. -/
def linkLast (c : State) (p : Addr) : Except Fault State :=
  match c.svzSockRoot with
  | none => .ok { c with svzSockRoot := some p }
  | some _ => do
    let last ← deref c.lastSocket
    let c ← c.store last (fun s => { s with next := some p })
    c.store p (fun s => { s with prev := some last })

def svzSockEnqueue (c : State) (p : Addr) : Except Fault (State × Int) := do
  let sock ← c.load p
  if !descriptorsValid sock.attrs then return (c, -1)
  let e ← c.entry sock.id
  if e.isSome || sock.enqueued then return (c, -1)
  let c ← c.store p (fun s => { s with next := none, prev := none })
  let c ← linkLast c p
  let c := { c with lastSocket := some p }
  let c ← c.store p (fun s => { s with enqueued := true })
  let c ← c.setEntry sock.id (some p)
  return (c, 0)

/-- `sock->next->prev = v`, or `last_socket = v` if there is no next socket. -/
def State.setPrevOfNext (c : State) (next v : Option Addr) : Except Fault State :=
  match next with
  | some z => c.store z (fun s => { s with prev := v })
  | none => .ok { c with lastSocket := v }

/-- `sock->prev->next = v`, or `svz_sock_root = v` if there is no previous socket. -/
def State.setNextOfPrev (c : State) (prev v : Option Addr) : Except Fault State :=
  match prev with
  | some z => c.store z (fun s => { s with next := v })
  | none => .ok { c with svzSockRoot := v }

def dequeue (c : State) (p : Addr) : Except Fault (State × Int) := do
  let sock ← c.load p
  if !descriptorsValid sock.attrs then return (c, -1)
  let e ← c.entry sock.id
  if e.isNone || !sock.enqueued then return (c, -1)
  let c ← c.setPrevOfNext sock.next sock.prev
  let c ← c.setNextOfPrev sock.prev sock.next
  let c ← c.store p (fun s => { s with enqueued := false })
  let c ← c.setEntry sock.id none
  return (c, 0)

/-! ## Rechaining -/

/-- The `for` loop that looks for the first socket behind the listeners. A list without a
cycle is no longer than the lookup table, which gives the fuel. -/
def lastListen (c : State) (sock : Addr) (listening : Bool) :
    Nat → Option Addr → Except Fault (Option Addr)
  | _, none => .ok none
  | 0, some _ => .error .endlessLoop
  | fuel + 1, some q => do
    if q = sock then return some q
    let s ← c.load q
    if (s.attrs.flags.listening || s.attrs.flags.priority) && !listening then
      lastListen c sock listening fuel s.next
    else return some q

/-- Put `sock` in front of the chain behind the listeners, of which `l` is the last. -/
def putBehind (c : State) (sock l : Addr) : Except Fault State := do
  let ll ← c.load l
  let c ← c.store sock (fun s => { s with next := ll.next })
  let next ← deref ll.next
  let c ← c.store next (fun s => { s with prev := some sock })
  let c ← c.store l (fun s => { s with next := some sock })
  c.store sock (fun s => { s with prev := some l })

def putAtRoot (c : State) (sock : Addr) : Except Fault State := do
  let c ← c.store sock (fun s => { s with next := c.svzSockRoot, prev := none })
  let next ← deref c.svzSockRoot
  let c ← c.store next (fun s => { s with prev := some sock })
  return { c with svzSockRoot := some sock }

def putAfter (c : State) (sock : Addr) : Option Addr → Except Fault State
  | some l => putBehind c sock l
  | none => putAtRoot c sock

def rechainListOfSocks (c : State) : Except Fault State := do
  match c.lastSocket with
  | none => return c
  | some sock =>
    let s ← c.load sock
    match s.prev with
    | none => return c
    | some endSocket =>
      match ← lastListen c sock s.attrs.flags.listening (c.sockLimit + 1) c.svzSockRoot with
      | none => return c
      | some q =>
        if sock = q then return c
        let t ← c.load q
        let c ← putAfter c sock t.prev
        let c ← c.store endSocket (fun s => { s with next := none })
        return { c with lastSocket := some endSocket }

/-! ## Ids -/

/-- The circular search for a free table entry: `n` of the `sock_limit` rounds are left.
The answer says whether the loop was left by its `break`, and the new value of `sock_id`. -/
def freeId (socktab : List (Option Addr)) (sockLimit : Nat) : Nat → Nat → Bool × Nat
  | 0, sockId => (false, sockId)
  | n + 1, sockId =>
    let sockId := (sockId + 1) &&& (sockLimit - 1)
    if socktab[sockId]? = some none then (true, sockId) else freeId socktab sockLimit n sockId

/-- The cursor and the table after the search, which enlarges a full table. -/
def nextId (c : State) : Except Fault State :=
  match freeId c.socktab c.sockLimit c.sockLimit c.sockId with
  | (true, sockId) => .ok { c with sockId := sockId }
  | (false, _) =>
    if c.sockLimit * 2 < 2 ^ 31 then
      .ok { c with socktab := c.socktab ++ List.replicate c.sockLimit none
                   sockId := c.sockLimit
                   sockLimit := c.sockLimit * 2 }
    else .error .exit

def svzSockUniqueId (c : State) (p : Addr) : Except Fault State := do
  let c ← nextId c
  let c ← c.store p (fun s => { s with id := c.sockId, version := c.sockVersion })
  return { c with sockVersion := c.sockVersion + 1 }

/-- The structure as `svz_sock_alloc` leaves it. -/
def newSock : Sock :=
  { next := none, prev := none, id := 0, version := 0, enqueued := false
    attrs :=
      { flags := ⟨false, false, false, false, false, false, false, false⟩
        sockDesc := invalid, pipeDescRead := invalid, pipeDescWrite := invalid
        referrerId := 0, referrerVersion := 0 } }

/-- `svz_sock_alloc` and, as in every place that calls it, `svz_sock_unique_id`. The block
of memory is one that is not in use. -/
def allocate (c : State) (p : Addr) : Except Fault State :=
  svzSockUniqueId { c with heap := Function.update c.heap p (some newSock) } p

def svzSockFind (c : State) (id version : Int32) : Except Fault (Option Addr) := do
  if maskOut id c.sockLimit ≠ 0 then return none
  match ← c.entry id.toInt.toNat with
  | none => return none
  | some p =>
    if version = -1 then return some p
    let s ← c.load p
    if s.version ≠ version then return none
    return some p

/-! ## Shutdown -/

def svzSockGetreferrer (c : State) (s : Sock) : Except Fault (Option Addr) :=
  svzSockFind c s.attrs.referrerId s.attrs.referrerVersion

def State.storeAttrs (c : State) (p : Addr) (f : Attrs → Attrs) : Except Fault State :=
  c.store p (fun s => { s with attrs := f s.attrs })

/-- `svz_sock_setreferrer (sock, NULL)` -/
def Attrs.noReferrer (a : Attrs) : Attrs := { a with referrerId := -1, referrerVersion := -1 }

def Attrs.noPipes (a : Attrs) : Attrs :=
  { a with pipeDescRead := invalid, pipeDescWrite := invalid }

def svzSockDisconnect (c : State) (p : Addr) : Except Fault State := do
  let sock ← c.load p
  let c := if sock.attrs.flags.connected then
    { c with svzSockConnections := c.svzSockConnections - 1 } else c
  c.storeAttrs p (fun a => { a with sockDesc := invalid })

/-- Change the attributes of the referrer of `sock`, if there is one. -/
def State.storeReferrer (c : State) (sock : Sock) (f : Attrs → Attrs) : Except Fault State := do
  match ← svzSockGetreferrer c sock with
  | some rsock => c.storeAttrs rsock f
  | none => return c

/-- The branch for a connected pipe: its listener is restarted. -/
def disconnectConnected (c : State) (p : Addr) : Except Fault State := do
  let sock ← c.load p
  if sock.attrs.flags.connected then
    let c ← c.storeReferrer sock (fun a =>
      { a with flags := { a.flags with inited := false } }.noReferrer)
    c.storeAttrs p Attrs.noPipes
  else return c

/-- The branch for a listening pipe: its child must not restart it. -/
def disconnectListening (c : State) (p : Addr) : Except Fault State := do
  let sock ← c.load p
  if sock.attrs.flags.listening then
    let c ← c.storeReferrer sock Attrs.noReferrer
    c.storeAttrs p Attrs.noPipes
  else return c

def svzPipeDisconnect (c : State) (p : Addr) : Except Fault State := do
  disconnectListening (← disconnectConnected c p) p

def svzSockFree (c : State) (p : Addr) : Except Fault State := do
  let _ ← c.load p
  return { c with heap := Function.update c.heap p none }

/-- What the `disconnected_socket` callback leaves in the attributes of its socket; `none`
when no callback is set. -/
abbrev Callback := Option Attrs

def disconnectedSocket (c : State) (p : Addr) : Callback → Except Fault State
  | some a => c.storeAttrs p (fun _ => a)
  | none => .ok c

def disconnectSock (c : State) (p : Addr) : Except Fault State := do
  let sock ← c.load p
  if sock.attrs.flags.sock then svzSockDisconnect c p else return c

def disconnectPipe (c : State) (p : Addr) : Except Fault State := do
  let sock ← c.load p
  if sock.attrs.flags.pipe then svzPipeDisconnect c p else return c

/-- The result of `dequeue` is ignored. -/
def svzSockShutdown (c : State) (p : Addr) (callback : Callback) : Except Fault State := do
  let c ← disconnectedSocket c p callback
  let (c, _) ← dequeue c p
  let c ← disconnectSock c p
  let c ← disconnectPipe c p
  svzSockFree c p

/-- The drain loop of `svz_loop_post`, for at most `fuel` sockets. -/
def drain (callback : Addr → Callback) : Nat → State → Except Fault State
  | 0, _ => .error .endlessLoop
  | fuel + 1, c =>
    match c.svzSockRoot with
    | none => .ok { c with lastSocket := none }
    | some p => do drain callback fuel (← svzSockShutdown c p (callback p))

def svzLoopPost (c : State) (callback : Addr → Callback) : Except Fault State :=
  drain callback (c.sockLimit + 1) c

/-! ## Validation -/

/-- The messages of `validate_list_of_socks` before it aborts. -/
inductive Abort
  | invalidSocketDescriptor
  | invalidPipeDescriptor
  | lookupTableCorrupted
  | listStructureInvalidPrev
  | listStructureInvalidLast

def validateFrom (c : State) : Nat → Option Addr → Option Addr → Except Fault (Option Abort)
  | _, prev, none =>
    .ok (if prev ≠ c.lastSocket then some .listStructureInvalidLast else none)
  | 0, _, some _ => .error .endlessLoop
  | fuel + 1, prev, some p => do
    let sock ← c.load p
    if sock.attrs.flags.sock && validateSock sock.attrs == -1 then
      return some .invalidSocketDescriptor
    if sock.attrs.flags.pipe && svzPipeValid sock.attrs == -1 then
      return some .invalidPipeDescriptor
    if (← c.entry sock.id) ≠ some p then return some .lookupTableCorrupted
    if prev ≠ sock.prev then return some .listStructureInvalidPrev
    validateFrom c fuel (some p) sock.next

def validateListOfSocks (c : State) : Except Fault (Option Abort) :=
  validateFrom c (c.sockLimit + 1) none c.svzSockRoot

/-! ## Runs -/

inductive Op
  | allocate (p : Addr)
  /-- Any code that changes the attributes of a socket. -/
  | modify (p : Addr) (attrs : Attrs)
  | enqueue (p : Addr)
  | shutdown (p : Addr) (callback : Callback)
  | rechain

def Op.apply (c : State) : Op → Except Fault State
  | .allocate p => Core.allocate c p
  | .modify p attrs => c.storeAttrs p (fun _ => attrs)
  | .enqueue p => do return (← svzSockEnqueue c p).1
  | .shutdown p callback => svzSockShutdown c p callback
  | .rechain => rechainListOfSocks c

def step (state : Except Fault State) (op : Op) : Except Fault State := do op.apply (← state)

def run (state : Except Fault State) (ops : List Op) : Except Fault State := ops.foldl step state

/-- `malloc` hands out a block that is not in use, and the other operations are called with
the address of an allocated socket. -/
def Op.Proper (c : State) : Op → Prop
  | .allocate p => c.heap p = none
  | .modify p _ | .enqueue p | .shutdown p _ => (c.heap p).isSome
  | .rechain => True

end Serveez.Core
