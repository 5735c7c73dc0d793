import Serveez.Lib.Runs
import Serveez.Lib.Heap
import Serveez.Coserver.Line
import Mathlib.Data.List.Range

/-!
# Requests to coservers and their responses

`send_request` gives a request the next id, stores its callback under the printed id and
writes a line to the least busy coserver of the type. Each coserver process takes the lines
off its pipe in order and writes its responses to the other pipe. The server reads these in
chunks of any size, and `check_request` hands every line to `handle_request`, which calls the
callback and removes it from the table when it returns. A callback may send requests.

A state holds all coservers started so far; one that is not running has left the array.
What a coserver answers is a function of its number, the number of lines it has read before
and the request, which leaves it free to remember or to change its mind. A request to be sent
is known by the block that `svz_malloc` gives for its callback.

* `Good`: where each request is on its way.
* `run_answers`: each callback gets the answer to its own request, once.
-/

namespace Serveez.Coserver.Protocol

open Lib

/-- `svz_coserver_callback_t`, in a block of its own; `closure` stands for the function too. -/
structure Callback (α : Type*) where
  block : Nat
  closure : α
deriving DecidableEq

/-- A coserver with its socket and the two pipes. -/
structure Channel where
  type : Nat
  busy : Int
  running : Bool
  /-- `SVZ_SOFLG_KILLED` -/
  killed : Bool
  /-- Written by the server and not yet read by the coserver. -/
  requests : Text
  /-- How many lines the coserver has read. -/
  turn : Nat
  responses : Text
  recvBuffer : Text

/-- A request as it was sent: `turn` requests went to the same coserver before. -/
structure Sent (α : Type*) where
  coserver : Nat
  turn : Nat
  id : Nat
  text : Text
  callback : Callback α
deriving DecidableEq

structure State (α : Type*) where
  callbackId : Nat
  callbacks : Text → Option (Callback α)
  coservers : List Channel
  /-- The key of the callback that has been called and has not returned. -/
  calling : Option Text
  sent : List (Sent α)
  /-- The callbacks called, with the result each was given. -/
  calls : List (Callback α × Option Text)

variable {α : Type*}

/-- The requests that went to one coserver. -/
def sentTo (s : State α) (i : Nat) : List (Sent α) := s.sent.filter (·.coserver = i)

def called (s : State α) : List Nat := s.calls.map (·.1.block)

/-- The requests among some that have not been answered. -/
def pending (called : List Nat) (l : List (Sent α)) : List (Sent α) :=
  l.filter (·.callback.block ∉ called)

def active (s : State α) (i : Nat) : Option Channel := (s.coservers[i]?).filter (·.running)

/-! ## The server -/

/-- The running coserver of a type that is the least busy, the last one if there are many. -/
def leastBusy (coservers : List Channel) (type : Nat) : Option Nat :=
  (coservers.zipIdx.foldl (fun coserver current =>
    if current.1.running && current.1.type == type then
      match coserver with
      | none => some current
      | some best => if current.1.busy ≤ best.1.busy then some current else coserver
    else coserver) none).map (·.2)

/-- `svz_sock_printf` to the coserver. When it fails part of the line may have been queued,
and the socket is scheduled for shutdown. -/
def printf (c : Channel) (text : Text) (fails : Option Nat) : Channel :=
  if c.killed then c
  else match fails with
    | none => { c with requests := c.requests ++ text }
    | some queued => { c with requests := c.requests ++ text.take queued, killed := true }

def sendRequest (s : State α) (type : Nat) (request : Text) (closure : α)
    (fails : Option Nat) : State α :=
  match leastBusy s.coservers type with
  | none => s
  | some i =>
    let cb : Callback α := ⟨s.sent.length, closure⟩
    { s with
      callbackId := (s.callbackId + 1) % unsignedSize
      callbacks := Function.update s.callbacks (svzItoa s.callbackId) (some cb)
      coservers := s.coservers.modify i fun c =>
        printf { c with busy := c.busy + 1 } (line s.callbackId request) fails
      sent := s.sent ++ [⟨i, (sentTo s i).length, s.callbackId, request, cb⟩] }

/-- `svz_pipe_read_socket` reads a chunk of the responses. -/
def readSocket (s : State α) (i n : Nat) : State α :=
  match active s i with
  | none => s
  | some c =>
    let c := { c with
      recvBuffer := c.recvBuffer ++ c.responses.take n
      responses := c.responses.drop n }
    { s with coservers := s.coservers.set i c }

/-- `handle_request` up to the call of the callback. -/
def handleRequest (s : State α) (request : Text) : State α :=
  match parseResponse request with
  | none => s
  | some (id, result) =>
    match s.callbacks (svzItoa id) with
    | none => s
    | some cb => { s with calls := s.calls ++ [(cb, result)], calling := some (svzItoa id) }

/-- One round of the loop of `check_request`. -/
def checkRequest (s : State α) (i : Nat) : State α :=
  if s.calling.isSome then s
  else match active s i with
    | none => s
    | some c =>
      match nextLine c.recvBuffer with
      | none => s
      | some (request, rest) =>
        let c := { c with busy := c.busy - 1, recvBuffer := rest }
        handleRequest { s with coservers := s.coservers.set i c } request

/-- `handle_request` after the callback has returned. -/
def returned (s : State α) : State α :=
  match s.calling with
  | none => s
  | some key =>
    { s with callbacks := Function.update s.callbacks key none, calling := none }

def start (s : State α) (type : Nat) : State α :=
  { s with coservers := s.coservers ++ [⟨type, 0, true, false, [], 0, [], []⟩] }

def disconnect (s : State α) (i : Nat) : State α :=
  { s with coservers := s.coservers.modify i fun c => { c with running := false } }

/-! ## The coserver processes -/

section Runs

variable (callback : Nat → Nat → Text → Option Text)

/-- The next line that a coserver reads, with its id and text and what is left. -/
def nextRequest (c : Channel) : Option ((Nat × Text) × Text) :=
  (fgets bufSize c.requests).bind fun (request, rest) => (getId request).map (·, rest)

/-- One round of `big_loop`. -/
def bigLoop (s : State α) (i : Nat) : State α :=
  match active s i with
  | none => s
  | some c =>
    match fgets bufSize c.requests with
    | none => s
    | some (request, rest) =>
      match coserverRequest (callback i c.turn) request with
      | none => s
      | some out =>
        let c := { c with
          requests := rest
          turn := c.turn + 1
          responses := c.responses ++ out }
        { s with coservers := s.coservers.set i c }

/-! ## Runs -/

inductive Op (α : Type*)
  | start (type : Nat)
  | disconnect (i : Nat)
  | send (type : Nat) (request : Text) (closure : α) (fails : Option Nat)
  | bigLoop (i : Nat)
  | readSocket (i n : Nat)
  | checkRequest (i : Nat)
  | returned

def step (s : State α) : Op α → State α
  | .start type => start s type
  | .disconnect i => disconnect s i
  | .send type request closure fails => sendRequest s type request closure fails
  | .bigLoop i => bigLoop callback s i
  | .readSocket i n => readSocket s i n
  | .checkRequest i => checkRequest s i
  | .returned => returned s

def run (s : State α) (ops : List (Op α)) : State α := ops.foldl (step callback) s

/-- After the initialization, before a coserver is started. -/
def initial : State α where
  callbackId := 1
  callbacks := fun _ => none
  coservers := []
  calling := none
  sent := []
  calls := []

/-! ## What is to hold -/

/-- The result that the callback of a request is to be given. -/
def answer (r : Sent α) : Option Text := shown ((callback r.coserver r.turn r.text).getD [])

/-- No callback is called twice, each is given the answer to its own request, and a coserver
is as busy as it has unanswered requests. -/
structure Answers (s : State α) : Prop where
  once : (called s).Nodup
  own : ∀ call ∈ s.calls, ∃ r ∈ s.sent, call = (r.callback, answer callback r)
  busy : ∀ i c, s.coservers[i]? = some c →
    c.busy = ((pending (called s) (sentTo s i)).length : Int)

/-- A request has no line break and fits the buffers for lines. -/
def Sendable (s : State α) : Op α → Prop
  | .send _ request _ _ =>
    packetBoundary ∉ request ∧ (line s.callbackId request).length ≤ bufSize - 1
  | _ => True

/-- The condition on a step: no callback waits under the next id, unless that is zero, and
the response to a request fits the buffer of `put_id`. -/
def Harmless (s : State α) : Op α → Prop
  | .send type _ _ _ => (leastBusy s.coservers type).isSome →
    s.callbackId = 0 ∨ s.callbacks (svzItoa s.callbackId) = none
  | .bigLoop i => ∀ c ∈ active s i, ∀ next ∈ nextRequest c, next.1.1 ≠ 0 →
    (line next.1.1 ((callback i c.turn next.1.2).getD [])).length ≤ bufSize - 1
  | _ => True

end Runs

end Serveez.Coserver.Protocol
