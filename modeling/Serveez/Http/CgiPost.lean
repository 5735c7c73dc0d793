import Serveez.Http.Ranges
import Serveez.Http.RequestLine
import Serveez.Lib.CInt
import Serveez.Lib.Runs

/-!
# The body of a POST request

`http_post_response` is called by `http_check_request`, which cuts the request off the receive
buffer afterwards. From then on `http_cgi_write` takes the body off the front of the buffer, as much
as the pipe to the script takes, while `svz_tcp_read_socket` puts more behind it and still looks for
requests in it. The bytes that are left to be written are counted down from the value of the
property `Content-length`; at none the callbacks are switched.

* `httpCgiWrite_good`, `svzTcpReadSocket_good`: what a step keeps.
* `post_good`: the bytes written are those of the body as long as no request is found in it, and as
  many as have been announced if their number fits an `unsigned int`.
-/

namespace Serveez.Http.CgiPost

open Lib Ranges RequestLine

/-- Where a request ends: behind the first double line end. -/
def requestLength : Path → Option Nat
  | [] => none
  | c :: p => if crlf ++ crlf <+: c :: p then some 4 else (requestLength p).map (· + 1)

/-- `svz_atoi` -/
def svzAtoi (str : Path) : Nat :=
  (str.takeWhile (Ranges.IsDigit ·)).foldl (fun i c => (i * 10 + (c.toNat - 48)) % 2 ^ 32) 0

/-- The number that a value begins with. -/
def announced (str : Path) : Nat := Ranges.number (str.takeWhile (Ranges.IsDigit ·))

/-- A call of `write`, with what there was to write and what was left to be written. -/
structure Attempt where
  length : Int
  fill : Nat
  left : Nat

/-- A connection while its body is passed on: `posting` as long as the callbacks are not switched,
`received` is the body so far and `written` what the pipe has taken, `called` whether
`http_cgi_write` has been called. -/
structure Post where
  recvBuffer : Path
  contentLength : Nat
  posting : Bool
  received : Path
  written : Path
  called : Bool
  attempts : List Attempt

/-- A receive buffer with something in it; its size is an `int`. -/
structure RecvBuffer where
  size : Nat
  isInt : size < 2 ^ 31
  bytes : Path
  fits : bytes.length ≤ size

/-- The connection behind `http_post_response`, with the request cut off. -/
def startPost (buffer : RecvBuffer) (length : Path) : Option Post :=
  (requestLength buffer.bytes).map fun len =>
    { recvBuffer := buffer.bytes.drop len
      contentLength := svzAtoi length
      posting := true
      received := buffer.bytes.drop len
      written := []
      called := false
      attempts := [] }

/-! ## The callbacks -/

/-- `do_write` -/
def doWrite (s : Post) : Int :=
  if s.contentLength < s.recvBuffer.length then wrapInt s.contentLength else s.recvBuffer.length

/-- `http_cgi_write` with a pipe that takes no more than `room` bytes. -/
def httpCgiWrite (limit : Nat) (s : Post) (room : Nat) : Post :=
  let numWritten := min room (doWrite s).toNat
  let contentLength := s.contentLength - numWritten
  { s with
    recvBuffer := s.recvBuffer.drop numWritten
    contentLength := contentLength
    posting := s.posting && !decide (contentLength ≤ 0)
    written := s.written ++ s.recvBuffer.take numWritten
    called := true
    attempts := s.attempts ++ [⟨doWrite s, s.recvBuffer.length, limit - s.written.length⟩] }

/-- `http_check_request`; `answer` is what the callback of a request does to the connection, if it
lives on. -/
def httpCheckRequest (answer : Outcome → Post → Option Post) (s : Post) : Option Post :=
  match requestLength s.recvBuffer with
  | none => some s
  | some len =>
    match httpHandleRequest (s.recvBuffer.take len) with
    | none => none
    | some .rejected => none
    | some outcome =>
      (answer outcome s).map fun s => { s with recvBuffer := s.recvBuffer.drop len }

/-- What `recv` has, and whether it is too much for the flood protection. -/
inductive Recv
  | data (bytes : Path) (flood : Bool)
  | unavailable
  | failed

/-- `svz_tcp_read_socket`; without a result the connection is closed. -/
def svzTcpReadSocket (answer : Outcome → Post → Option Post) (size : Nat) (s : Post) (recv : Recv) :
    Option Post :=
  if size ≤ s.recvBuffer.length then none
  else
    match recv with
    | .failed => none
    | .unavailable => some s
    | .data bytes flood =>
      let bytes := bytes.take (size - s.recvBuffer.length)
      if bytes = [] ∨ flood then none
      else httpCheckRequest answer
        { s with recvBuffer := s.recvBuffer ++ bytes, received := s.received ++ bytes }

/-- What the main loop finds: the socket can be read from, or the pipe be written to, with an error
if there is no room. -/
inductive Event
  | read (recv : Recv)
  | write (room : Option Nat)

/-- One call of a callback while it is not switched. -/
def step (answer : Outcome → Post → Option Post) (size limit : Nat) (s : Post) (e : Event) :
    Option Post :=
  if ¬ s.posting then none
  else
    match e with
    | .read recv => svzTcpReadSocket answer size s recv
    | .write none => none
    | .write (some room) => some (httpCgiWrite limit s room)

/-- The connection after some events, if it is still there. -/
def postRun (answer : Outcome → Post → Option Post) (buffer : RecvBuffer) (length : Path)
    (events : List Event) : Option Post :=
  events.foldl (fun s e => s.bind (step answer buffer.size (announced length) · e))
    (startPost buffer length)

/-! ## What should hold -/

/-- The script has got the beginning of the body and the rest of it stands in the receive buffer; it
has not got more than was announced, no call of `write` was for less than none or more than there
was to write, and the callbacks are switched when all of it has been written. -/
structure Good (limit : Nat) (s : Post) : Prop where
  whole : s.written ++ s.recvBuffer = s.received
  bounded : s.written.length ≤ limit
  attempts : ∀ a ∈ s.attempts, 0 ≤ a.length ∧ a.length ≤ a.fill ∧ a.length ≤ a.left
  switched : s.posting = false ↔ s.called = true ∧ s.written.length = limit

/-- A read leaves no request in the receive buffer. -/
def Clean (size : Nat) (s : Post) : Event → Prop
  | .read (.data bytes _) =>
    requestLength (s.recvBuffer ++ bytes.take (size - s.recvBuffer.length)) = none
  | _ => True

/-! ## Steps -/

/-- What is carried along: the count is what is left of the body that was announced. -/
structure Counted (size limit : Nat) (s : Post) : Prop where
  left : s.written.length + s.contentLength = limit
  fits : s.recvBuffer.length ≤ size

variable {answer : Outcome → Post → Option Post} {size limit : Nat} {s s' : Post}

theorem doWrite_eq (hsize : size < 2 ^ 31) (hfits : s.recvBuffer.length ≤ size) :
    doWrite s = (min s.recvBuffer.length s.contentLength : Nat) := by
  unfold doWrite
  split
  · next hlt =>
    rw [wrapInt_eq (by omega), Nat.min_eq_right (Nat.le_of_lt hlt)]
  · next hge => rw [Nat.min_eq_left (Nat.le_of_not_lt hge)]

theorem httpCgiWrite_counted (hsize : size < 2 ^ 31) (room : Nat)
    (hcounted : Counted size limit s) : Counted size limit (httpCgiWrite limit s room) := by
  have hwrite := doWrite_eq hsize hcounted.fits
  have hleft := hcounted.left
  have hfits := hcounted.fits
  unfold httpCgiWrite
  rw [hwrite]
  constructor
  · dsimp only
    rw [List.length_append, List.length_take]
    omega
  · dsimp only
    rw [List.length_drop]
    omega

theorem httpCgiWrite_good (hsize : size < 2 ^ 31) (room : Nat) (hposting : s.posting = true)
    (hcounted : Counted size limit s) (hgood : Good limit s) :
    Good limit (httpCgiWrite limit s room) := by
  have hleft := hcounted.left
  have hleft' := (httpCgiWrite_counted hsize room hcounted).left
  refine ⟨?_, ?_, ?_, ?_⟩
  · unfold httpCgiWrite
    dsimp only
    rw [List.append_assoc, List.take_append_drop]
    exact hgood.whole
  · exact Nat.le.intro hleft'
  · intro a ha
    rcases List.mem_append.mp ha with hold | hnew
    · exact hgood.attempts a hold
    · obtain rfl := List.mem_singleton.mp hnew
      dsimp only
      rw [doWrite_eq hsize hcounted.fits]
      omega
  · have hposting' : (httpCgiWrite limit s room).posting = false ↔
        (httpCgiWrite limit s room).contentLength = 0 := by
      unfold httpCgiWrite
      simp [hposting]
    rw [hposting']
    constructor
    · intro hnone
      rw [hnone] at hleft'
      exact ⟨rfl, hleft'⟩
    · rintro ⟨-, hall⟩
      rw [hall] at hleft'
      exact Nat.add_eq_left.mp hleft'

/-- A read that leaves no request behind puts what it has behind the body. -/
theorem svzTcpReadSocket_good {recv : Recv} (hclean : Clean size s (.read recv))
    (hs' : svzTcpReadSocket answer size s recv = some s') (hcounted : Counted size limit s)
    (hgood : Good limit s) : Counted size limit s' ∧ Good limit s' := by
  unfold svzTcpReadSocket at hs'
  split at hs'
  · exact absurd hs'.symm (Option.some_ne_none s')
  · next hroom =>
    cases recv with
    | failed => exact absurd hs'.symm (Option.some_ne_none s')
    | unavailable =>
      obtain rfl := Option.some.inj hs'
      exact ⟨hcounted, hgood⟩
    | data bytes flood =>
      dsimp only at hs'
      split at hs'
      · exact absurd hs'.symm (Option.some_ne_none s')
      · have hnone : requestLength (s.recvBuffer ++ bytes.take (size - s.recvBuffer.length)) =
          none := hclean
        unfold httpCheckRequest at hs'
        dsimp only at hs'
        rw [hnone] at hs'
        obtain rfl := Option.some.inj hs'
        refine ⟨⟨hcounted.left, ?_⟩, ?_, hgood.bounded, hgood.attempts, hgood.switched⟩
        · dsimp only
          rw [List.length_append, List.length_take]
          omega
        · dsimp only
          rw [← List.append_assoc, hgood.whole]

theorem step_good {e : Event} (hsize : size < 2 ^ 31) (hclean : Clean size s e)
    (hs' : step answer size limit s e = some s') (hcounted : Counted size limit s)
    (hgood : Good limit s) : Counted size limit s' ∧ Good limit s' := by
  unfold step at hs'
  split at hs'
  · exact absurd hs'.symm (Option.some_ne_none s')
  · next hposting =>
    have hposting : s.posting = true := not_not.mp hposting
    match e, hclean, hs' with
    | .read recv, hclean, hs' => exact svzTcpReadSocket_good hclean hs' hcounted hgood
    | .write none, _, hs' => exact absurd hs'.symm (Option.some_ne_none s')
    | .write (some room), _, hs' =>
      obtain rfl := Option.some.inj hs'
      exact ⟨httpCgiWrite_counted hsize room hcounted,
        httpCgiWrite_good hsize room hposting hcounted hgood⟩

/-! ## Runs -/

theorem svzAtoi_eq (str : Path) : svzAtoi str = announced str % 2 ^ 32 :=
  foldl_mod (2 ^ 32) (fun c : UInt8 => c.toNat - 48) (str.takeWhile (Ranges.IsDigit ·)) 0

theorem startPost_good {buffer : RecvBuffer} {length : Path} (hlength : announced length < 2 ^ 32)
    (hs : startPost buffer length = some s) :
    Counted buffer.size (announced length) s ∧ Good (announced length) s := by
  obtain ⟨len, -, rfl⟩ := Option.map_eq_some_iff.mp hs
  refine ⟨⟨?_, ?_⟩, rfl, Nat.zero_le _, ?_, ?_⟩
  · dsimp only
    rw [List.length_nil, Nat.zero_add, svzAtoi_eq, Nat.mod_eq_of_lt hlength]
  · dsimp only
    rw [List.length_drop]
    exact Nat.le_trans (Nat.sub_le _ _) buffer.fits
  · exact fun a ha => absurd ha List.not_mem_nil
  · exact iff_of_false (fun h => Bool.false_ne_true h.symm) (fun h => Bool.false_ne_true h.1)

theorem foldl_none (f : Post → Event → Option Post) (events : List Event) :
    events.foldl (fun s e => s.bind (f · e)) none = none := by
  induction events with
  | nil => rfl
  | cons e events ih => exact ih

/-- As long as no request is found in the body, the script gets what was announced of it, if the
number fits. -/
theorem post_good (answer : Outcome → Post → Option Post) (buffer : RecvBuffer) (length : Path)
    (events : List Event) (hlength : announced length < 2 ^ 32)
    (hclean : ∀ pre e, pre ++ [e] <+: events → ∀ s s', postRun answer buffer length pre = some s →
      step answer buffer.size (announced length) s e = some s' → Clean buffer.size s e) :
    ∀ pre, pre <+: events → ∀ s, postRun answer buffer length pre = some s →
      Good (announced length) s := by
  unfold postRun at hclean ⊢
  cases hstart : startPost buffer length with
  | none =>
    intro pre _ s hs
    rw [foldl_none] at hs
    exact absurd hs.symm (Option.some_ne_none s)
  | some s₀ =>
    rw [hstart] at hclean
    have hall := forall_reached_of_step (step answer buffer.size (announced length))
      (fun s => Counted buffer.size (announced length) s ∧ Good (announced length) s)
      (Clean buffer.size) (startPost_good hlength hstart) events
      (fun s e s' hs hs' hclean => step_good buffer.isInt hclean hs' hs.1 hs.2) hclean
    exact fun pre hpre s hs => (hall pre hpre s hs).2

/-- A request with the first three bytes of its body behind it. -/
def postBuffer : RecvBuffer where
  size := 8192
  isInt := by decide
  bytes := bytesOf "POST /c HTTP/1.0\x0d\x0a\x0d\x0aabc"
  fits := by decide

/-- Two bytes are written, four more are read, and the rest is written. -/
def postEvents : List Event :=
  [.write (some 2), .read (.data (bytesOf "defg") false), .write (some 10)]

theorem postEvents_clean : ∀ pre e, pre ++ [e] <+: postEvents → ∀ s s',
    postRun (fun _ => some) postBuffer (bytesOf "5") pre = some s →
      step (fun _ => some) postBuffer.size (announced (bytesOf "5")) s e = some s' →
        Clean postBuffer.size s e := by
  apply forall_steps
  intro n e he s s' hs _
  match n, he, hs with
  | 0, he, _ =>
    obtain rfl := Option.some.inj he
    trivial
  | 1, he, hs =>
    obtain rfl := Option.some.inj he
    obtain rfl := Option.some.inj hs
    have hnone : requestLength (bytesOf "cdefg") = none := by decide
    exact hnone
  | 2, he, _ =>
    obtain rfl := Option.some.inj he
    trivial
  | n + 3, he, _ => exact absurd he.symm (Option.some_ne_none e)

theorem post_good_body :
    (∀ pre, pre <+: postEvents → ∀ s,
      postRun (fun _ => some) postBuffer (bytesOf "5") pre = some s →
        Good (announced (bytesOf "5")) s) ∧
    (postRun (fun _ => some) postBuffer (bytesOf "5") postEvents).map
      (fun s => (s.written, s.recvBuffer, s.posting)) =
        some (bytesOf "abcde", bytesOf "fg", false) := by
  constructor
  · exact post_good (fun _ => some) postBuffer (bytesOf "5") postEvents (by decide)
      postEvents_clean
  · decide

/-- Four gigabytes are counted as none, and the callbacks are switched at once. -/
theorem hugeLength_not_good :
    ¬ ∀ pre, pre <+: [Event.write (some 8)] → ∀ s,
      postRun (fun _ => some) postBuffer (bytesOf "4294967296") pre = some s →
        Good (announced (bytesOf "4294967296")) s := by
  intro hall
  have hgood := hall _ (List.prefix_refl _) _ rfl
  have hwritten := (hgood.switched.mp (by decide)).2
  exact absurd hwritten (by decide)

end Serveez.Http.CgiPost
