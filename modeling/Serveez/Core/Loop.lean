import Mathlib.Data.List.Infix

/-!
# The server loop

`check_sockets_select` and `check_sockets_poll` ask the system which descriptors are ready and call
the callbacks of the sockets that they belong to. The arrays for `poll` are kept from one call to
the next and grow when there are more descriptors; the sockets share them with their descriptors.

A socket is taken as it is when the loop looks at it, behind the callbacks for files and triggers
that both functions run first. Sockets that callbacks add to the list have no descriptor in the
question yet, and are left out. The callbacks are a parameter; what is asked of them is that none
takes back `SVZ_SOFLG_KILLED`.

* `pollPrepare_rounds`: the arrays hold the question of the last round and nothing of the others.
* `select_poll_agree`: `select` and `poll` are asked for the same descriptors.
-/

namespace Serveez.Core.Loop

inductive Callback
  | readSocketOob
  | readSocket
  | connectedSocket
  | writeSocket

/-- The fields of `svz_socket_t` that the loop looks at; `has` says which callbacks are set. -/
structure Sock where
  killed : Bool
  listening : Bool
  inited : Bool
  recvPipe : Bool
  sendPipe : Bool
  sock : Bool
  connecting : Bool
  noOverflow : Bool
  pipeRead : Nat
  pipeWrite : Nat
  sockDesc : Nat
  unavailable : Int
  sendBufferFill : Nat
  recvBufferFill : Nat
  recvBufferSize : Nat
  parent : Option Nat
  has : Callback → Bool

/-- `SVZ_SOFLG_PIPE` are the flags of both directions. -/
def Sock.pipe (s : Sock) : Bool := s.recvPipe || s.sendPipe

/-- `SOCK_READABLE` -/
def sockReadable (s : Sock) : Bool :=
  !s.noOverflow || (decide (s.recvBufferFill < s.recvBufferSize) && decide (0 < s.recvBufferSize))

/-- Clear `unavailable` when its time has come. -/
def relax (now : Int) (s : Sock) : Sock :=
  if s.unavailable ≠ 0 ∧ s.unavailable ≤ now then { s with unavailable := 0 } else s

/-- A socket is asked for writing if it has something to send or waits for its connection. -/
def sockWritable (s : Sock) : Bool :=
  decide (s.unavailable = 0) && (decide (0 < s.sendBufferFill) || s.connecting)

/-! ## The question to `select` -/

/-- `FD_SETSIZE`: an `fd_set` has room for the descriptors below it. -/
def fdSetsize : Nat := 1024

/-- The sets of descriptors, as what has been put into them, and the greatest of all. The lists
have no limit; `FD_SET` writes outside of its set for a descriptor from `fdSetsize` on. -/
structure FdSets where
  readFds : List Nat
  writeFds : List Nat
  exceptFds : List Nat
  nfds : Nat

namespace FdSets

def read (fd : Nat) (sets : FdSets) : FdSets := { sets with readFds := fd :: sets.readFds }

def write (fd : Nat) (sets : FdSets) : FdSets := { sets with writeFds := fd :: sets.writeFds }

def except (fd : Nat) (sets : FdSets) : FdSets := { sets with exceptFds := fd :: sets.exceptFds }

def raise (fd : Nat) (sets : FdSets) : FdSets :=
  if fd > sets.nfds then { sets with nfds := fd } else sets

end FdSets

/-- A sending pipe is asked for writing only if it has something to send. -/
def selectSendPipe (s : Sock) (sets : FdSets) : FdSets :=
  if s.sendPipe then
    let sets := (sets.except s.pipeWrite).raise s.pipeWrite
    if s.sendBufferFill > 0 then sets.write s.pipeWrite else sets
  else sets

def selectRecvPipe (s : Sock) (sets : FdSets) : FdSets :=
  if s.recvPipe then
    let sets := sets.except s.pipeRead
    let sets := if sockReadable s then sets.read s.pipeRead else sets
    sets.raise s.pipeRead
  else sets

def selectSock (now : Int) (s : Sock) (sets : FdSets) : FdSets :=
  if s.sock then
    let s := relax now s
    let sets := (sets.except s.sockDesc).raise s.sockDesc
    let sets := if !s.connecting && sockReadable s then sets.read s.sockDesc else sets
    if sockWritable s then sets.write s.sockDesc else sets
  else sets

/-- The loop of `check_sockets_select` at a socket that is not killed. -/
def selectVisit (now : Int) (sets : FdSets) (s : Sock) : FdSets :=
  if s.pipe && s.listening then sets
  else selectSock now s (selectRecvPipe s (selectSendPipe s sets))

def selectPrepare (now : Int) (socks : List (Nat × Sock)) : FdSets :=
  let sets := socks.foldl (fun sets p => selectVisit now sets p.2) ⟨[], [], [], 0⟩
  { sets with nfds := sets.nfds + 1 }

/-! ## The question to `poll` -/

/-- `struct pollfd` without `revents`; `POLLIN` and `POLLPRI` are set together. -/
structure PollFd where
  fd : Nat
  pollIn : Bool
  pollOut : Bool

def PollFd.zero : PollFd := ⟨0, false, false⟩

/-- The static arrays; `max_nfds` is the length of both. -/
structure PollArrays where
  ufds : List PollFd
  sfds : List (Option Nat)

/-- `FD_POLL_CLR` -/
def fdPollClr (a : PollArrays) : PollArrays :=
  ⟨List.replicate a.ufds.length .zero, List.replicate a.sfds.length none⟩

/-- `FD_EXPAND` -/
def fdExpand (nfds : Nat) (a : PollArrays) : PollArrays :=
  if nfds ≥ a.ufds.length then ⟨a.ufds ++ [.zero], a.sfds ++ [none]⟩ else a

/-- What `FD_POLL_IN` and `FD_POLL_OUT` have in common. -/
def fdPoll (request : PollFd → PollFd) (sock nfds : Nat) (a : PollArrays) : PollArrays :=
  let a := fdExpand nfds a
  ⟨a.ufds.modify nfds request, a.sfds.set nfds (some sock)⟩

def requestIn (fd : Nat) (u : PollFd) : PollFd := { u with fd := fd, pollIn := true }

def requestOut (fd : Nat) (u : PollFd) : PollFd := { u with fd := fd, pollOut := true }

/-- `FD_POLL_IN` -/
def fdPollIn (fd sock nfds : Nat) (a : PollArrays) : PollArrays :=
  fdPoll (requestIn fd) sock nfds a

/-- `FD_POLL_OUT` -/
def fdPollOut (fd sock nfds : Nat) (a : PollArrays) : PollArrays :=
  fdPoll (requestOut fd) sock nfds a

def pollSendPipe (i : Nat) (s : Sock) (p : PollArrays × Nat) : PollArrays × Nat :=
  if s.sendPipe && decide (0 < s.sendBufferFill) then (fdPollOut s.pipeWrite i p.2 p.1, p.2 + 1)
  else p

def pollRecvPipe (i : Nat) (s : Sock) (p : PollArrays × Nat) : PollArrays × Nat :=
  if s.recvPipe && sockReadable s then (fdPollIn s.pipeRead i p.2 p.1, p.2 + 1) else p

def pollSock (now : Int) (i : Nat) (s : Sock) (p : PollArrays × Nat) : PollArrays × Nat :=
  if s.sock then
    let s := relax now s
    let asked := !s.connecting && sockReadable s
    let a := if asked then fdPollIn s.sockDesc i p.2 p.1 else p.1
    let a := if sockWritable s then fdPollOut s.sockDesc i p.2 a else a
    (a, if asked || sockWritable s then p.2 + 1 else p.2)
  else p

/-- The loop of `check_sockets_poll` at a socket that is not killed; `i` stands for its address. -/
def pollVisit (now : Int) (i : Nat) (s : Sock) (p : PollArrays × Nat) : PollArrays × Nat :=
  if s.pipe && s.listening then p
  else pollSock now i s (pollRecvPipe i s (pollSendPipe i s p))

def pollPrepare (now : Int) (a : PollArrays) (socks : List (Nat × Sock)) : PollArrays × Nat :=
  socks.foldl (fun p q => pollVisit now q.1 q.2 p) (fdPollClr a, 0)

/-! ## What a socket asks for -/

structure Slot where
  request : PollFd
  sock : Nat

def ask (fd i : Nat) (pollIn pollOut : Bool) : List Slot :=
  if pollIn || pollOut then [⟨⟨fd, pollIn, pollOut⟩, i⟩] else []

/-- The descriptors of a socket that something is asked for. -/
def wanted (now : Int) (i : Nat) (s : Sock) : List Slot :=
  if s.pipe && s.listening then []
  else
    ask s.pipeWrite i false (s.sendPipe && decide (0 < s.sendBufferFill)) ++
    ask s.pipeRead i (s.recvPipe && sockReadable s) false ++
    ask s.sockDesc i (s.sock && (!s.connecting && sockReadable s))
      (s.sock && sockWritable (relax now s))

def question (now : Int) (socks : List (Nat × Sock)) : List Slot :=
  socks.flatMap fun p => wanted now p.1 p.2

/-! ## The arrays hold the question -/

/-- The arrays begin with a question, and `n` is their length unless they are longer. -/
structure Laid (slots : List Slot) (n : Nat) (a : PollArrays) : Prop where
  ufds : a.ufds = slots.map Slot.request ++ List.replicate (n - slots.length) .zero
  sfds : a.sfds = (slots.map fun t => some t.sock) ++ List.replicate (n - slots.length) none

variable {slots : List Slot} {n i : Nat} {a : PollArrays} {request : PollFd → PollFd}

theorem replicate_sub {α : Type} (x : α) (n k : Nat) :
    List.replicate (max n (k + 1) - k) x = x :: List.replicate (max n (k + 1) - (k + 1)) x := by
  obtain ⟨m, hm⟩ : ∃ m, max n (k + 1) - k = m + 1 := ⟨max n (k + 1) - k - 1, by omega⟩
  have hm' : max n (k + 1) - (k + 1) = m := by omega
  rw [hm, hm', List.replicate_succ]

theorem Laid.expand (h : Laid slots n a) (hn : slots.length ≤ n) :
    Laid slots (max n (slots.length + 1)) (fdExpand slots.length a) := by
  have hlength : a.ufds.length = n := by
    rw [h.ufds, List.length_append, List.length_map, List.length_replicate]
    omega
  unfold fdExpand
  split_ifs with hfull
  · -- the arrays are full, so there is nothing behind the question
    have hzero : n - slots.length = 0 := by omega
    have hone : max n (slots.length + 1) - slots.length = 1 := by omega
    exact ⟨by rw [hone, h.ufds, hzero]; simp, by rw [hone, h.sfds, hzero]; simp⟩
  · have hmax : max n (slots.length + 1) = n := by omega
    rw [hmax]
    exact h

theorem modify_behind {α : Type} {l r : List α} {x : α} {k : Nat} (hk : l.length = k)
    (f : α → α) : (l ++ x :: r).modify k f = l ++ f x :: r := by
  subst hk
  rw [List.modify_eq_take_cons_drop (by simp)]
  simp [List.drop_append]

theorem set_behind {α : Type} {l r : List α} {x : α} {k : Nat} (hk : l.length = k) (y : α) :
    (l ++ x :: r).set k y = l ++ y :: r := by
  subst hk
  simp

theorem Laid.fresh (h : Laid slots n a) (hn : slots.length ≤ n) (request : PollFd → PollFd)
    (i : Nat) :
    Laid (slots ++ [⟨request .zero, i⟩]) (max n (slots.length + 1))
      (fdPoll request i slots.length a) := by
  obtain ⟨hufds, hsfds⟩ := h.expand hn
  rw [replicate_sub] at hufds hsfds
  constructor
  · simp only [fdPoll, hufds]
    rw [modify_behind (List.length_map _)]
    simp
  · simp only [fdPoll, hsfds]
    rw [set_behind (List.length_map _)]
    simp

theorem Laid.again {last : PollFd} (h : Laid (slots ++ [⟨last, i⟩]) n a)
    (request : PollFd → PollFd) :
    Laid (slots ++ [⟨request last, i⟩]) n (fdPoll request i slots.length a) := by
  obtain ⟨hufds, hsfds⟩ := h
  have hexpand : fdExpand slots.length a = a := if_neg (by rw [hufds]; simp)
  rw [List.map_append, List.map_singleton, List.append_assoc, List.singleton_append] at hufds hsfds
  constructor
  · simp only [fdPoll, hexpand, hufds]
    rw [modify_behind (List.length_map _)]
    simp
  · simp only [fdPoll, hexpand, hsfds]
    rw [set_behind (List.length_map _)]
    simp

/-- The loop at a point where it has asked for `slots`; the arrays are at least `n` long. -/
def Asked (slots : List Slot) (n : Nat) (p : PollArrays × Nat) : Prop :=
  Laid slots (max n slots.length) p.1 ∧ p.2 = slots.length

theorem Asked.fresh {p : PollArrays × Nat} (h : Asked slots n p) (request : PollFd → PollFd)
    (i : Nat) : Asked (slots ++ [⟨request .zero, i⟩]) n (fdPoll request i p.2 p.1, p.2 + 1) := by
  obtain ⟨hlaid, hnfds⟩ := h
  have hnext := hlaid.fresh (Nat.le_max_right _ _) request i
  have hmax : max (max n slots.length) (slots.length + 1) = max n (slots.length + 1) := by omega
  rw [hmax] at hnext
  rw [hnfds]
  refine ⟨?_, by simp⟩
  rw [List.length_append, List.length_singleton]
  exact hnext

theorem Asked.again {nfds : Nat} {last : PollFd}
    (h : Asked (slots ++ [⟨last, i⟩]) n (a, nfds + 1)) (request : PollFd → PollFd) :
    Asked (slots ++ [⟨request last, i⟩]) n (fdPoll request i nfds a, nfds + 1) := by
  obtain ⟨hlaid, hnfds⟩ := h
  simp only [List.length_append, List.length_singleton, Nat.add_right_cancel_iff] at hlaid hnfds
  rw [hnfds]
  refine ⟨?_, by simp⟩
  rw [List.length_append, List.length_singleton]
  exact hlaid.again request

theorem Asked.both {p : PollArrays × Nat} (h : Asked slots n p) (fd i : Nat)
    (pollIn pollOut : Bool) :
    Asked (slots ++ ask fd i pollIn pollOut) n
      (let a := if pollIn then fdPollIn fd i p.2 p.1 else p.1
       (if pollOut then fdPollOut fd i p.2 a else a,
        if pollIn || pollOut then p.2 + 1 else p.2)) := by
  cases pollIn with
  | false =>
    cases pollOut with
    | false => simpa [ask] using h
    | true => exact h.fresh (requestOut fd) i
  | true =>
    have hin := h.fresh (requestIn fd) i
    cases pollOut with
    | false => exact hin
    | true => exact hin.again (requestOut fd)

theorem relax_same (now : Int) (s : Sock) : (relax now s).connecting = s.connecting ∧
    sockReadable (relax now s) = sockReadable s ∧ (relax now s).sockDesc = s.sockDesc := by
  unfold relax
  split_ifs <;> exact ⟨rfl, rfl, rfl⟩

theorem pollSendPipe_asked (i : Nat) (s : Sock) {p : PollArrays × Nat} (h : Asked slots n p) :
    Asked (slots ++ ask s.pipeWrite i false (s.sendPipe && decide (0 < s.sendBufferFill))) n
      (pollSendPipe i s p) := by
  have hboth := h.both s.pipeWrite i false (s.sendPipe && decide (0 < s.sendBufferFill))
  unfold pollSendPipe
  cases hsend : (s.sendPipe && decide (0 < s.sendBufferFill)) with
  | false => simpa [hsend] using hboth
  | true => simpa [hsend] using hboth

theorem pollRecvPipe_asked (i : Nat) (s : Sock) {p : PollArrays × Nat} (h : Asked slots n p) :
    Asked (slots ++ ask s.pipeRead i (s.recvPipe && sockReadable s) false) n
      (pollRecvPipe i s p) := by
  have hboth := h.both s.pipeRead i (s.recvPipe && sockReadable s) false
  unfold pollRecvPipe
  cases hrecv : (s.recvPipe && sockReadable s) with
  | false => simpa [hrecv] using hboth
  | true => simpa [hrecv] using hboth

theorem pollSock_asked (now : Int) (i : Nat) (s : Sock) {p : PollArrays × Nat}
    (h : Asked slots n p) :
    Asked (slots ++ ask s.sockDesc i (s.sock && (!s.connecting && sockReadable s))
      (s.sock && sockWritable (relax now s))) n (pollSock now i s p) := by
  unfold pollSock
  cases s.sock with
  | false => simpa [ask] using h
  | true =>
    simp only [if_true, Bool.true_and, relax_same]
    exact h.both s.sockDesc i _ _

theorem pollVisit_asked (now : Int) (i : Nat) (s : Sock) {p : PollArrays × Nat}
    (h : Asked slots n p) : Asked (slots ++ wanted now i s) n (pollVisit now i s p) := by
  unfold pollVisit wanted
  split_ifs
  · simpa using h
  · rw [← List.append_assoc, ← List.append_assoc]
    exact pollSock_asked now i s (pollRecvPipe_asked i s (pollSendPipe_asked i s h))

theorem pollPrepare_asked (now : Int) (a : PollArrays) (ha : a.ufds.length = a.sfds.length)
    (socks : List (Nat × Sock)) :
    Asked (question now socks) a.ufds.length (pollPrepare now a socks) := by
  have hloop : ∀ (socks : List (Nat × Sock)) (slots : List Slot) (p : PollArrays × Nat),
      Asked slots a.ufds.length p → Asked (slots ++ question now socks) a.ufds.length
        (socks.foldl (fun p q => pollVisit now q.1 q.2 p) p) := by
    intro socks
    induction socks with
    | nil => exact fun slots p h => by simpa [question] using h
    | cons q socks ih =>
      intro slots p h
      rw [question, List.flatMap_cons, ← List.append_assoc]
      exact ih _ _ (pollVisit_asked now q.1 q.2 h)
  refine hloop socks [] _ ⟨⟨?_, ?_⟩, rfl⟩
  · simp [fdPollClr]
  · simp [fdPollClr, ha]

/-- The arrays after some rounds, the first of which finds them empty, and what the last one
passes to `poll` for `nfds`. -/
def pollRounds (rounds : List (Int × List (Nat × Sock))) : PollArrays × Nat :=
  rounds.foldl (fun p round => pollPrepare round.1 p.1 round.2) (⟨[], []⟩, 0)

/-- The most descriptors that there have been in a round. -/
def widest (rounds : List (Int × List (Nat × Sock))) : Nat :=
  rounds.foldl (fun n round => max n (question round.1 round.2).length) 0

theorem pollRounds_asked (rounds : List (Int × List (Nat × Sock))) :
    (pollRounds rounds).1.ufds.length = widest rounds ∧
      (pollRounds rounds).1.sfds.length = widest rounds := by
  induction rounds using List.reverseRecOn with
  | nil => exact ⟨rfl, rfl⟩
  | append_singleton rounds round ih =>
    have hlaid := (pollPrepare_asked round.1 (pollRounds rounds).1
      (ih.1.trans ih.2.symm) round.2).1
    rw [ih.1] at hlaid
    simp only [pollRounds, widest, List.foldl_append, List.foldl_cons, List.foldl_nil] at hlaid ⊢
    rw [hlaid.ufds, hlaid.sfds]
    simp only [List.length_append, List.length_map, List.length_replicate]
    omega

theorem pollRounds_concat (rounds : List (Int × List (Nat × Sock))) (now : Int)
    (socks : List (Nat × Sock)) :
    Asked (question now socks) (widest rounds) (pollRounds (rounds ++ [(now, socks)])) := by
  obtain ⟨hufds, hsfds⟩ := pollRounds_asked rounds
  have hasked := pollPrepare_asked now (pollRounds rounds).1 (hufds.trans hsfds.symm) socks
  rw [hufds] at hasked
  simpa [pollRounds] using hasked

/-- After any rounds, the arrays of the next one hold its question, with the sockets it is about,
and behind it as many cleared entries as an earlier question has been longer. -/
theorem pollPrepare_rounds (rounds : List (Int × List (Nat × Sock))) (now : Int)
    (socks : List (Nat × Sock)) :
    let p := pollRounds (rounds ++ [(now, socks)])
    let slots := question now socks
    p.2 = slots.length ∧
      p.1.ufds = slots.map Slot.request ++
        List.replicate (widest rounds - slots.length) PollFd.zero ∧
      p.1.sfds = (slots.map fun t => some t.sock) ++
        List.replicate (widest rounds - slots.length) none := by
  obtain ⟨hlaid, hnfds⟩ := pollRounds_concat rounds now socks
  have hmax : max (widest rounds) (question now socks).length - (question now socks).length =
      widest rounds - (question now socks).length := by omega
  refine ⟨hnfds, ?_, ?_⟩
  · rw [hlaid.ufds, hmax]
  · rw [hlaid.sfds, hmax]

/-! ## `select` and `poll` are asked the same -/

/-- The descriptors of a socket that `select` tells exceptions of. -/
def descriptors (s : Sock) : List Nat :=
  if s.pipe && s.listening then []
  else
    (if s.sendPipe then [s.pipeWrite] else []) ++ (if s.recvPipe then [s.pipeRead] else []) ++
    (if s.sock then [s.sockDesc] else [])

/-- The sets have got what some sockets ask for, and their descriptors. -/
structure Adds (slots : List Slot) (fds : List Nat) (sets sets' : FdSets) : Prop where
  read : ∀ fd, fd ∈ sets'.readFds ↔
    fd ∈ sets.readFds ∨ ∃ t ∈ slots, t.request.fd = fd ∧ t.request.pollIn = true
  write : ∀ fd, fd ∈ sets'.writeFds ↔
    fd ∈ sets.writeFds ∨ ∃ t ∈ slots, t.request.fd = fd ∧ t.request.pollOut = true
  except : ∀ fd, fd ∈ sets'.exceptFds ↔ fd ∈ sets.exceptFds ∨ fd ∈ fds
  nfds : sets'.nfds = fds.foldl max sets.nfds

theorem Adds.refl (sets : FdSets) : Adds [] [] sets sets :=
  ⟨fun _ => by simp, fun _ => by simp, fun _ => by simp, rfl⟩

theorem Adds.trans {slots' : List Slot} {fds fds' : List Nat} {sets sets' sets'' : FdSets}
    (h : Adds slots fds sets sets') (h' : Adds slots' fds' sets' sets'') :
    Adds (slots ++ slots') (fds ++ fds') sets sets'' where
  read := fun fd => by
    rw [h'.read, h.read, or_assoc]
    simp only [List.mem_append, or_and_right, exists_or]
  write := fun fd => by
    rw [h'.write, h.write, or_assoc]
    simp only [List.mem_append, or_and_right, exists_or]
  except := fun fd => by rw [h'.except, h.except, or_assoc, List.mem_append]
  nfds := by rw [h'.nfds, h.nfds, List.foldl_append]

theorem raise_nfds (fd : Nat) (sets : FdSets) : (sets.raise fd).nfds = max sets.nfds fd := by
  unfold FdSets.raise
  split_ifs
  · simp only; omega
  · omega

theorem exists_ask_in (fd i x : Nat) (pollIn pollOut : Bool) :
    (∃ t ∈ ask fd i pollIn pollOut, t.request.fd = x ∧ t.request.pollIn = true) ↔
      x = fd ∧ pollIn = true := by
  rw [@eq_comm _ x fd]
  cases pollIn <;> cases pollOut <;> simp [ask]

theorem exists_ask_out (fd i x : Nat) (pollIn pollOut : Bool) :
    (∃ t ∈ ask fd i pollIn pollOut, t.request.fd = x ∧ t.request.pollOut = true) ↔
      x = fd ∧ pollOut = true := by
  rw [@eq_comm _ x fd]
  cases pollIn <;> cases pollOut <;> simp [ask]

theorem adds_one (fd i : Nat) (pollIn pollOut : Bool) {sets sets' : FdSets}
    (hread : sets'.readFds = if pollIn then fd :: sets.readFds else sets.readFds)
    (hwrite : sets'.writeFds = if pollOut then fd :: sets.writeFds else sets.writeFds)
    (hexcept : sets'.exceptFds = fd :: sets.exceptFds) (hnfds : sets'.nfds = max sets.nfds fd) :
    Adds (ask fd i pollIn pollOut) [fd] sets sets' where
  read := fun x => by
    rw [hread, exists_ask_in]
    cases pollIn with
    | false => simp
    | true => simp [or_comm]
  write := fun x => by
    rw [hwrite, exists_ask_out]
    cases pollOut with
    | false => simp
    | true => simp [or_comm]
  except := fun x => by simp [hexcept, or_comm]
  nfds := hnfds

theorem raise_sets (fd : Nat) (sets : FdSets) : (sets.raise fd).readFds = sets.readFds ∧
    (sets.raise fd).writeFds = sets.writeFds ∧ (sets.raise fd).exceptFds = sets.exceptFds := by
  unfold FdSets.raise
  split_ifs <;> exact ⟨rfl, rfl, rfl⟩

theorem selectSendPipe_adds (i : Nat) (s : Sock) (sets : FdSets) :
    Adds (ask s.pipeWrite i false (s.sendPipe && decide (0 < s.sendBufferFill)))
      (if s.sendPipe then [s.pipeWrite] else []) sets (selectSendPipe s sets) := by
  unfold selectSendPipe
  cases s.sendPipe with
  | false => exact Adds.refl sets
  | true =>
    simp only [if_true, Bool.true_and]
    by_cases hfill : 0 < s.sendBufferFill
    · apply adds_one <;> simp [hfill, raise_nfds, raise_sets, FdSets.write, FdSets.except]
    · apply adds_one <;> simp [hfill, raise_nfds, raise_sets, FdSets.except]

theorem selectRecvPipe_adds (i : Nat) (s : Sock) (sets : FdSets) :
    Adds (ask s.pipeRead i (s.recvPipe && sockReadable s) false)
      (if s.recvPipe then [s.pipeRead] else []) sets (selectRecvPipe s sets) := by
  unfold selectRecvPipe
  cases s.recvPipe with
  | false => exact Adds.refl sets
  | true =>
    simp only [if_true, Bool.true_and]
    cases sockReadable s with
    | false => apply adds_one <;> simp [raise_nfds, raise_sets, FdSets.except]
    | true => apply adds_one <;> simp [raise_nfds, raise_sets, FdSets.except, FdSets.read]

theorem selectSock_adds (now : Int) (i : Nat) (s : Sock) (sets : FdSets) :
    Adds (ask s.sockDesc i (s.sock && (!s.connecting && sockReadable s))
        (s.sock && sockWritable (relax now s)))
      (if s.sock then [s.sockDesc] else []) sets (selectSock now s sets) := by
  unfold selectSock
  cases s.sock with
  | false => exact Adds.refl sets
  | true =>
    simp only [if_true, Bool.true_and, relax_same]
    cases !s.connecting && sockReadable s with
    | false =>
      cases sockWritable (relax now s) with
      | false => apply adds_one <;> simp [raise_nfds, raise_sets, FdSets.except]
      | true => apply adds_one <;> simp [raise_nfds, raise_sets, FdSets.except, FdSets.write]
    | true =>
      cases sockWritable (relax now s) with
      | false => apply adds_one <;> simp [raise_nfds, raise_sets, FdSets.except, FdSets.read]
      | true =>
        apply adds_one <;>
          simp [raise_nfds, raise_sets, FdSets.except, FdSets.read, FdSets.write]

theorem selectVisit_adds (now : Int) (i : Nat) (s : Sock) (sets : FdSets) :
    Adds (wanted now i s) (descriptors s) sets (selectVisit now sets s) := by
  unfold selectVisit wanted descriptors
  by_cases hlistening : (s.pipe && s.listening) = true
  · simp only [hlistening, if_true]
    exact Adds.refl sets
  · simp only [hlistening, Bool.false_eq_true, if_false]
    exact ((selectSendPipe_adds i s sets).trans (selectRecvPipe_adds i s _)).trans
      (selectSock_adds now i s _)

theorem selectPrepare_adds (now : Int) (socks : List (Nat × Sock)) :
    ∀ sets : FdSets, Adds (question now socks) (socks.flatMap fun p => descriptors p.2) sets
      (socks.foldl (fun sets p => selectVisit now sets p.2) sets) := by
  induction socks with
  | nil => exact Adds.refl
  | cons p socks ih =>
    intro sets
    exact (selectVisit_adds now p.1 p.2 sets).trans (ih _)

theorem le_foldl_max {fds : List Nat} : ∀ (n : Nat),
    n ≤ fds.foldl max n ∧ ∀ fd ∈ fds, fd ≤ fds.foldl max n := by
  induction fds with
  | nil => exact fun n => ⟨le_rfl, by simp⟩
  | cons fd fds ih =>
    intro n
    obtain ⟨hn, hfds⟩ := ih (max n fd)
    rw [List.foldl_cons]
    refine ⟨(le_max_left n fd).trans hn, fun x hx => ?_⟩
    obtain rfl | hx := List.mem_cons.mp hx
    · exact (le_max_right n x).trans hn
    · exact hfds x hx

theorem foldl_max_lt {fds : List Nat} {n m : Nat} (hn : n < m) (hfds : ∀ fd ∈ fds, fd < m) :
    fds.foldl max n < m := by
  induction fds generalizing n with
  | nil => exact hn
  | cons fd fds ih =>
    exact ih (max_lt hn (hfds fd (by simp))) fun x hx => hfds x (List.mem_cons_of_mem _ hx)

theorem mem_ask {fd i : Nat} {pollIn pollOut : Bool} {t : Slot} (ht : t ∈ ask fd i pollIn pollOut) :
    (pollIn = true ∨ pollOut = true) ∧ t.request.fd = fd := by
  unfold ask at ht
  split_ifs at ht with hasked
  · rw [List.mem_singleton.mp ht]
    exact ⟨by simpa using hasked, rfl⟩
  · exact absurd ht List.not_mem_nil

theorem mem_descriptors_iff {s : Sock} {fd : Nat} : fd ∈ descriptors s ↔
    ¬ (s.pipe && s.listening) = true ∧ (s.sendPipe = true ∧ fd = s.pipeWrite ∨
      s.recvPipe = true ∧ fd = s.pipeRead ∨ s.sock = true ∧ fd = s.sockDesc) := by
  have hif (flag : Bool) (x : Nat) : fd ∈ (if flag then [x] else []) ↔ flag = true ∧ fd = x := by
    cases flag <;> simp
  unfold descriptors
  by_cases hlistening : (s.pipe && s.listening) = true
  · rw [if_pos hlistening]
    simp [hlistening]
  · rw [if_neg hlistening, and_iff_right hlistening]
    simp only [List.mem_append, hif, or_assoc]

theorem mem_descriptors {now : Int} {i : Nat} {s : Sock} {t : Slot} (ht : t ∈ wanted now i s) :
    t.request.fd ∈ descriptors s := by
  unfold wanted at ht
  split_ifs at ht with hlistening
  · exact absurd ht List.not_mem_nil
  · refine mem_descriptors_iff.mpr ⟨hlistening, ?_⟩
    obtain ht | hsock := List.mem_append.mp ht
    · obtain hsend | hrecv := List.mem_append.mp ht
      · have hasked := mem_ask hsend
        simp_all
      · have hasked := mem_ask hrecv
        simp_all
    · obtain ⟨hasked, hfd⟩ := mem_ask hsock
      simp only [Bool.and_eq_true] at hasked
      exact Or.inr (Or.inr ⟨hasked.elim And.left And.left, hfd⟩)

theorem question_descriptors {now : Int} {socks : List (Nat × Sock)} {t : Slot}
    (ht : t ∈ question now socks) : t.request.fd ∈ socks.flatMap fun p => descriptors p.2 := by
  obtain ⟨q, hq, ht⟩ := List.mem_flatMap.mp ht
  exact List.mem_flatMap.mpr ⟨q, hq, mem_descriptors ht⟩

theorem selectPrepare_descriptors {now : Int} {socks : List (Nat × Sock)} {fd : Nat}
    (h : fd ∈ (selectPrepare now socks).readFds ++ (selectPrepare now socks).writeFds ++
      (selectPrepare now socks).exceptFds) : fd ∈ socks.flatMap fun p => descriptors p.2 := by
  have hadds := selectPrepare_adds now socks ⟨[], [], [], 0⟩
  simp only [List.mem_append] at h
  obtain (h | h) | h := h
  · obtain ⟨t, ht, rfl, -⟩ := ((hadds.read fd).mp h).resolve_left List.not_mem_nil
    exact question_descriptors ht
  · obtain ⟨t, ht, rfl, -⟩ := ((hadds.write fd).mp h).resolve_left List.not_mem_nil
    exact question_descriptors ht
  · exact ((hadds.except fd).mp h).resolve_left List.not_mem_nil

/-- The entries that `poll` looks at. -/
theorem exists_entry_iff (rounds : List (Int × List (Nat × Sock))) (now : Int)
    (socks : List (Nat × Sock)) (Q : PollFd → Prop) :
    (∃ k < (pollRounds (rounds ++ [(now, socks)])).2, ∃ u,
        (pollRounds (rounds ++ [(now, socks)])).1.ufds[k]? = some u ∧ Q u) ↔
      ∃ t ∈ question now socks, Q t.request := by
  obtain ⟨hlaid, hnfds⟩ := pollRounds_concat rounds now socks
  rw [hnfds, hlaid.ufds]
  constructor
  · rintro ⟨k, hk, u, hu, hQ⟩
    rw [List.getElem?_append_left (by simpa using hk), List.getElem?_map] at hu
    obtain ⟨t, ht, rfl⟩ := Option.map_eq_some_iff.mp hu
    exact ⟨t, List.mem_of_getElem? ht, hQ⟩
  · rintro ⟨t, ht, hQ⟩
    obtain ⟨k, hk, rfl⟩ := List.mem_iff_getElem.mp ht
    refine ⟨k, hk, _, ?_, hQ⟩
    rw [List.getElem?_append_left (by simpa using hk), List.getElem?_map,
      List.getElem?_eq_getElem hk]
    rfl

/-- `select` and `poll` are asked the same as long as the sets have room for the descriptors: one is
in the set for reading or for writing if and only if an entry that `poll` looks at, with whatever
rounds before, asks for it. The set for exceptions has all descriptors of the sockets, and `nfds`
is above all of them. -/
theorem select_poll_agree (rounds : List (Int × List (Nat × Sock))) (now : Int)
    {socks : List (Nat × Sock)} (hroom : ∀ q ∈ socks, ∀ x ∈ descriptors q.2, x < fdSetsize)
    (fd : Nat) :
    let sets := selectPrepare now socks
    let p := pollRounds (rounds ++ [(now, socks)])
    (fd ∈ sets.readFds ↔ ∃ k < p.2, ∃ u, p.1.ufds[k]? = some u ∧ u.fd = fd ∧ u.pollIn = true) ∧
      (fd ∈ sets.writeFds ↔
        ∃ k < p.2, ∃ u, p.1.ufds[k]? = some u ∧ u.fd = fd ∧ u.pollOut = true) ∧
      (fd ∈ sets.exceptFds ↔ ∃ q ∈ socks, fd ∈ descriptors q.2) ∧
      (∀ x ∈ sets.readFds ++ sets.writeFds ++ sets.exceptFds, x < sets.nfds) ∧
      sets.nfds ≤ fdSetsize := by
  have hadds := selectPrepare_adds now socks ⟨[], [], [], 0⟩
  have hread := fun fd => (hadds.read fd).trans (or_iff_right List.not_mem_nil)
  have hwrite := fun fd => (hadds.write fd).trans (or_iff_right List.not_mem_nil)
  have hexcept := fun fd => (hadds.except fd).trans (or_iff_right List.not_mem_nil)
  refine ⟨?_, ?_, ?_, fun x hx => ?_, ?_⟩
  · rw [exists_entry_iff rounds now socks fun u => u.fd = fd ∧ u.pollIn = true]
    exact hread fd
  · rw [exists_entry_iff rounds now socks fun u => u.fd = fd ∧ u.pollOut = true]
    exact hwrite fd
  · exact (hexcept fd).trans (by simp)
  · have hle := (le_foldl_max 0).2 x (selectPrepare_descriptors hx)
    rw [← hadds.nfds] at hle
    exact Nat.lt_succ_of_le hle
  · have hlt : (socks.flatMap fun p => descriptors p.2).foldl max 0 < fdSetsize := by
      refine foldl_max_lt (by decide) fun x hx => ?_
      obtain ⟨q, hq, hx⟩ := List.mem_flatMap.mp hx
      exact hroom q hq x hx
    rw [← hadds.nfds] at hlt
    exact hlt

/-- A connection that has all its callbacks and something to send. -/
def usualSock : Sock :=
  { killed := false, listening := false, inited := false, recvPipe := false, sendPipe := false,
    sock := true, connecting := false, noOverflow := false, pipeRead := 0, pipeWrite := 0,
    sockDesc := 4, unavailable := 0, sendBufferFill := 12, recvBufferFill := 0,
    recvBufferSize := 8192, parent := none, has := fun _ => true }

/-- A second round has a pipe beside the connection. -/
theorem select_poll_agree_pipe :
    let pipe := { usualSock with sock := false, recvPipe := true, pipeRead := 9 }
    let p := pollRounds ([(0, [(7, usualSock)])] ++ [(1, [(7, usualSock), (8, pipe)])])
    (∃ k < p.2, ∃ u, p.1.ufds[k]? = some u ∧ u.fd = 9 ∧ u.pollIn = true) ∧
      ¬ ∃ k < p.2, ∃ u, p.1.ufds[k]? = some u ∧ u.fd = 9 ∧ u.pollOut = true := by
  intro pipe p
  have hroom : ∀ q ∈ [(7, usualSock), (8, pipe)], ∀ x ∈ descriptors q.2, x < fdSetsize := by
    decide
  have h := select_poll_agree [(0, [(7, usualSock)])] 1 hroom 9
  exact ⟨h.1.mp (by decide), h.2.1.not.mp (by decide)⟩

end Serveez.Core.Loop
