import Serveez.Fakeident.Detect
import Serveez.Lib.Framing
import Serveez.Lib.Runs
import Serveez.Socket.Printf

/-!
# Ident requests

`split_packet_unibyte_and_dispatch` calls `fakeident_handle_request` once for each line in the
receive buffer. The handler does not look at the line it is given: it takes the text at the start
of the receive buffer, ends it there with a zero byte and prints it in front of the reply. When a
read has brought several lines, the replies to all of them have the text of the first.

* `handleRequest_spec`, `dispatch_spec`: the calls of one check of the receive buffer.
* `fakeident_iff`: when the replies of a run are the ones they should be.
-/

namespace Serveez.Fakeident

open Lib
open Socket (PrintBuffer sockPrintf vsnprintfBufSize)

structure FakeidentConfig where
  username : Option (List UInt8)
  systemtype : List UInt8

/-- A colon between two spaces. -/
def colon : List UInt8 := [32, 58, 32]

/-- `ERROR : NO-USER` -/
def noUser : List UInt8 := [69, 82, 82, 79, 82, 32, 58, 32, 78, 79, 45, 85, 83, 69, 82]

/-- `USERID` -/
def userid : List UInt8 := [85, 83, 69, 82, 73, 68]

/-- What the formats print behind the number pair. -/
def replyTail (cfg : FakeidentConfig) : List UInt8 :=
  match cfg.username with
  | none => colon ++ (noUser ++ [13, 10])
  | some username =>
    colon ++ (userid ++ (colon ++ (cfg.systemtype ++ (colon ++ (username ++ [13, 10])))))

def InLine (c : UInt8) : Prop := c ≠ 13 ∧ c ≠ 10

instance (c : UInt8) : Decidable (InLine c) := inferInstanceAs (Decidable (_ ∧ _))

/-- The text of the line at the start of a buffer. -/
def lineText (s : List UInt8) : List UInt8 := s.takeWhile (InLine ·)

/-- The string at the start of a buffer. -/
def cString (s : List UInt8) : List UInt8 := s.takeWhile (· ≠ 0)

/-- A call of the handler has returned: the receive buffer, what was passed to the socket, and how
many bytes of the receive buffer were looked at. -/
structure Handled where
  recvBuffer : List UInt8
  answer : List UInt8
  reads : Nat

def fakeidentHandleRequest (cfg : FakeidentConfig) (buffer : PrintBuffer)
    (recvBuffer : List UInt8) : Handled :=
  let p := (lineText recvBuffer).length
  let recvBuffer := recvBuffer.set p 0
  ⟨recvBuffer, sockPrintf buffer (cString recvBuffer ++ replyTail cfg), p + 1⟩

/-! ## The dispatcher -/

/-- A call of the handler: the packet that it was called for, and where this ends in the receive
buffer. -/
structure Call where
  packet : List UInt8
  answer : List UInt8
  reads : Nat
  packetEnd : Nat

/-- The calls of one check, and what is left in the receive buffer unless the check has failed. -/
structure Dispatched where
  calls : List Call
  left : Option (List UInt8)

/-- The loop of `split_packet_unibyte_and_dispatch` over the `n` bytes from `p` on, with what
`svz_sock_write` returns to the handler. -/
def dispatch (cfg : FakeidentConfig) (buffer : PrintBuffer) :
    Nat → List UInt8 → Nat → Nat → List Int → Dispatched
  | 0, recvBuffer, _, packet, _ => ⟨[], some (recvBuffer.drop packet)⟩
  | n + 1, recvBuffer, p, packet, results =>
    if recvBuffer[p]? = some 10 then
      let handled := fakeidentHandleRequest cfg buffer recvBuffer
      let call : Call :=
        ⟨(recvBuffer.drop packet).take (p + 1 - packet), handled.answer, handled.reads, p + 1⟩
      if results.headD 0 ≠ 0 then ⟨[call], none⟩
      else
        let next := dispatch cfg buffer n handled.recvBuffer (p + 1) (p + 1) results.tail
        ⟨call :: next.calls, next.left⟩
    else dispatch cfg buffer n recvBuffer (p + 1) packet results

def splitPacketUnibyteAndDispatch (cfg : FakeidentConfig) (buffer : PrintBuffer)
    (recvBuffer : List UInt8) (results : List Int) : Dispatched :=
  dispatch cfg buffer recvBuffer.length recvBuffer 0 0 results

/-! ## Connections -/

structure Conn where
  detected : Bool
  recvBuffer : List UInt8
  finalWrite : Bool
  closed : Bool
  calls : List Call

def newConn : Conn := ⟨false, [], false, false, []⟩

/-- What happens on a connection: some bytes are read, or all that was written has been sent. -/
inductive Event
  | read (chunk : List UInt8) (results : List Int)
  | sent

def Event.chunk : Event → List UInt8
  | .read chunk _ => chunk
  | .sent => []

/-- The `check_request` callback: `svz_sock_detect_proto`, and the dispatcher when the protocol is
known. -/
def checkRequest (cfg : FakeidentConfig) (buffer : PrintBuffer) (detectionFill : Nat) (conn : Conn)
    (results : List Int) : Conn :=
  if conn.detected || fakeidentDetectProto conn.recvBuffer then
    let dispatched := splitPacketUnibyteAndDispatch cfg buffer conn.recvBuffer results
    { detected := true
      recvBuffer := dispatched.left.getD conn.recvBuffer
      finalWrite := conn.finalWrite || !dispatched.calls.isEmpty
      closed := dispatched.left.isNone
      calls := conn.calls ++ dispatched.calls }
  else { conn with closed := detectionFill < conn.recvBuffer.length }

def step (cfg : FakeidentConfig) (buffer : PrintBuffer) (detectionFill : Nat) (conn : Conn)
    (event : Event) : Conn :=
  if conn.closed then conn
  else
    match event with
    | .read chunk results =>
      checkRequest cfg buffer detectionFill { conn with recvBuffer := conn.recvBuffer ++ chunk }
        results
    | .sent => { conn with closed := conn.finalWrite }

def run (cfg : FakeidentConfig) (buffer : PrintBuffer) (detectionFill : Nat)
    (events : List Event) : Conn :=
  events.foldl (step cfg buffer detectionFill) newConn

/-- The bytes that were read. -/
def received (events : List Event) : List UInt8 := (events.map Event.chunk).flatten

/-- The bytes of some lines. -/
def streamBytes (stream : List IdentLine) : List UInt8 := (stream.map IdentLine.bytes).flatten

/-! ## Replies to their own lines -/

/-- The reply begins with the text of the line that it is for, and a colon. -/
def AnswersOwnLine (call : Call) : Prop := lineText call.packet ++ colon <+: call.answer

/-- The full lines of a receive buffer, of which `cur` is already behind. -/
def lines (cur : List UInt8) : List UInt8 → List (List UInt8)
  | [] => []
  | c :: rest => if c = 10 then (cur ++ [c]) :: lines [] rest else lines (cur ++ [c]) rest

/-- The lines up to the first for which writing fails. -/
def calledLines : List (List UInt8) → List Int → List (List UInt8)
  | [], _ => []
  | line :: rest, results =>
    line :: if results.headD 0 ≠ 0 then [] else calledLines rest results.tail

/-- The lines that one read brings have the text of the first of them, and it is not too long. -/
def OneText (conn : Conn) : Event → Prop
  | .read chunk results =>
    conn.closed = false →
      ∀ line ∈ calledLines (lines [] (conn.recvBuffer ++ chunk)) results,
        lineText line = lineText (conn.recvBuffer ++ chunk) ∧
          (lineText line).length + colon.length < vsnprintfBufSize
  | .sent => True

instance (conn : Conn) (event : Event) : Decidable (OneText conn event) :=
  match event with
  | .read _ _ => inferInstanceAs (Decidable (_ → ∀ _ ∈ _, _))
  | .sent => .isTrue trivial

/-! ## The handler -/

/-- The text that the handler is going to find: that of the first line, or what an earlier call
has ended with a zero byte. -/
def Finds (t front back : List UInt8) : Prop :=
  (front = [] ∧ lineText back = t) ∨ t ++ [0] <+: front

def reply (cfg : FakeidentConfig) (buffer : PrintBuffer) (t : List UInt8) : List UInt8 :=
  sockPrintf buffer (t ++ replyTail cfg)

variable {cfg : FakeidentConfig} {buffer : PrintBuffer} {t front cur rest : List UInt8}

/-- The line end that the scan comes to is not behind that of the packet. -/
theorem exists_scan (head : List UInt8) : ∃ pre d back, head ++ [10] = pre ++ d :: back ∧
    pre = lineText (head ++ [10]) ∧ (∀ c ∈ pre, InLine c) ∧ ¬ InLine d := by
  have hend : ¬ InLine 10 := by decide
  cases hdrop : (head ++ [10]).dropWhile (InLine ·) with
  | nil =>
    have hall := List.dropWhile_eq_nil_iff.mp hdrop 10 (by simp)
    exact absurd (of_decide_eq_true hall) hend
  | cons d back =>
    refine ⟨_, d, back, ?_, rfl, fun c hc => of_mem_takeWhile hc, not_of_dropWhile hdrop⟩
    unfold lineText
    rw [← hdrop, List.takeWhile_append_dropWhile]

theorem cString_cut (ht : 0 ∉ t) {s : List UInt8} (h : t ++ [0] <+: s) : cString s = t := by
  obtain ⟨rest, rfl⟩ := h
  rw [List.append_assoc]
  exact takeWhile_ne_cut ht rest

theorem lineText_zero (ht : ∀ c ∈ t, InLine c) (s : List UInt8) :
    lineText (t ++ [0] ++ s) = t ++ [0] ++ lineText s := by
  unfold lineText
  apply List.takeWhile_append_of_pos
  intro c hc
  rcases List.mem_append.mp hc with hc | hc
  · exact decide_eq_true (ht c hc)
  · rw [List.mem_singleton.mp hc]
    decide

theorem handleRequest_spec (ht : 0 ∉ t) (htext : ∀ c ∈ t, InLine c)
    (hfinds : Finds t front (cur ++ 10 :: rest)) :
    ∃ front', front'.length = (front ++ cur).length + 1 ∧ t ++ [0] <+: front' ∧
      (fakeidentHandleRequest cfg buffer (front ++ cur ++ 10 :: rest)).recvBuffer =
        front' ++ rest ∧
      (fakeidentHandleRequest cfg buffer (front ++ cur ++ 10 :: rest)).answer =
        reply cfg buffer t ∧
      (fakeidentHandleRequest cfg buffer (front ++ cur ++ 10 :: rest)).reads ≤
        (front ++ cur).length + 1 := by
  obtain ⟨pre, d, back, hhead, hpre, hline, hd⟩ := exists_scan (front ++ cur)
  have hbuffer : front ++ cur ++ 10 :: rest = pre ++ d :: (back ++ rest) := by
    calc front ++ cur ++ 10 :: rest = (front ++ cur ++ [10]) ++ rest := by simp
      _ = pre ++ d :: (back ++ rest) := by rw [hhead]; simp
  have hscan : lineText (front ++ cur ++ 10 :: rest) = pre := by
    rw [hbuffer]
    exact takeWhile_cut hline hd _
  have hset : (front ++ cur ++ 10 :: rest).set pre.length 0 = pre ++ 0 :: back ++ rest := by
    rw [hbuffer, List.set_append_right _ _ (Nat.le_refl _), Nat.sub_self, List.set_cons_zero,
      List.append_assoc, List.cons_append]
  have hlen : pre.length + (back.length + 1) = (front ++ cur).length + 1 := by
    have h := congrArg List.length hhead
    simp only [List.length_append, List.length_cons, List.length_nil] at h ⊢
    omega
  -- the text that is found is before the zero byte, be that new or not
  have hzero : t ++ [0] <+: pre ++ 0 :: back := by
    rcases hfinds with ⟨rfl, hfirst⟩ | ⟨junk, rfl⟩
    · rw [List.nil_append] at hscan
      rw [← hfirst, hscan]
      exact ⟨back, by simp⟩
    · have h := lineText_zero htext (junk ++ cur ++ [10])
      rw [hpre, List.append_assoc _ junk, List.append_assoc _ (junk ++ cur), h, List.append_assoc]
      exact List.prefix_append _ _
  unfold fakeidentHandleRequest
  dsimp only
  rw [hscan, hset]
  refine ⟨pre ++ 0 :: back, ?_, hzero, rfl, ?_, ?_⟩
  · rw [List.length_append, List.length_cons, hlen]
  · rw [cString_cut ht (hzero.trans (List.prefix_append _ rest))]
    rfl
  · omega

/-! ## One check -/

variable {stream : List IdentLine} {c : UInt8} {conn : Conn}

/-- A byte that is no line end is passed over. -/
theorem dispatch_skip (hc : c ≠ 10) (results : List Int) :
    dispatch cfg buffer (c :: rest).length (front ++ cur ++ c :: rest) (front ++ cur).length
        front.length results =
      dispatch cfg buffer rest.length (front ++ (cur ++ [c]) ++ rest)
        (front ++ (cur ++ [c])).length front.length results := by
  have hget : (front ++ cur ++ c :: rest)[(front ++ cur).length]? = some c :=
    getElem?_middle (front ++ cur) c rest
  have hbuffer : front ++ cur ++ c :: rest = front ++ (cur ++ [c]) ++ rest := by simp
  have hplace : (front ++ (cur ++ [c])).length = (front ++ cur).length + 1 := by simp; omega
  rw [List.length_cons, dispatch, hget, if_neg (fun h => hc (Option.some.inj h)), hbuffer, hplace]

/-- At the end of a line the handler is called, and nothing more unless this has succeeded. -/
theorem dispatch_call (results : List Int) {front' : List UInt8}
    (hlength : front'.length = (front ++ cur).length + 1)
    (hset : (fakeidentHandleRequest cfg buffer (front ++ cur ++ 10 :: rest)).recvBuffer =
      front' ++ rest) :
    let handled := fakeidentHandleRequest cfg buffer (front ++ cur ++ 10 :: rest)
    let call : Call := ⟨cur ++ [10], handled.answer, handled.reads, (front ++ cur).length + 1⟩
    let next := dispatch cfg buffer rest.length (front' ++ [] ++ rest) (front' ++ []).length
      front'.length results.tail
    dispatch cfg buffer (10 :: rest).length (front ++ cur ++ 10 :: rest) (front ++ cur).length
        front.length results =
      if results.headD 0 ≠ 0 then ⟨[call], none⟩ else ⟨call :: next.calls, next.left⟩ := by
  have hget : (front ++ cur ++ 10 :: rest)[(front ++ cur).length]? = some 10 :=
    getElem?_middle (front ++ cur) 10 rest
  have hpacket : ((front ++ cur ++ 10 :: rest).drop front.length).take
      ((front ++ cur).length + 1 - front.length) = cur ++ [10] := by
    have hlen : (front ++ cur).length + 1 - front.length = (cur ++ [10]).length := by simp; omega
    rw [hlen, List.append_assoc, List.drop_left, List.append_cons cur 10 rest, List.take_left]
  rw [List.length_cons, dispatch, hget, if_pos rfl]
  dsimp only
  rw [hpacket, hset, List.append_nil, hlength]

theorem dispatch_spec (ht : 0 ∉ t) (htext : ∀ c ∈ t, InLine c) (results : List Int)
    (hfinds : Finds t front (cur ++ rest)) :
    let called := calledLines (lines cur rest) results
    let dispatched := dispatch cfg buffer rest.length (front ++ cur ++ rest)
      (front ++ cur).length front.length results
    dispatched.calls.map Call.packet = called ∧
      (∀ call ∈ dispatched.calls,
        call.answer = reply cfg buffer t ∧ call.reads ≤ call.packetEnd) ∧
      ∀ left, dispatched.left = some left → called.flatten ++ left = cur ++ rest := by
  induction rest generalizing front cur results with
  | nil =>
    refine ⟨rfl, fun call hcall => absurd hcall List.not_mem_nil, ?_⟩
    intro left hleft
    change some ((front ++ cur ++ []).drop front.length) = some left at hleft
    rw [List.append_assoc, List.drop_left] at hleft
    exact (Option.some.inj hleft).symm
  | cons c rest ih =>
    by_cases hc : c = 10
    · subst hc
      obtain ⟨front', hlength, hzero, hset, hanswer, hreads⟩ :=
        @handleRequest_spec cfg buffer _ _ _ _ ht htext hfinds
      obtain ⟨hpackets, hcalls, hleft⟩ :=
        @ih front' [] results.tail (Or.inr hzero)
      have hlines : lines cur (10 :: rest) = (cur ++ [10]) :: lines [] rest := if_pos rfl
      dsimp only
      rw [dispatch_call results hlength hset, hlines]
      unfold calledLines
      by_cases hfails : results.headD 0 ≠ 0
      · rw [if_pos hfails, if_pos hfails]
        refine ⟨rfl, ?_, fun left h => absurd h.symm (Option.some_ne_none left)⟩
        intro call hcall
        rw [List.mem_singleton.mp hcall]
        exact ⟨hanswer, hreads⟩
      · rw [if_neg hfails, if_neg hfails]
        refine ⟨by rw [List.map_cons, hpackets], List.forall_mem_cons.mpr ?_, ?_⟩
        · exact ⟨⟨hanswer, hreads⟩, hcalls⟩
        · intro left h
          rw [List.flatten_cons, List.append_assoc, hleft left h]
          simp
    · have hlines : lines cur (c :: rest) = lines (cur ++ [c]) rest := if_neg hc
      have hnext := @ih front (cur ++ [c]) results (by simpa using hfinds)
      dsimp only at hnext ⊢
      rw [dispatch_skip hc, hlines, List.append_cons cur c rest]
      exact hnext

/-! ## Replies -/

theorem exists_replyTail (cfg : FakeidentConfig) : ∃ more, replyTail cfg = colon ++ more := by
  unfold replyTail
  cases cfg.username with
  | none => exact ⟨_, rfl⟩
  | some username => exact ⟨_, rfl⟩

/-- What a text begins with is passed on if it fits. -/
theorem prefix_sockPrintf {s : List UInt8} (hc : c ≠ 0) (text : List UInt8) :
    s ++ [c] <+: sockPrintf buffer text ↔
      s ++ [c] <+: text ∧ (s ++ [c]).length < vsnprintfBufSize := by
  unfold sockPrintf
  rw [Socket.passedBytes_snprintf]
  by_cases hfits : text.length < vsnprintfBufSize
  · rw [if_pos hfits]
    exact ⟨fun h => ⟨h, h.length_le.trans_lt hfits⟩, fun h => h.1⟩
  · have hsize : vsnprintfBufSize = 2048 := rfl
    rw [if_neg hfits, List.prefix_concat_iff, List.prefix_take_iff]
    constructor
    · rintro (h | ⟨h, hlen⟩)
      · have hlast := congrArg List.getLast? h
        rw [List.getLast?_concat, List.getLast?_concat] at hlast
        exact absurd (Option.some.inj hlast) hc
      · exact ⟨h, by omega⟩
    · rintro ⟨h, hlen⟩
      exact Or.inr ⟨h, by omega⟩

theorem prefix_reply_iff {u : List UInt8} (hu : 58 ∉ u) (ht : 58 ∉ t) :
    u ++ colon <+: reply cfg buffer t ↔ u = t ∧ u.length + colon.length < vsnprintfBufSize := by
  obtain ⟨more, hmore⟩ := exists_replyTail cfg
  have hcolon : u ++ colon = u ++ [32, 58] ++ [32] := by
    rw [List.append_assoc]
    rfl
  have hcut : ∀ s : List UInt8, 58 ∉ s → ∀ back,
      (s ++ [32] ++ 58 :: back).takeWhile (· ≠ 58) = s ++ [32] := by
    intro s hs back
    apply takeWhile_ne_cut
    simp [hs]
  unfold reply
  rw [hcolon, prefix_sockPrintf (by decide), hmore, ← hcolon, List.length_append]
  refine and_congr_left fun _ => ?_
  constructor
  · rintro ⟨back, hback⟩
    have hleft := hcut u hu (32 :: back)
    have hright := hcut t ht (32 :: more)
    have hsame : u ++ [32] ++ 58 :: (32 :: back) = t ++ [32] ++ 58 :: (32 :: more) := by
      unfold colon at hback
      simpa using hback
    rw [hsame] at hleft
    exact List.append_cancel_right (hleft.symm.trans hright)
  · rintro rfl
    rw [← List.append_assoc]
    exact List.prefix_append _ more

/-! ## The lines of a buffer -/

theorem prefix_calledLines : ∀ (ls : List (List UInt8)) (results : List Int),
    calledLines ls results <+: ls := by
  intro ls
  induction ls with
  | nil => exact fun _ => List.nil_prefix
  | cons line ls ih =>
    intro results
    unfold calledLines
    apply (List.prefix_cons_inj line).mpr
    split_ifs
    · exact List.nil_prefix
    · exact ih results.tail

theorem lines_packets (hcur : 10 ∉ cur) : ∀ line ∈ lines cur rest, IsPacket [10] line := by
  induction rest generalizing cur with
  | nil => exact fun line hline => absurd hline List.not_mem_nil
  | cons c rest ih =>
    unfold lines
    split_ifs with hc
    · rw [hc]
      exact List.forall_mem_cons.mpr ⟨isPacket_concat hcur, ih List.not_mem_nil⟩
    · apply ih
      intro hmem
      rcases List.mem_append.mp hmem with hmem | hmem
      · exact hcur hmem
      · exact hc (List.mem_singleton.mp hmem).symm

theorem lines_flatten : ∀ (rest cur : List UInt8), (lines cur rest).flatten <+: cur ++ rest := by
  intro rest
  induction rest with
  | nil => exact fun cur => List.nil_prefix
  | cons c rest ih =>
    intro cur
    rw [List.append_cons]
    unfold lines
    split_ifs
    · rw [List.flatten_cons]
      exact (List.prefix_append_right_inj _).mpr (ih [])
    · exact ih _

theorem lines_eq_nil (h : 10 ∉ rest) : lines cur rest = [] := by
  induction rest generalizing cur with
  | nil => rfl
  | cons c rest ih =>
    simp only [List.mem_cons, not_or] at h
    unfold lines
    rw [if_neg (fun hc => h.1 hc.symm)]
    exact ih h.2

theorem mem_of_mem_lines {line : List UInt8} (hline : line ∈ lines [] rest) (hc : c ∈ line) :
    c ∈ rest :=
  (lines_flatten rest []).subset (List.mem_flatten.mpr ⟨line, hline, hc⟩)

theorem mem_of_mem_lineText {s : List UInt8} (hc : c ∈ lineText s) : c ∈ s :=
  (List.takeWhile_prefix _).subset hc

/-! ## The bytes of a stream -/

theorem exists_body (line : IdentLine) : ∃ body, line.bytes = body ++ [10] ∧
    ∀ c ∈ body, IsDigitByte c ∨ c = 32 ∨ c = 44 ∨ c = 13 := by
  have htext : ∀ c ∈ line.text, IsDigitByte c ∨ c = 32 ∨ c = 44 ∨ c = 13 := by
    intro c hc
    unfold IdentLine.text at hc
    simp only [List.mem_append, List.mem_cons] at hc
    rcases hc with hc | hc | hc | hc | hc | hc
    · exact Or.inl (line.first_digits c hc)
    · exact Or.inr (Or.inl (of_mem_spaces hc))
    · exact Or.inr (Or.inr (Or.inl hc))
    · exact Or.inr (Or.inl (of_mem_spaces hc))
    · exact Or.inl (line.second_digits c hc)
    · exact Or.inr (Or.inl (of_mem_spaces hc))
  unfold IdentLine.bytes
  cases line.cr with
  | false => exact ⟨line.text, rfl, htext⟩
  | true =>
    refine ⟨line.text ++ [13], by simp [IdentLine.lineEnd], ?_⟩
    intro c hc
    rcases List.mem_append.mp hc with hc | hc
    · exact htext c hc
    · exact Or.inr (Or.inr (Or.inr (List.mem_singleton.mp hc)))

theorem notMem_body {body : List UInt8}
    (hbody : ∀ c ∈ body, IsDigitByte c ∨ c = 32 ∨ c = 44 ∨ c = 13)
    (hc : ¬ (IsDigitByte c ∨ c = 32 ∨ c = 44 ∨ c = 13)) : c ∉ body :=
  fun hmem => hc (hbody c hmem)

theorem bytes_packet (line : IdentLine) : IsPacket [10] line.bytes := by
  obtain ⟨body, hbytes, hbody⟩ := exists_body line
  rw [hbytes]
  exact isPacket_concat (notMem_body hbody (by decide))

theorem notMem_streamBytes (hc : ¬ (IsDigitByte c ∨ c = 32 ∨ c = 44 ∨ c = 13)) (hend : c ≠ 10) :
    c ∉ streamBytes stream := by
  intro hmem
  obtain ⟨bytes, hbytes, hmem⟩ := List.mem_flatten.mp hmem
  obtain ⟨line, -, rfl⟩ := List.mem_map.mp hbytes
  obtain ⟨body, heq, hbody⟩ := exists_body line
  rw [heq, List.mem_append, List.mem_singleton] at hmem
  rcases hmem with hmem | rfl
  · exact notMem_body hbody hc hmem
  · exact hend rfl

/-- The start of a stream is accepted as soon as it has a full line. -/
theorem detect_stream {s : List UInt8} (hs : s <+: streamBytes stream) (hline : 10 ∈ s) :
    fakeidentDetectProto s = true := by
  cases stream with
  | nil => exact absurd (hs.subset hline) List.not_mem_nil
  | cons line stream =>
    apply (detect_iff s).mpr
    refine ⟨line, ?_⟩
    have hbytes : line.bytes <+: streamBytes (line :: stream) := List.prefix_append _ _
    rcases Nat.le_total line.bytes.length s.length with hle | hle
    · exact List.prefix_of_prefix_length_le hbytes hs hle
    · obtain ⟨body, heq, hbody⟩ := exists_body line
      have hshort := List.prefix_of_prefix_length_le hs hbytes hle
      rw [heq, List.prefix_concat_iff] at hshort
      rcases hshort with rfl | hshort
      · rw [heq]
      · exact absurd (hshort.subset hline) (notMem_body hbody (by decide))

/-! ## Runs -/

theorem checkRequest_spec (detectionFill : Nat) (hzero : 0 ∉ conn.recvBuffer)
    (hdetect : conn.detected = false → 10 ∈ conn.recvBuffer →
      fakeidentDetectProto conn.recvBuffer = true) (results : List Int) :
    let called := calledLines (lines [] conn.recvBuffer) results
    let next := checkRequest cfg buffer detectionFill conn results
    ∃ new, next.calls = conn.calls ++ new ∧ new.map Call.packet = called ∧
      (∀ call ∈ new, call.answer = reply cfg buffer (lineText conn.recvBuffer) ∧
        call.reads ≤ call.packetEnd) ∧
      (next.closed = false → called.flatten ++ next.recvBuffer = conn.recvBuffer) ∧
      (next.detected = false → conn.detected = false ∧ new = []) := by
  dsimp only
  unfold checkRequest
  by_cases hknown : (conn.detected || fakeidentDetectProto conn.recvBuffer) = true
  · rw [if_pos hknown]
    dsimp only
    obtain ⟨hpackets, hcalls, hleft⟩ :=
      @dispatch_spec cfg buffer (lineText conn.recvBuffer) [] [] conn.recvBuffer
        (fun h => hzero (mem_of_mem_lineText h))
        (fun c hc => of_mem_takeWhile hc) results (Or.inl ⟨rfl, rfl⟩)
    refine ⟨_, rfl, hpackets, hcalls, ?_, fun h => nomatch h⟩
    intro hopen
    cases hend : (splitPacketUnibyteAndDispatch cfg buffer conn.recvBuffer results).left with
    | none =>
      rw [hend] at hopen
      exact absurd hopen (by decide)
    | some left => exact hleft left hend
  · have hundetected : conn.detected = false := by
      cases hd : conn.detected with
      | false => rfl
      | true => exact absurd (by rw [hd]; rfl) hknown
    have hnone : 10 ∉ conn.recvBuffer := by
      intro hmem
      rw [hdetect hundetected hmem, Bool.or_true] at hknown
      exact hknown rfl
    rw [if_neg hknown, lines_eq_nil hnone]
    exact ⟨[], (List.append_nil _).symm, rfl, fun call hcall => absurd hcall List.not_mem_nil,
      fun _ => rfl, fun _ => ⟨hundetected, rfl⟩⟩

/-- What is kept in a run in which some bytes were read. -/
structure Reached (bytes : List UInt8) (conn : Conn) : Prop where
  packets : ∀ call ∈ conn.calls, IsPacket [10] call.packet
  reads : ∀ call ∈ conn.calls, call.reads ≤ call.packetEnd
  taken : (conn.calls.map Call.packet).flatten <+: bytes
  left : conn.closed = false → (conn.calls.map Call.packet).flatten ++ conn.recvBuffer = bytes
  undetected : conn.detected = false → conn.calls = []

theorem Reached.closed {bytes : List UInt8} (h : Reached bytes conn)
    (hclosed : conn.closed = true) (chunk : List UInt8) : Reached (bytes ++ chunk) conn where
  packets := h.packets
  reads := h.reads
  taken := h.taken.trans (List.prefix_append bytes chunk)
  left := fun hopen => absurd (hclosed.symm.trans hopen) (by decide)
  undetected := h.undetected

/-- A read on an open connection: the calls that it leads to. -/
theorem step_read {bytes chunk : List UInt8} (h : Reached bytes conn)
    (hopen : conn.closed = false) (hstream : bytes ++ chunk <+: streamBytes stream)
    (detectionFill : Nat) (results : List Int) :
    let called := calledLines (lines [] (conn.recvBuffer ++ chunk)) results
    let next := step cfg buffer detectionFill conn (.read chunk results)
    Reached (bytes ++ chunk) next ∧
      ∃ new, next.calls = conn.calls ++ new ∧ new.map Call.packet = called ∧
        ∀ call ∈ new, call.answer =
          reply cfg buffer (lineText (conn.recvBuffer ++ chunk)) := by
  have hbytes := h.left hopen
  have hnotMem : ∀ c : UInt8, ¬ (IsDigitByte c ∨ c = 32 ∨ c = 44 ∨ c = 13) → c ≠ 10 →
      c ∉ conn.recvBuffer ++ chunk := by
    intro c hc hend hmem
    apply notMem_streamBytes hc hend (hstream.subset ?_)
    rw [← hbytes, List.append_assoc]
    exact List.mem_append_right _ hmem
  have hdetect : conn.detected = false → 10 ∈ conn.recvBuffer ++ chunk →
      fakeidentDetectProto (conn.recvBuffer ++ chunk) = true := by
    intro hundetected hline
    have hall : bytes = conn.recvBuffer := by
      rw [← hbytes, h.undetected hundetected]
      rfl
    apply @detect_stream stream _ ?_ hline
    rw [← hall]
    exact hstream
  obtain ⟨new, hcalls, hpackets, hnew, hleft, hundetected⟩ :=
    @checkRequest_spec cfg buffer { conn with recvBuffer := conn.recvBuffer ++ chunk }
      detectionFill (hnotMem 0 (by decide) (by decide)) hdetect results
  have hstep : step cfg buffer detectionFill conn (.read chunk results) =
      checkRequest cfg buffer detectionFill
        { conn with recvBuffer := conn.recvBuffer ++ chunk } results := by
    unfold step
    rw [if_neg (by rw [hopen]; decide)]
  have hcalled : (calledLines (lines [] (conn.recvBuffer ++ chunk)) results).flatten <+:
      conn.recvBuffer ++ chunk :=
    (List.IsPrefix.flatten (prefix_calledLines _ results)).trans (lines_flatten _ [])
  dsimp only at hcalls hpackets hnew hleft hundetected ⊢
  rw [hstep]
  refine ⟨⟨?_, ?_, ?_, ?_, ?_⟩, new, hcalls, hpackets, fun call hcall => (hnew call hcall).1⟩
  · rw [hcalls]
    intro call hcall
    rcases List.mem_append.mp hcall with hcall | hcall
    · exact h.packets call hcall
    · apply lines_packets List.not_mem_nil _ ((prefix_calledLines _ results).subset ?_)
      · exact conn.recvBuffer ++ chunk
      · rw [← hpackets]
        exact List.mem_map_of_mem hcall
  · rw [hcalls]
    intro call hcall
    rcases List.mem_append.mp hcall with hcall | hcall
    · exact h.reads call hcall
    · exact (hnew call hcall).2
  · rw [hcalls, List.map_append, List.flatten_append, hpackets, ← hbytes, List.append_assoc]
    exact (List.prefix_append_right_inj _).mpr hcalled
  · intro hstill
    rw [hcalls, List.map_append, List.flatten_append, hpackets, ← hbytes, List.append_assoc,
      hleft hstill, List.append_assoc]
  · intro hstill
    obtain ⟨hbefore, rfl⟩ := hundetected hstill
    rw [hcalls, h.undetected hbefore]
    rfl

/-- All the replies that a connection has passed on are the ones they should be. -/
def AllOwn (conn : Conn) : Prop := ∀ call ∈ conn.calls, AnswersOwnLine call

theorem reached_step {bytes : List UInt8} (h : Reached bytes conn) (detectionFill : Nat)
    (event : Event) (hstream : bytes ++ event.chunk <+: streamBytes stream) :
    Reached (bytes ++ event.chunk) (step cfg buffer detectionFill conn event) := by
  cases hclosed : conn.closed with
  | true =>
    have hstep : step cfg buffer detectionFill conn event = conn := by
      unfold step
      rw [if_pos hclosed]
    rw [hstep]
    exact h.closed hclosed event.chunk
  | false =>
    cases event with
    | read chunk results => exact (step_read h hclosed hstream detectionFill results).1
    | sent =>
      have hstep : step cfg buffer detectionFill conn .sent =
          { conn with closed := conn.finalWrite } := by
        unfold step
        rw [if_neg (by rw [hclosed]; decide)]
      rw [hstep]
      change Reached (bytes ++ []) _
      rw [List.append_nil]
      exact ⟨h.packets, h.reads, h.taken, fun _ => h.left hclosed, h.undetected⟩

/-- One step keeps the replies right just when the lines that it brings have one text. -/
theorem allOwn_step {bytes : List UInt8} (h : Reached bytes conn) (hown : AllOwn conn)
    (detectionFill : Nat) (event : Event) (hstream : bytes ++ event.chunk <+: streamBytes stream) :
    AllOwn (step cfg buffer detectionFill conn event) ↔ OneText conn event := by
  cases event with
  | sent =>
    refine iff_of_true ?_ trivial
    unfold step
    split_ifs
    · exact hown
    · exact hown
  | read chunk results =>
    cases hclosed : conn.closed with
    | true =>
      refine iff_of_true ?_ (fun hopen => absurd (hclosed.symm.trans hopen) (by decide))
      unfold step
      rw [if_pos hclosed]
      exact hown
    | false =>
      change bytes ++ chunk <+: streamBytes stream at hstream
      obtain ⟨-, new, hcalls, hpackets, hanswers⟩ :=
        @step_read cfg buffer _ _ _ _ h hclosed hstream detectionFill results
      have hcolon : 58 ∉ conn.recvBuffer ++ chunk := by
        intro hmem
        have hno : (58 : UInt8) ∉ streamBytes stream := notMem_streamBytes (by decide) (by decide)
        apply hno (hstream.subset ?_)
        rw [← h.left hclosed, List.append_assoc]
        exact List.mem_append_right _ hmem
      have hpacket : ∀ call ∈ new, 58 ∉ lineText call.packet := by
        intro call hcall hmem
        have hline : call.packet ∈ calledLines (lines [] (conn.recvBuffer ++ chunk)) results := by
          rw [← hpackets]
          exact List.mem_map_of_mem hcall
        exact hcolon (mem_of_mem_lines ((prefix_calledLines _ results).subset hline)
          (mem_of_mem_lineText hmem))
      unfold AllOwn OneText
      rw [hcalls]
      dsimp only
      rw [← hpackets]
      constructor
      · intro hall _ line hline
        obtain ⟨call, hcall, rfl⟩ := List.mem_map.mp hline
        have hright := hall call (List.mem_append_right _ hcall)
        unfold AnswersOwnLine at hright
        rw [hanswers call hcall] at hright
        exact (prefix_reply_iff (hpacket call hcall)
          (fun hmem => hcolon (mem_of_mem_lineText hmem))).mp hright
      · intro hone call hcall
        rcases List.mem_append.mp hcall with hcall | hcall
        · exact hown call hcall
        · have htext := hone hclosed call.packet (List.mem_map_of_mem hcall)
          unfold AnswersOwnLine
          rw [hanswers call hcall]
          exact (prefix_reply_iff (hpacket call hcall)
            (fun hmem => hcolon (mem_of_mem_lineText hmem))).mpr htext

theorem received_concat (pre : List Event) (event : Event) :
    received (pre ++ [event]) = received pre ++ event.chunk := by
  unfold received
  simp

theorem prefix_received {pre events : List Event} (h : pre <+: events) :
    received pre <+: received events := by
  obtain ⟨rest, rfl⟩ := h
  unfold received
  rw [List.map_append, List.flatten_append]
  exact List.prefix_append _ _

theorem run_concat (detectionFill : Nat) (pre : List Event) (event : Event) :
    run cfg buffer detectionFill (pre ++ [event]) =
      step cfg buffer detectionFill (run cfg buffer detectionFill pre) event :=
  foldl_concat _ newConn pre event

theorem reached_new : Reached [] newConn where
  packets := fun _ hcall => absurd hcall List.not_mem_nil
  reads := fun _ hcall => absurd hcall List.not_mem_nil
  taken := List.prefix_refl []
  left := fun _ => rfl
  undetected := fun _ => rfl

theorem reached_run (detectionFill : Nat) (pre : List Event) :
    received pre <+: streamBytes stream →
      Reached (received pre) (run cfg buffer detectionFill pre) := by
  induction pre using List.reverseRecOn with
  | nil => exact fun _ => reached_new
  | append_singleton pre event ih =>
    intro hstream
    have hbefore := (prefix_received (List.prefix_append pre [event])).trans hstream
    rw [received_concat] at hstream ⊢
    rw [run_concat]
    exact reached_step (ih hbefore) detectionFill event hstream

/-- What the detection accepts, and when the replies to a stream of lines are right: in every run
the handler is called for the lines of the stream and stays within them. -/
theorem fakeident_iff (cfg : FakeidentConfig) (buffer : PrintBuffer) (detectionFill : Nat) :
    (∀ recvBuffer, DetectsRight recvBuffer ↔
      ∀ line : IdentLine, line.bytes <+: recvBuffer → line.first ≠ [] ∧ line.second ≠ []) ∧
    ∀ (stream : List IdentLine) (events : List Event), received events <+: streamBytes stream →
      (∀ call ∈ (run cfg buffer detectionFill events).calls, call.reads ≤ call.packetEnd) ∧
      (run cfg buffer detectionFill events).calls.map Call.packet <+:
        stream.map IdentLine.bytes ∧
      ((∀ pre, pre <+: events → AllOwn (run cfg buffer detectionFill pre)) ↔
        ∀ pre event, pre ++ [event] <+: events →
          OneText (run cfg buffer detectionFill pre) event) := by
  refine ⟨detectsRight_iff, fun stream events hstream => ?_⟩
  have hreached : ∀ pre, pre <+: events → Reached (received pre)
      (run cfg buffer detectionFill pre) :=
    fun pre hpre => reached_run detectionFill pre ((prefix_received hpre).trans hstream)
  refine ⟨(hreached events (List.prefix_refl _)).reads, ?_, ?_⟩
  · apply packets_prefix (b := [10]) (by decide)
    · intro packet hpacket
      obtain ⟨call, hcall, rfl⟩ := List.mem_map.mp hpacket
      exact (hreached events (List.prefix_refl _)).packets call hcall
    · intro packet hpacket
      obtain ⟨line, -, rfl⟩ := List.mem_map.mp hpacket
      exact bytes_packet line
    · exact (hreached events (List.prefix_refl _)).taken.trans hstream
  · apply forall_prefix_iff (step cfg buffer detectionFill) AllOwn OneText
    · exact fun call hcall => absurd hcall List.not_mem_nil
    · intro pre event hpre hown
      apply @allOwn_step _ _ stream _ _ (hreached pre (prefix_of_concat hpre)) hown
      rw [← received_concat]
      exact (prefix_received hpre).trans hstream

/-- A client asks for one pair of ports and then for another, and each line comes in two reads. -/
theorem fakeident_iff_twoPairs :
    let line : IdentLine :=
      ⟨[54, 49, 57, 51], 0, 1, [50, 51], 0, true, by simp [IsDigitByte], by simp [IsDigitByte]⟩
    let other : IdentLine :=
      ⟨[55], 0, 0, [56], 0, false, by simp [IsDigitByte], by simp [IsDigitByte]⟩
    let events : List Event :=
      [.read (line.bytes.take 4) [], .read (line.bytes.drop 4) [], .read (other.bytes.take 2) [],
        .read (other.bytes.drop 2) []]
    let conn := run ⟨none, [85]⟩ ⟨List.replicate 2048 0, List.length_replicate⟩ 16 events
    conn.calls.map Call.packet = [line.bytes, other.bytes] ∧
      (∀ call ∈ conn.calls, call.reads ≤ call.packetEnd) ∧ AllOwn conn := by
  intro line other events conn
  obtain ⟨hreads, -, hiff⟩ := (fakeident_iff ⟨none, [85]⟩
    ⟨List.replicate 2048 0, List.length_replicate⟩ 16).2 [line, other] events (by decide +kernel)
  refine ⟨by decide +kernel, hreads, hiff.mpr ?_ events (List.prefix_refl _)⟩
  have htexts : ∀ n < events.length, ∀ event ∈ events[n]?, OneText
      (run ⟨none, [85]⟩ ⟨List.replicate 2048 0, List.length_replicate⟩ 16 (events.take n))
      event := by
    decide +kernel
  apply forall_steps
  intro n event hget
  exact htexts n (List.getElem?_eq_some_iff.mp hget).1 event hget

/-- A comma alone is accepted, and of two requests in one read the second gets the reply to the
first. -/
theorem not_fakeident :
    ¬ DetectsRight [44, 10] ∧
      ¬ ∀ (cfg : FakeidentConfig) (buffer : PrintBuffer) (stream : List IdentLine)
        (events : List Event), (∀ line ∈ stream, line.Complete) →
          received events <+: streamBytes stream → AllOwn (run cfg buffer 16 events) := by
  constructor
  · intro hright
    let line : IdentLine := ⟨[], 0, 0, [], 0, false, by simp, by simp⟩
    exact ((detectsRight_iff [44, 10]).mp hright line (List.prefix_refl _)).1 rfl
  · intro hall
    let first : IdentLine :=
      ⟨[49], 0, 0, [50], 0, false, by simp [IsDigitByte], by simp [IsDigitByte]⟩
    let second : IdentLine :=
      ⟨[51], 0, 0, [52], 0, false, by simp [IsDigitByte], by simp [IsDigitByte]⟩
    let event : Event := .read [49, 44, 50, 10, 51, 44, 52, 10] []
    let cfg : FakeidentConfig := ⟨none, []⟩
    let buffer : PrintBuffer := ⟨List.replicate 2048 0, List.length_replicate⟩
    have hstream : [] ++ event.chunk <+: streamBytes [first, second] := List.prefix_refl _
    have hown : AllOwn (step cfg buffer 16 newConn event) :=
      hall cfg buffer [first, second] [event] (by decide) hstream
    have hone := (allOwn_step reached_new
      (fun call hcall => absurd hcall List.not_mem_nil) 16 event hstream).mp hown
    have htext := (hone rfl [51, 44, 52, 10] (by decide)).1
    exact absurd htext (by decide)

end Serveez.Fakeident
