import Serveez.Nut.GetRequests

/-!
# Uploads

`nut_init_upload` announces the size of a file and lets `nut_file_read` put the file into the send
buffer, from which `nut_file_write` sends it. What is left of the size is an `int`; it says when the
file has been read, when all has been sent, and how fast that may be. The size is taken once, while
the file is read up to an end that may have been moved since.

* `relaxes_iff`: the speeds for which a writer that waits goes on in the end.
* `uploads_right`: what is sent of a file while it stays as it was.
-/

namespace Serveez.Nut

open Lib
open Socket (sockPrintf)

/-! ## The callbacks -/

/-- `SVZ_SOCK_MAX_WRITE` -/
def svzSockMaxWrite : Nat := 1024

/-- `Content-type: application/binary` and the end of the line -/
def nutContentBinary : List UInt8 :=
  [67, 111, 110, 116, 101, 110, 116, 45, 116, 121, 112, 101, 58, 32, 97, 112, 112, 108, 105, 99, 97,
    116, 105, 111, 110, 47, 98, 105, 110, 97, 114, 121, 13, 10]

/-- The `int` that a size becomes. -/
def intOf (x : Int) : Int := x.bmod 4294967296

/-- The result of an operation on `int`s, if it is one. -/
def intResult (x : Int) : Option Int :=
  if -2147483648 ≤ x ∧ x < 2147483648 then some x else none

/-- What the four calls of `svz_sock_printf` print for a file of so many bytes. -/
def uploadHeader (buffer : Socket.PrintBuffer) (size : Nat) : List UInt8 :=
  sockPrintf buffer (nutGetOk ++ nutAgent) ++ (sockPrintf buffer nutContentBinary ++
    (sockPrintf buffer (nutLength ++ 58 :: 32 :: (signedBytes (intOf size) ++ [13, 10])) ++
      sockPrintf buffer [13, 10]))

/-- The socket of an upload with its `nut_transfer_t` and the file. `sent` is all that was sent. -/
structure UploadSock where
  content : List UInt8
  pos : Nat
  size : Int
  originalSize : Int
  start : Int
  sendBuffer : List UInt8
  sent : List UInt8
  /-- `SVZ_SOFLG_FILE` -/
  file : Bool
  unavailable : Option Int
  fault : Bool
  closed : Bool

/-- What `read` does; it answers no bytes only at the end of the file. -/
inductive FileRead
  | data (more : Nat)
  | error
  deriving DecidableEq

inductive FileSend
  | sent (n : Nat)
  | unavailable
  | error
  deriving DecidableEq

/-- The number of bytes that are sent of so many. -/
def FileSend.count (limit : Nat) : FileSend → Nat
  | .sent n => min n limit
  | _ => 0

/-- The bytes that are read where there is room for some. -/
def FileRead.bytes (result : FileRead) (s : UploadSock) (room : Nat) : List UInt8 :=
  match result with
  | .data more => (s.content.drop s.pos).take (min (more + 1) room)
  | .error => []

def nutFileRead (sendBufferSize : Nat) (result : FileRead) (s : UploadSock) : UploadSock × Int :=
  let doRead := sendBufferSize - s.sendBuffer.length
  if doRead = 0 then (s, 0)
  else if result = .error then (s, -1)
  else
    let bytes := result.bytes s doRead
    if bytes = [] ∧ s.size ≠ 0 then (s, -1)
    else
      let size := intOf (s.size - bytes.length)
      ({ s with
        sendBuffer := s.sendBuffer ++ bytes
        pos := s.pos + bytes.length
        size := size
        file := if size ≤ 0 then false else s.file }, 0)

/-- The throttle condition; it has no result when the arithmetic has none. -/
def throttles (speed originalSize size start now : Int) : Option Bool := do
  let numWritten ← intResult (originalSize - size)
  let kbits ← intResult (speed * 1024)
  if now - start + 1 = 0 then none
  else some (decide (numWritten.tdiv (now - start + 1) > kbits.tdiv 8))

/-- `nut_file_write`, when the arithmetic has a result. -/
def writeSome (now : Int) (result : FileSend) (s : UploadSock) : UploadSock × Int :=
  let numWritten := result.count (min s.sendBuffer.length svzSockMaxWrite)
  let s :=
    { s with
      sent := s.sent ++ s.sendBuffer.take numWritten
      sendBuffer := s.sendBuffer.drop numWritten
      unavailable := if result = .unavailable then some (now + 1) else s.unavailable }
  if s.sendBuffer = [] ∧ s.size ≤ 0 then (s, -1)
  else if result = .error then (s, -1)
  else (s, 0)

def nutFileWrite (speed now : Int) (result : FileSend) (s : UploadSock) : UploadSock × Int :=
  match throttles speed s.originalSize s.size s.start now with
  | none => ({ s with fault := true }, -1)
  | some true => ({ s with unavailable := some (now + 1) }, 0)
  | some false => writeSome now result s

/-! ## Uploads -/

/-- A file that is not empty, and the connection that it is uploaded on: a part of the header may
have been sent when it was printed. -/
structure UploadSetup where
  contents : List UInt8
  nonempty : contents ≠ []
  buffer : Socket.PrintBuffer
  start : Int
  speed : Int
  sendBufferSize : Nat
  sent : List UInt8
  left : List UInt8
  header : sent ++ left = uploadHeader buffer contents.length

/-- `nut_init_upload` -/
def nutInitUpload (u : UploadSetup) : UploadSock where
  content := u.contents
  pos := 0
  size := intOf u.contents.length
  originalSize := intOf u.contents.length
  start := u.start
  sendBuffer := u.left
  sent := u.sent
  file := true
  unavailable := none
  fault := false
  closed := false

inductive UploadEvent
  | change (content : List UInt8)
  | read (result : FileRead)
  | write (now : Int) (result : FileSend)

/-- The loop calls the writer when there is something to send and the pause is over. -/
def UploadSock.Writable (s : UploadSock) (now : Int) : Prop :=
  s.sendBuffer ≠ [] ∧ ∀ t ∈ s.unavailable, t ≤ now

instance (s : UploadSock) (now : Int) : Decidable (s.Writable now) :=
  inferInstanceAs (Decidable (_ ∧ _))

/-- A callback that fails ends the connection. -/
def UploadSock.done (called : UploadSock × Int) : UploadSock :=
  if called.2 = 0 then called.1 else { called.1 with closed := true }

def uploadStep (u : UploadSetup) (s : UploadSock) (event : UploadEvent) : UploadSock :=
  if s.closed then s
  else
    match event with
    | .change content => { s with content := content }
    | .read result => if s.file then .done (nutFileRead u.sendBufferSize result s) else s
    | .write now result =>
      if s.Writable now then .done (nutFileWrite u.speed now result s) else s

def uploadRun (u : UploadSetup) (events : List UploadEvent) : UploadSock :=
  events.foldl (uploadStep u) (nutInitUpload u)

/-! ## The answer to a download -/

/-- The number in the header. -/
def UploadSetup.announced (u : UploadSetup) : Int := intOf u.contents.length

/-- The header, and as many bytes of the file as it announces. -/
def UploadSetup.answer (u : UploadSetup) : List UInt8 :=
  uploadHeader u.buffer u.contents.length ++ u.contents.take u.announced.toNat

/-- What is sent is the answer. The connection is not closed before all of it has been sent, and
until then there is something to read or to send. -/
structure Uploads (u : UploadSetup) (s : UploadSock) : Prop where
  order : s.sent <+: u.answer
  ends : s.closed = true → s.sent = u.answer ∧ 0 ≤ u.announced
  goes : s.closed = false → s.file = true ∨ s.sendBuffer ≠ []
  arithmetic : s.fault = false

/-- For any number of bytes sent the writer goes on once enough time has passed. -/
def Relaxes (speed : Int) : Prop :=
  ∀ originalSize size start : Int, 0 ≤ size → size ≤ originalSize → originalSize < 2 ^ 31 →
    ∃ t, ∀ now, t ≤ now → throttles speed originalSize size start now = some false

/-- The size is an `int`, and so is the speed in bits. -/
structure UploadSetup.Sized (u : UploadSetup) : Prop where
  size : u.contents.length < 2 ^ 31
  speed : 0 ≤ u.speed ∧ u.speed < 2 ^ 21

/-- What is read is the next part of the file as it was when its size was taken, the clock is not a
second behind the start of the upload, and no call fails. -/
def MeetsUpload (u : UploadSetup) (s : UploadSock) : UploadEvent → Prop
  | .change _ => True
  | .read result =>
    let room := u.sendBufferSize - s.sendBuffer.length
    s.closed = false → s.file = true → room ≠ 0 →
      result.bytes s room ≠ [] ∧ result.bytes s room <+: u.contents.drop s.pos
  | .write now result => s.closed = false → s.Writable now → now + 1 ≠ u.start ∧ result ≠ .error

instance (u : UploadSetup) (s : UploadSock) (event : UploadEvent) :
    Decidable (MeetsUpload u s event) :=
  match event with
  | .change _ => .isTrue trivial
  | .read _ => inferInstanceAs (Decidable (_ → _ → _ → _ ∧ _))
  | .write _ _ => inferInstanceAs (Decidable (_ → _ → _ ∧ _))

/-! ## The throttle -/

theorem intResult_eq {x : Int} (h : -2147483648 ≤ x ∧ x < 2147483648) : intResult x = some x :=
  if_pos h

theorem kbits_tdiv (speed : Int) : (speed * 1024).tdiv 8 = speed * 128 := by
  have hmul : speed * 1024 = speed * 128 * 8 := by omega
  rw [hmul, Int.mul_tdiv_cancel _ (by decide)]

theorem throttles_eq {speed originalSize size start now : Int}
    (hsize : 0 ≤ size ∧ size ≤ originalSize ∧ originalSize < 2 ^ 31)
    (hspeed : 0 ≤ speed ∧ speed < 2 ^ 21) (hnow : now + 1 ≠ start) :
    throttles speed originalSize size start now =
      some (decide ((originalSize - size).tdiv (now - start + 1) > speed * 128)) := by
  unfold throttles
  rw [intResult_eq (by omega), intResult_eq (by omega)]
  change (if now - start + 1 = 0 then none else some _) = some _
  rw [if_neg (by omega), kbits_tdiv]

theorem relaxes_iff (speed : Int) : Relaxes speed ↔ 0 ≤ speed ∧ speed < 2 ^ 21 := by
  constructor
  · intro h
    obtain ⟨t, ht⟩ := h 0 0 0 (by omega) (by omega) (by decide)
    have hfalse := ht t (Int.le_refl t)
    unfold throttles at hfalse
    obtain ⟨numWritten, hwritten, hfalse⟩ := Option.bind_eq_some_iff.mp hfalse
    obtain ⟨kbits, hkbits, hlater⟩ := Option.bind_eq_some_iff.mp hfalse
    rw [intResult_eq (by decide)] at hwritten
    obtain rfl := Option.some.inj hwritten
    unfold intResult at hkbits
    split_ifs at hkbits with hrange
    obtain rfl := Option.some.inj hkbits
    split_ifs at hlater
    have hle := of_decide_eq_false (Option.some.inj hlater)
    rw [kbits_tdiv, Int.sub_zero, Int.zero_tdiv] at hle
    omega
  · intro hspeed originalSize size start hsize hle hint
    refine ⟨start + originalSize, fun now hnow => ?_⟩
    rw [throttles_eq ⟨hsize, hle, hint⟩ hspeed (by omega),
      Int.tdiv_eq_zero_of_lt (by omega) (by omega)]
    apply congrArg some
    apply decide_eq_false
    omega

/-! ## Steps -/

variable {u : UploadSetup} {s : UploadSock}

/-- A connection that is open: the part of the file that has been read is behind the header in what
was sent and what is to be sent. -/
structure Sending (u : UploadSetup) (s : UploadSock) : Prop where
  pos : s.pos ≤ u.contents.length
  size : s.size = (u.contents.length : Int) - s.pos
  original : s.originalSize = u.contents.length
  start : s.start = u.start
  bytes : s.sent ++ s.sendBuffer =
    uploadHeader u.buffer u.contents.length ++ u.contents.take s.pos
  file : s.file = true ↔ s.pos < u.contents.length
  goes : s.file = true ∨ s.sendBuffer ≠ []

/-- What is kept in a run. -/
structure UploadKept (u : UploadSetup) (s : UploadSock) : Prop where
  fault : s.fault = false
  opened : s.closed = false → Sending u s
  ended : s.closed = true → s.sent = uploadHeader u.buffer u.contents.length ++ u.contents

theorem intOf_eq {n : Nat} (hn : n < 2 ^ 31) : intOf n = n := by
  unfold intOf
  rw [Int.bmod_def]
  omega

theorem announced_eq (h : u.Sized) : u.announced = u.contents.length := intOf_eq h.size

theorem answer_eq (h : u.Sized) :
    u.answer = uploadHeader u.buffer u.contents.length ++ u.contents := by
  unfold UploadSetup.answer
  rw [announced_eq h, Int.toNat_natCast, List.take_length]

theorem read_sending (h : Sending u s) (hsized : u.Sized) (hfile : s.file = true)
    (result : FileRead)
    (hmeets : let room := u.sendBufferSize - s.sendBuffer.length
      room ≠ 0 → result.bytes s room ≠ [] ∧ result.bytes s room <+: u.contents.drop s.pos) :
    (nutFileRead u.sendBufferSize result s).2 = 0 ∧
      Sending u (nutFileRead u.sendBufferSize result s).1 ∧
      (nutFileRead u.sendBufferSize result s).1.fault = s.fault ∧
      (nutFileRead u.sendBufferSize result s).1.closed = s.closed := by
  unfold nutFileRead
  dsimp only
  by_cases hroom : u.sendBufferSize - s.sendBuffer.length = 0
  · rw [if_pos hroom]
    exact ⟨rfl, h, rfl, rfl⟩
  obtain ⟨hne, hprefix⟩ := hmeets hroom
  have hnoError : result ≠ .error := by
    rintro rfl
    exact hne rfl
  rw [if_neg hroom, if_neg hnoError, if_neg (fun hend => hne hend.1)]
  generalize result.bytes s (u.sendBufferSize - s.sendBuffer.length) = bytes at hne hprefix
  have hpos := List.length_pos_iff.mpr hne
  have hlen := hprefix.length_le
  rw [List.length_drop] at hlen
  have hsmall := hsized.size
  have hsize : intOf (s.size - bytes.length) =
      ((u.contents.length - (s.pos + bytes.length) : Nat)) := by
    rw [← intOf_eq (n := u.contents.length - (s.pos + bytes.length)) (by omega), h.size]
    apply congrArg intOf
    omega
  have htake : u.contents.take (s.pos + bytes.length) = u.contents.take s.pos ++ bytes := by
    rw [List.take_add, ← List.prefix_iff_eq_take.mp hprefix]
  refine ⟨rfl, ⟨?_, ?_, h.original, h.start, ?_, ?_, Or.inr ?_⟩, rfl, rfl⟩
  · change s.pos + bytes.length ≤ u.contents.length
    omega
  · change intOf (s.size - bytes.length) = (u.contents.length : Int) - (s.pos + bytes.length : Nat)
    rw [hsize]
    omega
  · change s.sent ++ (s.sendBuffer ++ bytes) = _
    rw [← List.append_assoc, h.bytes, List.append_assoc, ← htake]
  · change (if intOf (s.size - bytes.length) ≤ 0 then false else s.file) = true ↔
      s.pos + bytes.length < u.contents.length
    rw [hsize, hfile]
    by_cases hend : ((u.contents.length - (s.pos + bytes.length) : Nat) : Int) ≤ 0
    · rw [if_pos hend]
      exact iff_of_false Bool.false_ne_true (by omega)
    · rw [if_neg hend]
      exact iff_of_true rfl (by omega)
  · change s.sendBuffer ++ bytes ≠ []
    exact fun hnil => hne (List.append_eq_nil_iff.mp hnil).2

/-- A write: the connection goes on, or all has been sent. -/
theorem write_sending (h : Sending u s) (now : Int) {result : FileSend}
    (hresult : result ≠ .error) :
    ((writeSome now result s).2 = 0 ∧ Sending u (writeSome now result s).1 ∧
        (writeSome now result s).1.fault = s.fault ∧
        (writeSome now result s).1.closed = s.closed) ∨
      ((writeSome now result s).2 = -1 ∧ (writeSome now result s).1.fault = s.fault ∧
        (writeSome now result s).1.sent =
          uploadHeader u.buffer u.contents.length ++ u.contents) := by
  unfold writeSome
  dsimp only
  generalize result.count (min s.sendBuffer.length svzSockMaxWrite) = numWritten
  have hbytes : (s.sent ++ s.sendBuffer.take numWritten) ++ s.sendBuffer.drop numWritten =
      uploadHeader u.buffer u.contents.length ++ u.contents.take s.pos := by
    rw [List.append_assoc, List.take_append_drop, h.bytes]
  by_cases hend : s.sendBuffer.drop numWritten = [] ∧ s.size ≤ 0
  · refine Or.inr ?_
    rw [if_pos hend]
    refine ⟨rfl, rfl, ?_⟩
    have hpos := h.pos
    have hsize := h.size
    have hall : s.pos = u.contents.length := by omega
    rw [hend.1, List.append_nil, hall, List.take_length] at hbytes
    exact hbytes
  · refine Or.inl ?_
    rw [if_neg hend, if_neg hresult]
    refine ⟨rfl, ⟨h.pos, h.size, h.original, h.start, hbytes, h.file, ?_⟩, rfl, rfl⟩
    by_cases hempty : s.sendBuffer.drop numWritten = []
    · refine Or.inl (h.file.mpr ?_)
      have hsize := h.size
      have hleft : ¬ s.size ≤ 0 := fun hle => hend ⟨hempty, hle⟩
      omega
    · exact Or.inr hempty

theorem write_cases (h : Sending u s) (hsized : u.Sized) {now : Int} (hnow : now + 1 ≠ u.start)
    (result : FileSend) :
    nutFileWrite u.speed now result s = ({ s with unavailable := some (now + 1) }, 0) ∨
      nutFileWrite u.speed now result s = writeSome now result s := by
  have hsmall := hsized.size
  have hpos := h.pos
  unfold nutFileWrite
  rw [h.start, throttles_eq (by rw [h.size, h.original]; omega) hsized.speed hnow]
  by_cases hfast : (s.originalSize - s.size).tdiv (now - u.start + 1) > u.speed * 128
  · rw [decide_eq_true hfast]
    exact Or.inl rfl
  · rw [decide_eq_false hfast]
    exact Or.inr rfl

theorem uploadStep_kept (h : UploadKept u s) (hsized : u.Sized) (event : UploadEvent)
    (hmeets : MeetsUpload u s event) : UploadKept u (uploadStep u s event) := by
  cases hclosed : s.closed with
  | true =>
    have hstep : uploadStep u s event = s := if_pos hclosed
    rw [hstep]
    exact h
  | false =>
    have hsending := h.opened hclosed
    have hopen : ¬ s.closed = true := by rw [hclosed]; exact Bool.false_ne_true
    have hkept : ∀ t : UploadSock, Sending u t → t.fault = s.fault → t.closed = s.closed →
        UploadKept u (.done (t, 0)) := by
      intro t ht hfault htclosed
      refine ⟨hfault.trans h.fault, fun _ => ht, fun hc => ?_⟩
      exact absurd (htclosed.symm.trans hc) hopen
    unfold uploadStep
    rw [if_neg hopen]
    cases event with
    | change content =>
      exact ⟨h.fault, fun _ => ⟨hsending.pos, hsending.size, hsending.original, hsending.start,
        hsending.bytes, hsending.file, hsending.goes⟩, fun hc => absurd hc hopen⟩
    | read result =>
      dsimp only
      by_cases hfile : s.file = true
      · rw [if_pos hfile]
        obtain ⟨hret, hnext, hfault, hsame⟩ :=
          read_sending hsending hsized hfile result (hmeets hclosed hfile)
        have heq : nutFileRead u.sendBufferSize result s =
            ((nutFileRead u.sendBufferSize result s).1, 0) := Prod.ext rfl hret
        rw [heq]
        exact hkept _ hnext hfault hsame
      · rw [if_neg hfile]
        exact h
    | write now result =>
      dsimp only
      by_cases hwritable : s.Writable now
      · obtain ⟨hnow, hresult⟩ := hmeets hclosed hwritable
        rw [if_pos hwritable]
        rcases write_cases hsending hsized hnow result with heq | heq
        · rw [heq]
          exact hkept _ ⟨hsending.pos, hsending.size, hsending.original, hsending.start,
            hsending.bytes, hsending.file, hsending.goes⟩ rfl rfl
        · rw [heq]
          rcases write_sending hsending now hresult with
            ⟨hret, hnext, hfault, hsame⟩ | ⟨hret, hfault, hsent⟩
          · have heq' : writeSome now result s = ((writeSome now result s).1, 0) :=
              Prod.ext rfl hret
            rw [heq']
            exact hkept _ hnext hfault hsame
          · have heq' : writeSome now result s = ((writeSome now result s).1, -1) :=
              Prod.ext rfl hret
            rw [heq']
            exact ⟨hfault.trans h.fault, (fun hc => nomatch hc), fun _ => hsent⟩
      · rw [if_neg hwritable]
        exact h

/-! ## Runs -/

theorem initUpload_sending (hsized : u.Sized) : Sending u (nutInitUpload u) where
  pos := Nat.zero_le _
  size := by
    unfold nutInitUpload
    dsimp only
    rw [intOf_eq hsized.size]
    omega
  original := by
    unfold nutInitUpload
    dsimp only
    rw [intOf_eq hsized.size]
  start := rfl
  bytes := by
    change u.sent ++ u.left = uploadHeader u.buffer u.contents.length ++ u.contents.take 0
    rw [u.header, List.take_zero, List.append_nil]
  file := iff_of_true rfl (List.length_pos_iff.mpr u.nonempty)
  goes := Or.inl rfl

theorem initUpload_kept (hsized : u.Sized) : UploadKept u (nutInitUpload u) where
  fault := rfl
  opened _ := initUpload_sending hsized
  ended hclosed := absurd hclosed Bool.false_ne_true

theorem kept_uploads (hsized : u.Sized) (h : UploadKept u s) : Uploads u s where
  order := by
    rw [answer_eq hsized]
    cases hclosed : s.closed with
    | true => rw [h.ended hclosed]
    | false =>
      have hread : uploadHeader u.buffer u.contents.length ++ u.contents.take s.pos <+:
          uploadHeader u.buffer u.contents.length ++ u.contents :=
        (List.prefix_append_right_inj _).mpr (List.take_prefix _ _)
      rw [← (h.opened hclosed).bytes] at hread
      exact (List.prefix_append _ _).trans hread
  ends hclosed := by
    rw [answer_eq hsized, announced_eq hsized]
    exact ⟨h.ended hclosed, Int.natCast_nonneg _⟩
  goes hclosed := (h.opened hclosed).goes
  arithmetic := h.fault

/-- An upload is right in all states of a run whose steps meet the condition, and the writer goes on
in the end just for speeds that are not negative and an `int` in bits. -/
theorem uploads_right (u : UploadSetup) :
    (u.Sized → ∀ events : List UploadEvent,
      (∀ pre event, pre ++ [event] <+: events → MeetsUpload u (uploadRun u pre) event) →
        ∀ pre, pre <+: events → Uploads u (uploadRun u pre)) ∧
    (Relaxes u.speed ↔ 0 ≤ u.speed ∧ u.speed < 2 ^ 21) := by
  refine ⟨fun hsized events hmeets pre hpre => kept_uploads hsized ?_, relaxes_iff u.speed⟩
  exact forall_prefix_of_step (uploadStep u) (UploadKept u) (MeetsUpload u)
    (initUpload_kept hsized)
    (fun pre event _ hkept hstep => uploadStep_kept hkept hsized event hstep) hmeets pre hpre

/-- A file whose header has been sent. -/
def smallUpload (contents : List UInt8) (nonempty : contents ≠ []) (speed : Int) : UploadSetup :=
  let buffer : Socket.PrintBuffer := ⟨List.replicate 2048 0, List.length_replicate⟩
  ⟨contents, nonempty, buffer, 0, speed, 8192, uploadHeader buffer contents.length, [],
    List.append_nil _⟩

def oneByteUpload : UploadSetup := smallUpload [1] (by decide) 28

def sixByteUpload : UploadSetup := smallUpload [1, 2, 3, 4, 5, 6] (by decide) 0

/-- The first write comes too early, and the writer pauses; the next one finds no room. -/
def pausedEvents : List UploadEvent :=
  [.read (.data 2), .write 0 (.sent 3), .read (.data 2), .write 6 .unavailable, .write 6 (.sent 3),
    .write 7 (.sent 2), .write 8 (.sent 9)]

theorem uploads_right_paused :
    let s := uploadRun sixByteUpload pausedEvents
    s.closed = true ∧ s.sent = sixByteUpload.answer := by
  have hmeets : ∀ n < pausedEvents.length, ∀ event ∈ pausedEvents[n]?,
      MeetsUpload sixByteUpload (uploadRun sixByteUpload (pausedEvents.take n)) event := by
    decide +kernel
  have huploads := (uploads_right sixByteUpload).1 ⟨by decide, by decide⟩ pausedEvents
    (forall_steps fun n event hget =>
      hmeets n (List.getElem?_eq_some_iff.mp hget).1 event hget) _ (List.prefix_refl _)
  have hclosed : (uploadRun sixByteUpload pausedEvents).closed = true := by decide +kernel
  exact ⟨hclosed, (huploads.ends hclosed).1⟩

/-- No call fails. -/
def UploadEvent.Works : UploadEvent → Prop
  | .change _ => True
  | .read result => result ≠ .error
  | .write _ result => result ≠ .error

theorem read_behind {s : UploadSock} (hbuffer : s.sendBuffer = []) (hcontent : s.content = [1, 2])
    (hpos : s.pos = 0) (hsize : s.size = 1) :
    nutFileRead 8192 (.data 1) s =
      ({ s with sendBuffer := [1, 2], pos := 2, size := -1, file := false }, 0) := by
  unfold nutFileRead FileRead.bytes
  rw [hbuffer, hcontent, hpos, hsize]
  rfl

theorem write_behind {s : UploadSock} (hbuffer : s.sendBuffer = [1, 2]) (hsize : s.size = -1)
    (horiginal : s.originalSize = 1) (hstart : s.start = 0) :
    (nutFileWrite 28 0 (.sent 2) s).1.sent = s.sent ++ [1, 2] := by
  unfold nutFileWrite writeSome
  rw [hbuffer, hsize, horiginal, hstart]
  rfl

theorem done_sent (called : UploadSock × Int) : (UploadSock.done called).sent = called.1.sent := by
  unfold UploadSock.done
  split_ifs <;> rfl

theorem uploadStep_write {u : UploadSetup} {s : UploadSock} {now : Int} (hopen : s.closed = false)
    (hwritable : s.Writable now) (result : FileSend) :
    uploadStep u s (.write now result) = .done (nutFileWrite u.speed now result s) := by
  unfold uploadStep
  rw [if_neg (by rw [hopen]; exact Bool.false_ne_true)]
  exact if_pos hwritable

theorem grown_sent {u : UploadSetup} {s : UploadSock} (h : Sending u s) (hpos : s.pos = 0)
    (hsize : s.size = 1) (horiginal : s.originalSize = 1) (hstart : s.start = 0)
    (hbuffer : s.sendBuffer = []) (hunavailable : s.unavailable = none) (hopen : s.closed = false)
    (hspeed : u.speed = 28) (hroom : u.sendBufferSize = 8192) :
    ([.change [1, 2], .read (.data 1), .write 0 (.sent 2)].foldl (uploadStep u) s).sent =
      s.sent ++ [1, 2] := by
  let grown : UploadSock := { s with content := [1, 2] }
  let behind : UploadSock :=
    { grown with sendBuffer := [1, 2], pos := 2, size := -1, file := false }
  have hfile : s.file = true := h.goes.resolve_right (fun hne => hne hbuffer)
  have hchange : uploadStep u s (.change [1, 2]) = grown := by simp [uploadStep, hopen, grown]
  have hread : uploadStep u grown (.read (.data 1)) = behind := by
    have hstep : uploadStep u grown (.read (.data 1)) =
        .done (nutFileRead u.sendBufferSize (.data 1) grown) := by
      simp [uploadStep, hopen, hfile, grown]
    rw [hstep, hroom, read_behind (s := grown) hbuffer rfl hpos hsize]
    rfl
  have hwritable : behind.Writable 0 := by
    simp [UploadSock.Writable, behind, grown, hunavailable]
  simp only [List.foldl_cons, List.foldl_nil, hchange, hread]
  rw [uploadStep_write (s := behind) hopen hwritable, done_sent, hspeed]
  exact write_behind rfl rfl horiginal hstart

/-- A file of one byte has got a second one before it is read. -/
theorem grownFile_not_uploads :
    ¬ ∀ (u : UploadSetup) (events : List UploadEvent), u.Sized → (∀ event ∈ events, event.Works) →
      Uploads u (uploadRun u events) := by
  intro hall
  have hworks : ∀ event ∈ [UploadEvent.change [1, 2], .read (.data 1), .write 0 (.sent 2)],
      event.Works := by simp [UploadEvent.Works]
  have hsized : oneByteUpload.Sized := ⟨by decide, by decide⟩
  have hlength := (hall oneByteUpload _ hsized hworks).order.length_le
  have hsending := initUpload_sending hsized
  have hsent : (nutInitUpload oneByteUpload).sent = uploadHeader oneByteUpload.buffer 1 := rfl
  have hcontents : oneByteUpload.contents = [1] := rfl
  unfold uploadRun at hlength
  rw [grown_sent hsending rfl hsending.size hsending.original rfl rfl rfl rfl rfl rfl,
    answer_eq hsized, hsent, hcontents, List.length_append,
    List.length_append] at hlength
  exact absurd hlength (by simp)

end Serveez.Nut
