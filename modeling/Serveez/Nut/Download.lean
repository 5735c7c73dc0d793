import Serveez.Lib.ByteText
import Serveez.Lib.Runs
import Serveez.Nut.Route

/-!
# Downloads

A host answers the request for a file with a HTTP header and the file behind it.
`nut_check_transfer` waits for the end of the header and takes the size of the file from it;
from then on `nut_save_transfer` writes what arrives to the file, until nothing of the size is
left. When the connection ends, `nut_disconnect_transfer` removes a file of which a part is
missing.

* `nutCheckTransfer_header`, `nutCheckTransfer_part`: a header is recognised when its last byte is
  there, and not before.
* `download_saved_iff`: the file is the announced one in every state of a download exactly if
  every read and every write meets `KeepsUp`.
-/

namespace Serveez.Nut

open Lib

/-! ## The header -/

/-- `HTTP 200 OK` and the end of the line -/
def nutGetOk : List UInt8 := [72, 84, 84, 80, 32, 50, 48, 48, 32, 79, 75, 13, 10]

def nutSeparator : List UInt8 := [13, 10, 13, 10]

/-- `Content-length` -/
def nutLength : List UInt8 :=
  [67, 111, 110, 116, 101, 110, 116, 45, 108, 101, 110, 103, 116, 104]

/-- What is left of the text and of the name when they are compared. Both are advanced at the
first difference, too. -/
def compareName : List UInt8 → List UInt8 → List UInt8 × List UInt8
  | [], p => ([], p)
  | c :: h, [] => (c :: h, [])
  | c :: h, d :: p => if toLower c = toLower d then compareName h p else (h, p)

/-- The value behind the name of a property. -/
def propertyValue (h : List UInt8) : Option (List UInt8) :=
  match h.dropWhile (· = 32) with
  | [] => none
  | c :: h =>
    if h = [] ∨ c ≠ 58 then none
    else
      let h := h.dropWhile (· = 32)
      let value := h.takeWhile (fun c => c ≠ 13 ∧ c ≠ 10)
      if value.length = h.length ∨ value = [] then none else some value

/-- `nut_parse_property` -/
def nutParseProperty (property : List UInt8) : List UInt8 → Option (List UInt8)
  | [] => none
  | c :: h =>
    if toLower c ≠ toLower (property.headD 0) then nutParseProperty property h
    else
      match compareName (c :: h) property with
      | ([], _) => none
      | (_, _ :: _) => nutParseProperty property h
      | (rest, []) => propertyValue rest

/-- The first place of the separator. -/
def separatorAt : List UInt8 → Option Nat
  | [] => none
  | c :: h =>
    if nutSeparator.isPrefixOf (c :: h) then some 0 else (separatorAt h).map (· + 1)

def isDigit (c : UInt8) : Bool := 48 ≤ c && c ≤ 57

/-- `svz_atoi`, with the sums of an `unsigned int`. -/
def svzAtoi (str : List UInt8) : Nat :=
  (str.takeWhile isDigit).foldl (fun i c => (i * 10 + (c.toNat - 48)) % 2 ^ 32) 0

/-! ## The connection -/

inductive CheckTransfer
  | nutCheckTransfer
  | nutSaveTransfer

/-- The connection of a download with its `nut_transfer_t`, the bytes of the answer that have not
been read yet, and the file on the disk. The size in the query hit is only compared for a
message in the log. -/
structure Download where
  recvBufferSize : Nat
  recvBuffer : List UInt8
  unread : List UInt8
  checkRequest : CheckTransfer
  hdr : Bool
  size : Int
  file : List UInt8
  closed : Bool

def svzSockReduceRecv (sock : Download) (len : Nat) : Download :=
  { sock with recvBuffer := sock.recvBuffer.drop len }

/-- `nut_save_transfer`; `written` is what the write takes at most, or `none` if it fails. -/
def nutSaveTransfer (written : Option Nat) (sock : Download) : Download × Int :=
  let fill := sock.recvBuffer.length
  if 0 < fill then
    match written with
    | none => (sock, -1)
    | some n =>
      let numWritten := min n fill
      let sock := { sock with file := sock.file ++ sock.recvBuffer.take numWritten }
      let sock := svzSockReduceRecv sock numWritten
      let sock := { sock with size := sock.size - numWritten }
      if sock.size ≤ 0 then (sock, -1) else (sock, 0)
  else (sock, 0)

def nutCheckTransfer (sock : Download) : Download × Int :=
  if nutGetOk.isPrefixOf sock.recvBuffer then
    match separatorAt sock.recvBuffer with
    | none => (sock, 0)
    | some p =>
      match nutParseProperty nutLength (sock.recvBuffer.take (p + 1)) with
      | none => (sock, -1)
      | some length =>
        let sock := { sock with hdr := true, size := wrapInt (svzAtoi length) }
        let sock := { sock with checkRequest := .nutSaveTransfer }
        (svzSockReduceRecv sock (p + 4), 0)
  else (sock, 0)

/-- One read: the bytes that are there at most, and the outcome of a write. -/
structure Read where
  count : Nat
  written : Option Nat

/-- The bytes that a read gets. -/
def Download.arriving (sock : Download) (read : Read) : List UInt8 :=
  sock.unread.take (min read.count (sock.recvBufferSize - sock.recvBuffer.length))

def checkRequest (written : Option Nat) (sock : Download) : Download × Int :=
  match sock.checkRequest with
  | .nutCheckTransfer => nutCheckTransfer sock
  | .nutSaveTransfer => nutSaveTransfer written sock

/-- `svz_tcp_read_socket`, which is called when there is something to read. -/
def svzTcpReadSocket (sock : Download) (read : Read) : Download × Int :=
  if sock.recvBufferSize ≤ sock.recvBuffer.length then (sock, -1)
  else
    let bytes := sock.arriving read
    if bytes = [] then (sock, 0)
    else checkRequest read.written
      { sock with
        recvBuffer := sock.recvBuffer ++ bytes, unread := sock.unread.drop bytes.length }

/-- A connection whose callback fails is closed. -/
def receiveDownload (sock : Download) (read : Read) : Download :=
  if sock.closed ∨ sock.unread = [] then sock
  else
    let done := svzTcpReadSocket sock read
    if done.2 ≠ 0 then { done.1 with closed := true } else done.1

/-- The file that `nut_disconnect_transfer` leaves. -/
def nutDisconnectTransfer (sock : Download) : Option (List UInt8) :=
  if 0 < sock.size ∨ sock.hdr = false then none else some sock.file

/-- A new connection, to which `answer` will be sent. -/
def startDownload (recvBufferSize : Nat) (answer : List UInt8) : Download where
  recvBufferSize := recvBufferSize
  recvBuffer := []
  unread := answer
  checkRequest := .nutCheckTransfer
  hdr := false
  size := 0
  file := []
  closed := false

/-! ## Recognising the header -/

/-- A header that `nut_check_transfer` accepts, with the value of its `Content-length`. -/
structure IsHeader (header length : List UInt8) : Prop where
  ok : nutGetOk <+: header
  ends : separatorAt header = some (header.length - 4)
  property : nutParseProperty nutLength (header.take (header.length - 4 + 1)) = some length

/-- The number that the digits of a value stand for. -/
def contentLength (length : List UInt8) : Nat :=
  (length.takeWhile isDigit).foldl (fun i c => i * 10 + (c.toNat - 48)) 0

theorem svzAtoi_eq (length : List UInt8) : svzAtoi length = contentLength length % 2 ^ 32 :=
  Lib.foldl_mod (2 ^ 32) (fun c : UInt8 => c.toNat - 48) (length.takeWhile isDigit) 0

theorem isDigit_iff {c : UInt8} : isDigit c = true ↔ IsDigitByte c := by
  unfold isDigit IsDigitByte
  simp

/-- `svz_atoi` stops where the number ends. -/
theorem svzAtoi_decimalBytes {n : Nat} (hn : n < 2 ^ 32) {rest : List UInt8}
    (hrest : ∀ c ∈ rest.head?, ¬ IsDigitByte c) : svzAtoi (decimalBytes n ++ rest) = n := by
  have hdigits : ∀ c ∈ decimalBytes n, isDigit c = true := fun c hc =>
    isDigit_iff.mpr (isDigitByte_of_mem hc)
  have hstop : rest.takeWhile isDigit = [] := by
    cases rest with
    | nil => rfl
    | cons c rest =>
      have hc : isDigit c = false := by
        rw [Bool.eq_false_iff]
        exact fun h => hrest c (by simp) (isDigit_iff.mp h)
      rw [List.takeWhile_cons, hc]
      simp
  have htake : (decimalBytes n ++ rest).takeWhile isDigit = decimalBytes n := by
    rw [List.takeWhile_append_of_pos hdigits, hstop, List.append_nil]
  rw [svzAtoi_eq, contentLength, htake]
  exact (congrArg (· % 2 ^ 32) (readDigits_decimalBytes n)).trans (Nat.mod_eq_of_lt hn)

theorem wrapInt_svzAtoi (length : List UInt8) :
    wrapInt (svzAtoi length) = wrapInt (contentLength length) := by
  rw [svzAtoi_eq]
  unfold wrapInt
  rw [Int.bmod_def, Int.bmod_def]
  omega

theorem wrapInt_le (n : Nat) : wrapInt n ≤ n := by
  unfold wrapInt
  rw [Int.bmod_def]
  omega

theorem separatorAt_bound {l : List UInt8} {p : Nat} (h : separatorAt l = some p) :
    p + 4 ≤ l.length := by
  induction l generalizing p with
  | nil => cases h
  | cons c l ih =>
    rw [separatorAt] at h
    split at h
    · next hsep =>
      have hlen := (List.isPrefixOf_iff_prefix.mp hsep).length_le
      obtain rfl := Option.some.inj h
      exact hlen
    · obtain ⟨q, hq, rfl⟩ := Option.map_eq_some_iff.mp h
      have hbound := ih hq
      rw [List.length_cons]
      omega

theorem separatorAt_append {l : List UInt8} {p : Nat} (h : separatorAt l = some p)
    (t : List UInt8) : separatorAt (l ++ t) = some p := by
  induction l generalizing p with
  | nil => cases h
  | cons c l ih =>
    rw [separatorAt] at h
    rw [List.cons_append, separatorAt]
    split at h
    · next hsep =>
      have hsep' : nutSeparator.isPrefixOf (c :: (l ++ t)) = true := by
        rw [List.isPrefixOf_iff_prefix] at hsep ⊢
        exact hsep.trans (List.prefix_append (c :: l) t)
      rw [if_pos hsep', h]
    · next hsep =>
      obtain ⟨q, hq, rfl⟩ := Option.map_eq_some_iff.mp h
      have hlen := separatorAt_bound hq
      have hsep' : ¬ nutSeparator.isPrefixOf (c :: (l ++ t)) = true := by
        rw [List.isPrefixOf_iff_prefix] at hsep ⊢
        intro hpre
        have hfour : nutSeparator.length ≤ (c :: l).length := by
          rw [List.length_cons]
          show 4 ≤ l.length + 1
          omega
        exact hsep (List.prefix_of_prefix_length_le hpre (List.prefix_append (c :: l) t) hfour)
      rw [if_neg hsep', ih hq]
      rfl

/-- Without its last byte there is no separator yet. -/
theorem separatorAt_take {l : List UInt8} {p n : Nat} (h : separatorAt l = some p)
    (hn : n < p + 4) : separatorAt (l.take n) = none := by
  cases hshort : separatorAt (l.take n) with
  | none => rfl
  | some q =>
    have hbound := separatorAt_bound hshort
    have hlong := separatorAt_append hshort (l.drop n)
    rw [List.take_append_drop, h] at hlong
    obtain rfl := Option.some.inj hlong
    rw [List.length_take] at hbound
    omega

theorem IsHeader.length {header length : List UInt8} (h : IsHeader header length) :
    4 ≤ header.length := by
  have hbound := separatorAt_bound h.ends
  omega

variable {sock : Download} {size : Nat} {read : Read}

theorem nutCheckTransfer_header {header length rest : List UInt8} (h : IsHeader header length)
    (hbuffer : sock.recvBuffer = header ++ rest) :
    nutCheckTransfer sock =
      ({ sock with
        hdr := true, size := wrapInt (contentLength length), checkRequest := .nutSaveTransfer,
        recvBuffer := rest }, 0) := by
  have hlen := h.length
  have hok : nutGetOk.isPrefixOf sock.recvBuffer = true := by
    rw [hbuffer, List.isPrefixOf_iff_prefix]
    exact h.ok.trans (List.prefix_append header rest)
  have hends : separatorAt sock.recvBuffer = some (header.length - 4) := by
    rw [hbuffer]
    exact separatorAt_append h.ends rest
  have hproperty : nutParseProperty nutLength (sock.recvBuffer.take (header.length - 4 + 1)) =
      some length := by
    rw [hbuffer, List.take_append_of_le_length (by omega)]
    exact h.property
  have hrest : sock.recvBuffer.drop (header.length - 4 + 4) = rest := by
    rw [hbuffer, Nat.sub_add_cancel hlen, List.drop_left]
  unfold nutCheckTransfer
  rw [if_pos hok, hends]
  dsimp only
  rw [hproperty]
  dsimp only [svzSockReduceRecv]
  rw [hrest, wrapInt_svzAtoi]

theorem nutCheckTransfer_part {header length : List UInt8} (h : IsHeader header length) {n : Nat}
    (hn : n < header.length) (hbuffer : sock.recvBuffer = header.take n) :
    nutCheckTransfer sock = (sock, 0) := by
  have hlen := h.length
  have hends : separatorAt sock.recvBuffer = none := by
    rw [hbuffer]
    exact separatorAt_take h.ends (by omega)
  unfold nutCheckTransfer
  rw [hends]
  split <;> rfl

/-! ## Runs -/

section Answer

variable {recvBufferSize : Nat} {header body length : List UInt8}

/-- The bytes read so far of an answer. -/
def Download.received (answer : List UInt8) (sock : Download) : Nat :=
  answer.length - sock.unread.length

/-- What a download owes to an answer that announces `size` bytes: it does not end before they
have been received, and when they have been it has ended with a file of just these. -/
def Saved (header body : List UInt8) (size : Nat) (sock : Download) : Prop :=
  if sock.received (header ++ body) < header.length + size then sock.closed = false
  else sock.closed = true ∧ nutDisconnectTransfer sock = some (body.take size)

/-- What a read has to meet that finds the connection open. The buffer must not be full. The last
byte announced must come after the read that completes the header. No write may fail; when the
last byte announced comes, the write must take all that is missing of the file and nothing of what
follows it; before, the file must stay below the number that the size is stored as. -/
def KeepsUp (header body : List UInt8) (size : Nat) (sock : Download) (read : Read) : Prop :=
  sock.closed = false → sock.unread ≠ [] →
    sock.recvBuffer.length < sock.recvBufferSize ∧
      (sock.arriving read ≠ [] →
        let received := sock.received (header ++ body) + (sock.arriving read).length
        if sock.hdr = false then received < header.length + size
        else
          ∃ n, read.written = some n ∧
            let saved := sock.file.length +
              min n (sock.recvBuffer.length + (sock.arriving read).length)
            if received < header.length + size then (saved : Int) < wrapInt size
            else saved = size)

/-- An open connection before the end of the header. -/
structure Listening (header body : List UInt8) (sock : Download) : Prop where
  callback : sock.checkRequest = .nutCheckTransfer
  hdr : sock.hdr = false
  size : sock.size = 0
  file : sock.file = []
  stream : sock.recvBuffer ++ sock.unread = header ++ body
  short : sock.recvBuffer.length < header.length

/-- An open connection behind the header. -/
structure Saving (body : List UInt8) (size : Nat) (sock : Download) : Prop where
  callback : sock.checkRequest = .nutSaveTransfer
  hdr : sock.hdr = true
  left : sock.size = wrapInt size - sock.file.length
  stream : sock.file ++ (sock.recvBuffer ++ sock.unread) = body
  below : sock.file = [] ∨ (sock.file.length : Int) < wrapInt size

def Running (header body : List UInt8) (size : Nat) (sock : Download) : Prop :=
  sock.closed = false → Listening header body sock ∨ Saving body size sock

theorem startDownload_running (size : Nat) (hheader : IsHeader header length) :
    Running header body size (startDownload recvBufferSize (header ++ body)) := by
  have hlen := hheader.length
  exact fun _ => Or.inl ⟨rfl, rfl, rfl, rfl, rfl, show 0 < header.length by omega⟩

theorem startDownload_saved (size : Nat) (hheader : IsHeader header length) :
    Saved header body size (startDownload recvBufferSize (header ++ body)) := by
  have hlen := hheader.length
  unfold Saved
  rw [if_pos]
  · rfl
  · show (header ++ body).length - (header ++ body).length < header.length + size
    omega

theorem Saving.received (h : Saving body size sock) :
    sock.received (header ++ body) =
      header.length + sock.file.length + sock.recvBuffer.length := by
  unfold Download.received
  rw [← h.stream]
  simp only [List.length_append]
  omega

/-- The bytes that a read gets are moved to the buffer. -/
def Download.moved (sock : Download) (read : Read) : Download :=
  { sock with
    recvBuffer := sock.recvBuffer ++ sock.arriving read
    unread := sock.unread.drop (sock.arriving read).length }

theorem arriving_append (sock : Download) (read : Read) :
    sock.arriving read ++ sock.unread.drop (sock.arriving read).length = sock.unread := by
  unfold Download.arriving
  generalize min read.count _ = n
  rw [List.length_take]
  rcases Nat.le_total n sock.unread.length with hn | hn
  · rw [Nat.min_eq_left hn, List.take_append_drop]
  · rw [Nat.min_eq_right hn, List.take_of_length_le hn, List.drop_length, List.append_nil]

theorem moved_received {answer : List UInt8} (read : Read)
    (h : sock.unread.length ≤ answer.length) :
    (sock.moved read).received answer = sock.received answer + (sock.arriving read).length := by
  have hsplit := congrArg List.length (arriving_append sock read)
  rw [List.length_append] at hsplit
  unfold Download.received Download.moved
  dsimp only
  omega

/-! ### One read -/

/-- What a read does that finds the connection open and bytes there. -/
theorem receive_cases (read : Read) (hopen : sock.closed = false) (hunread : sock.unread ≠ []) :
    (sock.recvBufferSize ≤ sock.recvBuffer.length ∧
        receiveDownload sock read = { sock with closed := true }) ∨
      (sock.recvBuffer.length < sock.recvBufferSize ∧ sock.arriving read = [] ∧
        receiveDownload sock read = sock) ∨
      (sock.recvBuffer.length < sock.recvBufferSize ∧ sock.arriving read ≠ [] ∧
        receiveDownload sock read =
          let done := checkRequest read.written (sock.moved read)
          if done.2 ≠ 0 then { done.1 with closed := true } else done.1) := by
  have hrun : ¬ (sock.closed = true ∨ sock.unread = []) := by
    rw [hopen]
    exact fun h => h.elim nofun hunread
  unfold receiveDownload svzTcpReadSocket
  rw [if_neg hrun]
  by_cases hfull : sock.recvBufferSize ≤ sock.recvBuffer.length
  · refine Or.inl ⟨hfull, ?_⟩
    rw [if_pos hfull]
    rfl
  · refine Or.inr ?_
    rw [if_neg hfull]
    by_cases hbytes : sock.arriving read = []
    · refine Or.inl ⟨by omega, hbytes, ?_⟩
      simp [hbytes]
    · refine Or.inr ⟨by omega, hbytes, ?_⟩
      simp only [if_neg hbytes]
      rfl

theorem saved_open (hopen : sock.closed = false) :
    Saved header body size sock ↔ sock.received (header ++ body) < header.length + size := by
  unfold Saved
  split
  · next hless => exact ⟨fun _ => hless, fun _ => hopen⟩
  · next hmore =>
    constructor
    · intro h
      rw [hopen] at h
      exact absurd h.1 Bool.false_ne_true
    · exact fun hless => absurd hless hmore

theorem saved_closed (hclosed : sock.closed = true) :
    Saved header body size sock ↔ ¬ sock.received (header ++ body) < header.length + size ∧
      nutDisconnectTransfer sock = some (body.take size) := by
  unfold Saved
  split
  · next hless =>
    constructor
    · intro h
      rw [hclosed] at h
      exact absurd h.symm Bool.false_ne_true
    · exact fun h => absurd hless h.1
  · next hmore => exact ⟨fun h => ⟨hmore, h.2⟩, fun h => ⟨hclosed, h.2⟩⟩

/-- A read before the end of the header leaves the connection open, also when it brings the end
of the header and more. -/
theorem Listening.checked {size : List UInt8} (h : Listening header body sock)
    (hheader : IsHeader header size) :
    ∃ sock', (checkRequest read.written (sock.moved read)) = (sock', 0) ∧
      sock'.closed = sock.closed ∧ sock'.unread = (sock.moved read).unread ∧
      (Listening header body sock' ∨ Saving body (contentLength size) sock') := by
  have hstream : (sock.moved read).recvBuffer ++ (sock.moved read).unread = header ++ body := by
    show sock.recvBuffer ++ sock.arriving read ++ sock.unread.drop _ = header ++ body
    rw [List.append_assoc, arriving_append, h.stream]
  have hcheck :
      checkRequest read.written (sock.moved read) = nutCheckTransfer (sock.moved read) := by
    unfold checkRequest
    rw [show (sock.moved read).checkRequest = .nutCheckTransfer from h.callback]
  rw [hcheck]
  by_cases hshort : (sock.moved read).recvBuffer.length < header.length
  · have hpart : (sock.moved read).recvBuffer =
        header.take (sock.moved read).recvBuffer.length := by
      have htake := congrArg (List.take (sock.moved read).recvBuffer.length) hstream
      rwa [List.take_left, List.take_append_of_le_length (Nat.le_of_lt hshort)] at htake
    exact ⟨_, nutCheckTransfer_part hheader hshort hpart, rfl, rfl,
      Or.inl ⟨h.callback, h.hdr, h.size, h.file, hstream, hshort⟩⟩
  · obtain ⟨rest, hrest⟩ : ∃ rest, (sock.moved read).recvBuffer = header ++ rest := by
      have hpre : header <+: (sock.moved read).recvBuffer := by
        apply List.prefix_of_prefix_length_le (List.prefix_append header body)
        · rw [← hstream]
          exact List.prefix_append _ _
        · omega
      obtain ⟨rest, hrest⟩ := hpre
      exact ⟨rest, hrest.symm⟩
    refine ⟨_, nutCheckTransfer_header hheader hrest, rfl, rfl, Or.inr ⟨rfl, rfl, ?_, ?_, ?_⟩⟩
    · have hfile : (sock.moved read).file = [] := h.file
      dsimp only
      rw [hfile, List.length_nil]
      omega
    · show sock.file ++ (rest ++ (sock.moved read).unread) = body
      rw [hrest, List.append_assoc] at hstream
      rw [h.file, List.nil_append]
      exact List.append_cancel_left hstream
    · exact Or.inl h.file

/-- A write that takes `k` bytes of the buffer. -/
def Download.wrote (sock : Download) (k : Nat) : Download :=
  { sock with
    file := sock.file ++ sock.recvBuffer.take k
    recvBuffer := sock.recvBuffer.drop k
    size := sock.size - k }

theorem Saving.checkRequest (h : Saving body size sock) (hbytes : sock.arriving read ≠ []) :
    checkRequest read.written (sock.moved read) =
      match read.written with
      | none => (sock.moved read, -1)
      | some n =>
        let k := min n (sock.recvBuffer.length + (sock.arriving read).length)
        if ((sock.moved read).wrote k).size ≤ 0 then ((sock.moved read).wrote k, -1)
        else ((sock.moved read).wrote k, 0) := by
  have hfill : 0 < (sock.moved read).recvBuffer.length := by
    show 0 < (sock.recvBuffer ++ sock.arriving read).length
    have hpos := List.length_pos_iff.mpr hbytes
    rw [List.length_append]
    omega
  have hsum : (sock.moved read).recvBuffer.length =
      sock.recvBuffer.length + (sock.arriving read).length := List.length_append
  unfold Nut.checkRequest
  rw [show (sock.moved read).checkRequest = .nutSaveTransfer from h.callback]
  dsimp only
  unfold nutSaveTransfer
  rw [if_pos hfill, hsum]
  cases read.written with
  | none => rfl
  | some n => rfl

theorem Saving.wrote {size k : Nat} (h : Saving body size sock) (read : Read)
    (hk : k ≤ sock.recvBuffer.length + (sock.arriving read).length) :
    ((sock.moved read).wrote k).file = body.take (sock.file.length + k) ∧
      ((sock.moved read).wrote k).file.length = sock.file.length + k ∧
      ((sock.moved read).wrote k).size = wrapInt size - (sock.file.length + k : Nat) ∧
      ((sock.moved read).wrote k).file ++ (((sock.moved read).wrote k).recvBuffer ++
        ((sock.moved read).wrote k).unread) = body := by
  have hstream : sock.file ++ ((sock.moved read).recvBuffer ++ (sock.moved read).unread) =
      body := by
    show sock.file ++ (sock.recvBuffer ++ sock.arriving read ++ sock.unread.drop _) = body
    rw [List.append_assoc sock.recvBuffer, arriving_append, h.stream]
  have hsum : (sock.moved read).recvBuffer.length =
      sock.recvBuffer.length + (sock.arriving read).length := List.length_append
  have hlen : (sock.file ++ (sock.moved read).recvBuffer.take k).length =
      sock.file.length + k := by
    rw [List.length_append, List.length_take, hsum, Nat.min_eq_left hk]
  have hbody : (sock.file ++ (sock.moved read).recvBuffer.take k) ++
      ((sock.moved read).recvBuffer.drop k ++ (sock.moved read).unread) = body := by
    rw [List.append_assoc, ← List.append_assoc (List.take k _), List.take_append_drop, hstream]
  refine ⟨?_, hlen, ?_, hbody⟩
  · show sock.file ++ (sock.moved read).recvBuffer.take k = body.take (sock.file.length + k)
    rw [← hlen, ← hbody, List.take_left]
  · show sock.size - (k : Int) = wrapInt size - (sock.file.length + k : Nat)
    rw [h.left]
    push_cast
    omega

theorem keepsUp_idle (hidle : sock.closed = true ∨ sock.unread = []) :
    KeepsUp header body size sock read := by
  intro hopen hunread
  rcases hidle with hclosed | hempty
  · rw [hopen] at hclosed
    exact absurd hclosed Bool.false_ne_true
  · exact absurd hempty hunread

/-- What the condition says of a read that gets something. -/
theorem keepsUp_arriving (hopen : sock.closed = false) (hunread : sock.unread ≠ [])
    (hroom : sock.recvBuffer.length < sock.recvBufferSize) (hbytes : sock.arriving read ≠ []) :
    KeepsUp header body size sock read ↔
      let received := sock.received (header ++ body) + (sock.arriving read).length
      if sock.hdr = false then received < header.length + size
      else
        ∃ n, read.written = some n ∧
          let saved := sock.file.length +
            min n (sock.recvBuffer.length + (sock.arriving read).length)
          if received < header.length + size then (saved : Int) < wrapInt size
          else saved = size :=
  ⟨fun h => (h hopen hunread).2 hbytes, fun h _ _ => ⟨hroom, fun _ => h⟩⟩

theorem Listening.step (h : Listening header body sock) (hheader : IsHeader header length)
    (hopen : sock.closed = false) (hunread : sock.unread ≠ [])
    (hroom : sock.recvBuffer.length < sock.recvBufferSize) (hbytes : sock.arriving read ≠ [])
    (hreceive : receiveDownload sock read =
      let done := checkRequest read.written (sock.moved read)
      if done.2 ≠ 0 then { done.1 with closed := true } else done.1) :
    (Saved header body (contentLength length) (receiveDownload sock read) ↔
        KeepsUp header body (contentLength length) sock read) ∧
      Running header body (contentLength length) (receiveDownload sock read) := by
  obtain ⟨sock', hcheck, hclosed', hunread', hphase⟩ := h.checked hheader
  have hnext : receiveDownload sock read = sock' := by
    rw [hreceive, hcheck]
    rfl
  have hle : sock.unread.length ≤ (header ++ body).length := by
    rw [← h.stream, List.length_append]
    omega
  have hreceived : sock'.received (header ++ body) =
      sock.received (header ++ body) + (sock.arriving read).length := by
    rw [← moved_received read hle]
    unfold Download.received
    rw [hunread']
  rw [hnext]
  refine ⟨?_, fun _ => hphase⟩
  rw [saved_open (hclosed'.trans hopen), hreceived, keepsUp_arriving hopen hunread hroom hbytes]
  dsimp only
  rw [if_pos h.hdr]

/-- The bytes announced have not come yet, so without a write the file is not the one wanted. -/
theorem Saving.incomplete {sock sock' : Download} (h : Saving body size sock)
    (hbody : size ≤ body.length)
    (hbefore : header.length + sock.file.length + sock.recvBuffer.length < header.length + size)
    (hsize : sock'.size = sock.size) (hfile : sock'.file = sock.file) :
    nutDisconnectTransfer sock' ≠ some (body.take size) := by
  unfold nutDisconnectTransfer
  rw [hsize, hfile, h.left]
  split
  · exact nofun
  · next hkept =>
    rcases h.below with hempty | hbelow
    · rw [hempty]
      intro heq
      have hlen := congrArg List.length (Option.some.inj heq)
      rw [List.length_take, List.length_nil, Nat.min_eq_left hbody] at hlen
      omega
    · exact absurd (Or.inl (by omega)) hkept

theorem Saving.step (h : Saving body size sock) (hbody : size ≤ body.length)
    (hopen : sock.closed = false) (hsaved : Saved header body size sock)
    (hunread : sock.unread ≠ []) (hroom : sock.recvBuffer.length < sock.recvBufferSize)
    (hbytes : sock.arriving read ≠ []) (hreceive : receiveDownload sock read =
      let done := Nut.checkRequest read.written (sock.moved read)
      if done.2 ≠ 0 then { done.1 with closed := true } else done.1) :
    (Saved header body size (receiveDownload sock read) ↔ KeepsUp header body size sock read) ∧
      Running header body size (receiveDownload sock read) := by
  have hbefore := (saved_open hopen).mp hsaved
  rw [h.received] at hbefore
  have hle : sock.unread.length ≤ (header ++ body).length := by
    rw [← h.stream]
    simp only [List.length_append]
    omega
  have hreceived := moved_received read hle
  have hhdr : ¬ sock.hdr = false := by
    rw [h.hdr]
    exact Bool.noConfusion
  have hcheck := h.checkRequest hbytes
  rw [keepsUp_arriving hopen hunread hroom hbytes, ← hreceived]
  dsimp only
  rw [if_neg hhdr]
  cases hwritten : read.written with
  | none =>
    rw [hwritten] at hreceive hcheck
    rw [hreceive, hcheck]
    refine ⟨⟨fun hgood => ?_, fun ⟨n, hn, _⟩ => nomatch hn⟩, fun hopen' => nomatch hopen'⟩
    exact absurd ((saved_closed rfl).mp hgood).2 (h.incomplete hbody hbefore rfl rfl)
  | some n =>
    obtain ⟨hfile, hlen, hsize, hstream⟩ := h.wrote read
      (Nat.min_le_right n (sock.recvBuffer.length + (sock.arriving read).length))
    rw [hwritten] at hreceive hcheck
    dsimp only at hcheck
    generalize hk : min n (sock.recvBuffer.length + (sock.arriving read).length) = k at *
    have hwrote : ∀ P : Nat → Prop,
        (∃ n', some n = some n' ∧ P (sock.file.length +
          min n' (sock.recvBuffer.length + (sock.arriving read).length))) ↔
        P (sock.file.length + k) := by
      intro P
      constructor
      · rintro ⟨n', hn', hP⟩
        obtain rfl := Option.some.inj hn'
        rwa [hk] at hP
      · intro hP
        exact ⟨n, rfl, by rwa [hk]⟩
    rw [hwrote (fun saved => if (sock.moved read).received (header ++ body) < header.length + size
      then (saved : Int) < wrapInt size else saved = size)]
    have hmax := wrapInt_le size
    have hfits : sock.file.length + k ≤ body.length := by
      rw [← hlen, ← hstream, List.length_append]
      omega
    by_cases hdone : ((sock.moved read).wrote k).size ≤ 0
    · have hnext : receiveDownload sock read =
          { (sock.moved read).wrote k with closed := true } := by
        rw [hreceive, hcheck, if_pos hdone]
        rfl
      have hover : wrapInt size ≤ (sock.file.length + k : Nat) := by
        rw [hsize] at hdone
        exact Int.le_of_sub_nonpos hdone
      rw [hnext]
      refine ⟨?_, fun hopen' => nomatch hopen'⟩
      have hkept : nutDisconnectTransfer { (sock.moved read).wrote k with closed := true } =
          some (body.take (sock.file.length + k)) := by
        rw [← hfile]
        apply if_neg
        rintro (hpos | hmissing)
        · exact absurd hpos (Int.not_lt.mpr hdone)
        · exact hhdr hmissing
      rw [saved_closed rfl, hkept, Option.some_inj]
      show (¬ (sock.moved read).received (header ++ body) < header.length + size ∧ _) ↔ _
      split
      · next hless =>
        exact ⟨fun hgood => absurd hless hgood.1,
          fun hkeeps => absurd hkeeps (Int.not_lt.mpr hover)⟩
      · next hmore =>
        constructor
        · rintro ⟨-, htake⟩
          have heq := congrArg List.length htake
          rwa [List.length_take, List.length_take, Nat.min_eq_left hfits,
            Nat.min_eq_left hbody] at heq
        · exact fun heq => ⟨hmore, by rw [heq]⟩
    · have hnext : receiveDownload sock read = (sock.moved read).wrote k := by
        rw [hreceive, hcheck, if_neg hdone]
        rfl
      rw [hnext]
      have hbelow : ((sock.file.length + k : Nat) : Int) < wrapInt size := by
        rw [hsize, Int.not_le] at hdone
        exact Int.lt_of_sub_pos hdone
      refine ⟨?_, fun _ => Or.inr ⟨h.callback, h.hdr, ?_, hstream, Or.inr ?_⟩⟩
      · have hopen' : ((sock.moved read).wrote k).closed = false := hopen
        rw [saved_open hopen']
        show (sock.moved read).received (header ++ body) < header.length + size ↔ _
        split
        · next hless => exact ⟨fun _ => hbelow, fun _ => hless⟩
        · next hmore =>
          refine ⟨fun hless => absurd hless hmore, fun heq => ?_⟩
          rw [heq] at hbelow
          exact absurd hbelow (Int.not_lt.mpr (wrapInt_le size))
      · rw [hsize, hlen]
      · rw [hlen]
        exact hbelow

/-- One read keeps the promise exactly if it keeps up. -/
theorem receive_step (hheader : IsHeader header length)
    (hbody : contentLength length ≤ body.length)
    (hrunning : Running header body (contentLength length) sock)
    (hsaved : Saved header body (contentLength length) sock) (read : Read) :
    (Saved header body (contentLength length) (receiveDownload sock read) ↔
        KeepsUp header body (contentLength length) sock read) ∧
      Running header body (contentLength length) (receiveDownload sock read) := by
  by_cases hidle : sock.closed = true ∨ sock.unread = []
  · have hsame : receiveDownload sock read = sock := if_pos hidle
    rw [hsame]
    exact ⟨⟨fun _ => keepsUp_idle hidle, fun _ => hsaved⟩, hrunning⟩
  obtain ⟨hopen, hunread⟩ := not_or.mp hidle
  rw [Bool.not_eq_true] at hopen
  rcases receive_cases read hopen hunread with
    ⟨hfull, hnext⟩ | ⟨hroom, hnone, hnext⟩ | ⟨hroom, hbytes, hnext⟩
  · rw [hnext]
    refine ⟨⟨fun hgood => ?_, fun hkeeps => ?_⟩, fun hopen' => nomatch hopen'⟩
    · exact absurd ((saved_open hopen).mp hsaved) ((saved_closed rfl).mp hgood).1
    · exact absurd (hkeeps hopen hunread).1 (Nat.not_lt.mpr hfull)
  · rw [hnext]
    exact ⟨⟨fun _ _ _ => ⟨hroom, fun hsome => absurd hnone hsome⟩, fun _ => hsaved⟩, hrunning⟩
  · rcases hrunning hopen with hlistening | hsaving
    · exact hlistening.step hheader hopen hunread hroom hbytes hnext
    · exact hsaving.step hbody hopen hsaved hunread hroom hbytes hnext

/-- The file of a download is the announced one, in every state of every run, exactly if all reads
and writes keep up. -/
theorem download_saved_iff (recvBufferSize : Nat) (header body length : List UInt8)
    (hheader : IsHeader header length) (hbody : contentLength length ≤ body.length)
    (reads : List Read) :
    (∀ pre, pre <+: reads → Saved header body (contentLength length)
        (pre.foldl receiveDownload (startDownload recvBufferSize (header ++ body)))) ↔
      ∀ pre read, pre ++ [read] <+: reads → KeepsUp header body (contentLength length)
        (pre.foldl receiveDownload (startDownload recvBufferSize (header ++ body))) read := by
  apply forall_prefix_iff_of_aux receiveDownload (Running header body (contentLength length)) _ _
    (startDownload_running _ hheader) (startDownload_saved _ hheader)
  · intro pre read _ hrunning hsaved hnext
    exact (receive_step hheader hbody hrunning hsaved read).1.mp hnext
  · intro pre read _ hrunning hsaved hkeeps
    have hstep := receive_step hheader hbody hrunning hsaved read
    exact ⟨hstep.2, hstep.1.mpr hkeeps⟩

end Answer

/-! ## A file of one byte -/

/-- `HTTP 200 OK` with `Content-length: 1` -/
def oneByteHeader : List UInt8 :=
  nutGetOk ++ nutLength ++ [58, 32, 49] ++ nutSeparator

theorem oneByteHeader_isHeader : IsHeader oneByteHeader [49] where
  ok := ⟨nutLength ++ [58, 32, 49] ++ nutSeparator, rfl⟩
  ends := by decide
  property := by decide

/-- When the byte comes after the header, every state of the download is right if and only if all
reads keep up. -/
theorem download_oneByte :
    (∀ pre, pre <+: [Read.mk 34 none, Read.mk 1 (some 1)] →
        Saved oneByteHeader [97] (contentLength [49])
          (pre.foldl receiveDownload (startDownload 100 (oneByteHeader ++ [97])))) ↔
      ∀ pre read, pre ++ [read] <+: [Read.mk 34 none, Read.mk 1 (some 1)] →
        KeepsUp oneByteHeader [97] (contentLength [49])
          (pre.foldl receiveDownload (startDownload 100 (oneByteHeader ++ [97]))) read :=
  download_saved_iff 100 oneByteHeader [97] [49] oneByteHeader_isHeader (by decide) _

/-- The byte comes with the header: it stays in the buffer and the download does not end. -/
theorem download_oneByte_not_saved :
    ¬ Saved oneByteHeader [97] (contentLength [49])
      ([Read.mk 35 (some 1)].foldl receiveDownload
        (startDownload 100 (oneByteHeader ++ [97]))) := by
  have hclosed : ([Read.mk 35 (some 1)].foldl receiveDownload
      (startDownload 100 (oneByteHeader ++ [97]))).closed = false := by decide
  rw [saved_open hclosed]
  decide

end Serveez.Nut
