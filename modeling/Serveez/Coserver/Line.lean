import Serveez.Lib.Cut
import Serveez.Lib.Decimal

/-!
# The lines between the server and its coservers

A request and its response are lines, a decimal id and a text with a colon between them. The
id is printed by `send_request`, read by `get_id`, printed again by `put_id` and read again by
`handle_request`. A text is the list of its characters without the terminator.

* `getId_line`, `parseResponse_line`: the two ends read what has been printed.
* `fgets_line`, `nextLine_line`: a line that fits the buffer is taken off a stream whole.
-/

namespace Serveez.Coserver

open Lib

abbrev Text := List Char

def packetBoundary : Char := '\n'

def idBoundary : Char := ':'

/-- `COSERVER_BUFSIZE` -/
def bufSize : Nat := 256

def unsignedSize : Nat := 2 ^ 32

/-- `svz_itoa`, whose buffer has room for 31 digits. `printf` prints the same with `%u`. -/
def svzItoa (i : Nat) : Text := printLoop 31 i []

/-- The format `%u:%s\n`. -/
def line (id : Nat) (text : Text) : Text :=
  svzItoa id ++ idBoundary :: (text ++ [packetBoundary])

/-! ## The coserver process -/

/-- The length of the line at the start of a stream, boundary included. -/
def lineLength (stream : Text) : Nat := (stream.takeWhile (· ≠ packetBoundary)).length + 1

/-- `fgets` into a buffer of the given size. It blocks while there is neither a line nor
enough for the buffer. -/
def fgets (size : Nat) (stream : Text) : Option (Text × Text) :=
  let n := min (lineLength stream) (size - 1)
  if n ≤ stream.length then some (stream.take n, stream.drop n) else none

def scanDigits : Nat → Text → Nat × Text
  | id, [] => (id, [])
  | id, c :: p => if IsDigit c then scanDigits (accumulate unsignedSize id c) p else (id, c :: p)

/-- The id of a request, zero if there is none, and the text that is left. The copy loop ends
at the packet boundary only; without one it leaves the buffer. -/
def getId (request : Text) : Option (Nat × Text) :=
  match scanDigits 0 request with
  | (_, []) => some (0, request)
  | (id, c :: p) =>
    if c ≠ idBoundary then some (0, request)
    else if packetBoundary ∈ p then some (id, p.takeWhile (· ≠ packetBoundary))
    else none

/-- `put_id`: `snprintf` leaves room for the terminator. -/
def putId (id : Nat) (response : Text) : Text := (line id response).take (bufSize - 1)

/-- `COSERVER_REQUEST` and the output of the result. A callback without a result stands for
an empty one. -/
def coserverRequest (callback : Text → Option Text) (request : Text) : Option Text :=
  (getId request).map fun (id, text) =>
    if id = 0 then [] else putId id ((callback text).getD [])

/-! ## The server process -/

/-- The first response that `check_request` finds in the receive buffer. -/
def nextLine (buffer : Text) : Option (Text × Text) :=
  let n := lineLength buffer
  if n ≤ buffer.length then some (buffer.take n, buffer.drop n) else none

/-- The loop of `handle_request` for the id. -/
def scanId : Nat → Text → Option (Nat × Text)
  | _, [] => none
  | id, c :: p =>
    if c = idBoundary then some (id, p)
    else if IsDigit c then scanId (accumulate unsignedSize id c) p
    else none

/-- What a callback is given: an empty result is passed as none. -/
def shown (text : Text) : Option Text := if text = [] then none else some text

/-- The id and the result in a response, unless `handle_request` rejects it. -/
def parseResponse (request : Text) : Option (Nat × Option Text) :=
  (scanId 0 request).bind fun (id, data) =>
    if packetBoundary ∈ data then some (id, shown (data.takeWhile (· ≠ packetBoundary)))
    else none

/-! ## Numbers -/

variable {id : Nat} {text : Text}

theorem unsigned_lt_pow (hid : id < unsignedSize) : id < 10 ^ 31 :=
  Nat.lt_of_lt_of_le hid (by decide)

theorem isDigit_of_mem_itoa {c : Char} (hc : c ∈ svzItoa id) : IsDigit c := by
  have hnil : ∀ d ∈ ([] : Text), IsDigit d := by simp
  exact isDigit_of_mem_printLoop hnil c hc

theorem svzItoa_injective {id id' : Nat} (hid : id < unsignedSize) (hid' : id' < unsignedSize)
    (h : svzItoa id = svzItoa id') : id = id' :=
  printLoop_injective hid hid' (unsigned_lt_pow hid) (unsigned_lt_pow hid') (by decide) h

theorem foldl_itoa (hid : id < unsignedSize) :
    (svzItoa id).foldl (accumulate unsignedSize) 0 = id :=
  foldl_accumulate_printLoop hid (unsigned_lt_pow hid) (by decide)

theorem not_isDigit_idBoundary : ¬ IsDigit idBoundary := by
  decide

theorem not_isDigit_packetBoundary : ¬ IsDigit packetBoundary := by
  decide

theorem scanDigits_append {digits p : Text} {c : Char} (id : Nat)
    (hdigits : ∀ d ∈ digits, IsDigit d) (hc : ¬ IsDigit c) :
    scanDigits id (digits ++ c :: p) =
      (digits.foldl (accumulate unsignedSize) id, c :: p) := by
  induction digits generalizing id with
  | nil => rw [List.nil_append, scanDigits, if_neg hc, List.foldl_nil]
  | cons d digits ih =>
    rw [List.cons_append, scanDigits, if_pos (hdigits d List.mem_cons_self), List.foldl_cons]
    exact ih _ fun e he => hdigits e (List.mem_cons_of_mem d he)

theorem scanId_append {digits p : Text} (id : Nat) (hdigits : ∀ d ∈ digits, IsDigit d) :
    scanId id (digits ++ idBoundary :: p) =
      some (digits.foldl (accumulate unsignedSize) id, p) := by
  induction digits generalizing id with
  | nil => rw [List.nil_append, scanId, if_pos rfl, List.foldl_nil]
  | cons d digits ih =>
    have hd := hdigits d List.mem_cons_self
    have hne : d ≠ idBoundary := fun he => not_isDigit_idBoundary (he ▸ hd)
    rw [List.cons_append, scanId, if_neg hne, if_pos hd, List.foldl_cons]
    exact ih _ fun e he => hdigits e (List.mem_cons_of_mem d he)

/-! ## Lines -/

theorem line_eq (id : Nat) (text : Text) :
    line id text = (svzItoa id ++ idBoundary :: text) ++ [packetBoundary] := by
  rw [line, List.append_assoc, List.cons_append]

theorem boundary_notMem_body (h : packetBoundary ∉ text) :
    packetBoundary ∉ svzItoa id ++ idBoundary :: text := by
  intro hmem
  rcases List.mem_append.mp hmem with hd | hmem
  · exact not_isDigit_packetBoundary (isDigit_of_mem_itoa hd)
  · rcases List.mem_cons.mp hmem with he | ht
    · exact absurd he (by decide)
    · exact h ht

theorem lineLength_line (h : packetBoundary ∉ text) (rest : Text) :
    lineLength (line id text ++ rest) = (line id text).length := by
  rw [line_eq, List.append_assoc, List.singleton_append, lineLength,
    takeWhile_ne_cut (boundary_notMem_body h)]
  simp only [List.length_append, List.length_cons, List.length_nil]

theorem nextLine_line (h : packetBoundary ∉ text) (rest : Text) :
    nextLine (line id text ++ rest) = some (line id text, rest) := by
  rw [nextLine, lineLength_line h]
  simp

theorem lineLength_append {buffer : Text} (h : lineLength buffer ≤ buffer.length) (more : Text) :
    lineLength (buffer ++ more) = lineLength buffer := by
  have hne : ¬ (buffer.takeWhile (· ≠ packetBoundary)).length = buffer.length := by
    unfold lineLength at h
    omega
  rw [lineLength, List.takeWhile_append, if_neg hne, lineLength]

/-- What arrives behind a line does not change it. -/
theorem nextLine_append {buffer request rest : Text} (h : nextLine buffer = some (request, rest))
    (more : Text) : nextLine (buffer ++ more) = some (request, rest ++ more) := by
  unfold nextLine at h
  dsimp only at h
  split at h
  · rename_i hle
    cases h
    rw [nextLine, lineLength_append hle, if_pos (by simp; omega),
      List.take_append_of_le_length hle, List.drop_append_of_le_length hle]
  · cases h

/-- There is no line, and not enough for the buffer. -/
theorem fgets_eq_none {size : Nat} {stream : Text} (h : packetBoundary ∉ stream)
    (hshort : stream.length < size - 1) : fgets size stream = none := by
  have hall : stream.takeWhile (· ≠ packetBoundary) = stream := by
    rw [← List.append_nil stream, List.takeWhile_append_of_pos, List.takeWhile_nil]
    exact fun c hc => decide_eq_true fun he => h (he ▸ hc)
  rw [fgets, lineLength, hall, if_neg (by omega)]

theorem fgets_line {size id : Nat} (h : packetBoundary ∉ text)
    (hfits : (line id text).length ≤ size - 1) (rest : Text) :
    fgets size (line id text ++ rest) = some (line id text, rest) := by
  rw [fgets, lineLength_line h, Nat.min_eq_left hfits]
  simp

theorem getId_line (hid : id < unsignedSize) (h : packetBoundary ∉ text) :
    getId (line id text) = some (id, text) := by
  have hscan : scanDigits 0 (line id text) = (id, idBoundary :: (text ++ [packetBoundary])) := by
    rw [line, scanDigits_append 0 (fun d hd => isDigit_of_mem_itoa hd) not_isDigit_idBoundary,
      foldl_itoa hid]
  rw [getId, hscan]
  dsimp only
  rw [if_neg (fun hne => hne rfl), if_pos (by simp), takeWhile_ne_cut h]

theorem parseResponse_line (hid : id < unsignedSize) (h : packetBoundary ∉ text) :
    parseResponse (line id text) = some (id, shown text) := by
  have hscan : scanId 0 (line id text) = some (id, text ++ [packetBoundary]) := by
    rw [line, scanId_append 0 (fun d hd => isDigit_of_mem_itoa hd), foldl_itoa hid]
  rw [parseResponse, hscan, Option.bind_some]
  dsimp only
  rw [if_pos (by simp), takeWhile_ne_cut h]

theorem putId_eq_line {response : Text} (hfits : (line id response).length ≤ bufSize - 1) :
    putId id response = line id response :=
  List.take_of_length_le hfits

end Serveez.Coserver
