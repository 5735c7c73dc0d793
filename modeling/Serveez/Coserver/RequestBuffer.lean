import Serveez.Coserver.Line
import Serveez.Lib.Block
import Serveez.Lib.Runs

/-!
# The request buffer of a coserver

A coserver reads its pipe with `fgets` into one buffer, whatever there is. `get_id` moves the
text of a request to the front of this buffer, `put_id` prints the response into the buffer of the
result, and both rely on what stands behind the terminator as long as they do not find what they
look for in the chunk.

* `getsId_iff`: what `get_id` needs to give the id and the text of a chunk just when it has them.
* `putId_ends`: what `put_id` needs to end with the packet boundary.
* `requests_iff`: the same for all chunks of a stream.
-/

namespace Serveez.Coserver.RequestBuffer

open Lib

def nul : Char := '\x00'

/-- An array of `COSERVER_BUFSIZE` bytes. -/
abbrev Buffer : Type := Block Char bufSize

/-- What `fgets` gives: at most one line, which fits the buffer. -/
structure Chunk where
  text : Text
  fits : text.length < bufSize
  oneLine : ∀ front back, text = front ++ packetBoundary :: back → back = []

/-- The result of a callback is in a buffer of its own. -/
structure Result where
  buffer : Buffer
  ends : buffer.Terminated nul

def Result.text (r : Result) : Text := r.buffer.string nul

/-! ## The coserver process -/

theorem oneLine_take (stream : Text) (n : Nat) (front back : Text)
    (h : stream.take (min (lineLength stream) n) = front ++ packetBoundary :: back) :
    back = [] := by
  have htake : (stream.take (min (lineLength stream) n)).length ≤ lineLength stream := by
    rw [List.length_take]
    exact Nat.le_trans (Nat.min_le_left _ _) (Nat.min_le_left _ _)
  obtain ⟨rest, hrest⟩ : front ++ packetBoundary :: back <+: stream := h ▸ List.take_prefix _ _
  have hline : lineLength stream ≤ front.length + 1 := by
    rw [lineLength, ← hrest, List.append_assoc, List.cons_append, List.takeWhile_append]
    split
    · next hall =>
      rw [List.takeWhile_cons_of_neg (by simp), List.append_nil]
    · exact Nat.succ_le_succ (List.takeWhile_prefix _).length_le
  rw [h, List.length_append, List.length_cons] at htake
  exact List.length_eq_zero_iff.mp (by omega)

/-- The next chunk of a stream, the last one without a boundary. -/
def nextChunk (stream : Text) : Chunk where
  text := stream.take (min (lineLength stream) (bufSize - 1))
  fits := by
    rw [List.length_take]
    exact Nat.lt_of_le_of_lt (Nat.le_trans (Nat.min_le_left _ _) (Nat.min_le_right _ _))
      (by decide)
  oneLine := oneLine_take stream _

def chunkLoop : Nat → Text → List Chunk
  | 0, _ => []
  | n + 1, stream =>
    if stream = [] then []
    else nextChunk stream :: chunkLoop n (stream.drop (nextChunk stream).text.length)

/-- The chunks that a stream comes in. -/
def chunks (stream : Text) : List Chunk := chunkLoop stream.length stream

/-- `fgets` puts a chunk into the buffer. -/
def fill (request : Buffer) (chunk : Chunk) : Buffer := request.write nul chunk.text chunk.fits

/-- The copy loop of `get_id`, with the place behind the id boundary. -/
def copyLoop (request : Buffer) (p : Nat) : Option Buffer :=
  match h : moveDown packetBoundary nul bufSize 0 p request.cells with
  | none => none
  | some cells => some ⟨cells, (moveDown_length h).trans request.size⟩

/-- `get_id`, without a result if an access leaves the buffer. -/
def getId (request : Buffer) : Option (Nat × Buffer) :=
  match scanDigits 0 request.cells with
  | (_, []) => none
  | (id, c :: p) =>
    if c ≠ idBoundary then some (0, request)
    else (copyLoop request (bufSize - p.length)).map fun request => (id, request)

/-- `put_id`, if the response fits. -/
def putId (id : Nat) (response : Buffer) : Option Buffer :=
  response.strcpy nul ((line id (response.string nul)).take (bufSize - 1))

/-- `*result = '\0'` -/
def clear (request : Buffer) : Buffer := request.write nul [] (by decide)

/-- What a coserver did with a chunk. -/
structure Turn where
  chunk : Chunk
  id : Nat
  request : Buffer
  response : Option Text

structure Loop where
  request : Buffer
  turns : List Turn

/-- `COSERVER_REQUEST` with the id that was read. -/
def answer (result : Option Result) (id : Nat) (request : Buffer) : Option (Buffer × Text) :=
  match result with
  | some result => (putId id result.buffer).map fun response => (request, response.string nul)
  | none => (putId id (clear request)).map fun response => (response, response.string nul)

/-- One round of `big_loop`. The callback may answer differently in each round. -/
def loopStep (callback : Nat → Text → Option Result) (s : Loop) (chunk : Chunk) : Option Loop :=
  (getId (fill s.request chunk)).bind fun r =>
    if r.1 = 0 then some ⟨r.2, s.turns ++ [⟨chunk, r.1, r.2, none⟩]⟩
    else (answer (callback s.turns.length (r.2.string nul)) r.1 r.2).map fun a =>
      ⟨a.1, s.turns ++ [⟨chunk, r.1, r.2, some a.2⟩]⟩

def bigLoop (callback : Nat → Text → Option Result) (request : Buffer) (chunks : List Chunk) :
    Option Loop :=
  chunks.foldl (fun s chunk => s.bind (loopStep callback · chunk)) (some ⟨request, []⟩)

/-! ## What it should do -/

/-- Digits, the id boundary, a text and the packet boundary. -/
structure Form (chunk digits payload : Text) : Prop where
  areDigits : ∀ d ∈ digits, IsDigit d
  notNone : digits ≠ []
  whole : chunk = digits ++ idBoundary :: (payload ++ [packetBoundary])

/-- The id and the text of a chunk that has them, and no id for one that does not. -/
structure Gets (chunk : Text) (id : Nat) (request : Buffer) : Prop where
  form : ∀ digits payload, Form chunk digits payload →
    id = number digits ∧ request.cells.take (payload.length + 1) = payload ++ [nul]
  formless : (¬ ∃ digits payload, Form chunk digits payload) → id = 0

/-- `get_id` stays in the buffer and gives what is in the chunk. -/
def GetsId (chunk : Text) (r : Option (Nat × Buffer)) : Prop :=
  ∃ id request, r = some (id, request) ∧ Gets chunk id request

def EndsPacket (text : Text) : Prop := ∃ front, text = front ++ [packetBoundary]

def Turn.Good (t : Turn) : Prop :=
  Gets t.chunk.text t.id t.request ∧ ∀ text, t.response = some text → EndsPacket text

/-- No access left a buffer, and all rounds were good. -/
def Served (s : Option Loop) : Prop := ∃ r, s = some r ∧ ∀ t ∈ r.turns, t.Good

/-- A chunk that begins with digits and the id boundary either goes on to the packet boundary and
has an id that fits, or there is an old boundary behind it and the id is taken for none. -/
def Closed (request : Buffer) (chunk : Text) : Prop :=
  ∀ digits rest, (∀ d ∈ digits, IsDigit d) → chunk = digits ++ idBoundary :: rest →
    if packetBoundary ∈ rest then number digits < unsignedSize
    else packetBoundary ∈ request.cells.drop (chunk.length + 1) ∧
      number digits % unsignedSize = 0

/-- The text of a result leaves room for the id and both boundaries, or is cut at a boundary of
its own. -/
def Fits (id : Nat) (text : Text) : Prop :=
  (line id text).length < bufSize ∨
    text[bufSize - 3 - (svzItoa id).length]? = some packetBoundary

/-- The text of a result, empty if there is none. -/
def resultText (result : Option Result) : Text := (result.map Result.text).getD []

/-- The result for a chunk that has an id fits with it. -/
def FitsResult (callback : Text → Option Result) (chunk : Text) : Prop :=
  ∀ digits payload, Form chunk digits payload → number digits ≠ 0 →
    Fits (number digits) (resultText (callback (stringOf nul payload)))

/-! ## Reading the id -/

variable {request : Buffer} {chunk : Chunk} {digits rest : Text}

theorem fill_cells (request : Buffer) (chunk : Chunk) :
    (fill request chunk).cells =
      chunk.text ++ nul :: request.cells.drop (chunk.text.length + 1) := rfl

theorem copyLoop_stop {gap text back : Text} (hgap : gap ≠ []) (hstop : packetBoundary ∉ text)
    (hcells : request.cells = gap ++ (text ++ packetBoundary :: back)) :
    ∃ r, copyLoop request gap.length = some r ∧
      r.cells.take (text.length + 1) = text ++ [nul] := by
  have hsteps : text.length < bufSize := by
    have hsize := request.size
    rw [hcells, List.length_append, List.length_append, List.length_cons] at hsize
    omega
  have hmove : moveDown packetBoundary nul bufSize 0 gap.length request.cells =
      some (text ++ nul :: request.cells.drop (text.length + 1)) := by
    have hfront := @moveDown_stop _ _ packetBoundary nul _ [] gap text back hgap hstop hsteps
    rwa [List.nil_append, List.length_nil, Nat.zero_add, ← hcells] at hfront
  unfold copyLoop
  split
  · next hnone => exact absurd (hnone.symm.trans hmove) (Option.some_ne_none _).symm
  · next cells hsome =>
    obtain rfl := Option.some.inj (hsome.symm.trans hmove)
    refine ⟨_, rfl, ?_⟩
    dsimp only
    rw [List.take_length_add_append, List.take_succ_cons, List.take_zero]

theorem copyLoop_none {gap text : Text} (hgap : gap ≠ []) (hstop : packetBoundary ∉ text)
    (hcells : request.cells = gap ++ text) : copyLoop request gap.length = none := by
  have hmove : moveDown packetBoundary nul bufSize 0 gap.length request.cells = none := by
    have hfront := @moveDown_none _ _ packetBoundary nul bufSize [] gap text hgap hstop
    rwa [List.nil_append, List.length_nil, Nat.zero_add, ← hcells] at hfront
  unfold copyLoop
  split
  · rfl
  · next cells hsome => exact absurd (hmove.symm.trans hsome) (Option.some_ne_none _).symm

theorem getId_of_boundary (request : Buffer) (hdigits : ∀ d ∈ digits, IsDigit d)
    (hcells : request.cells = digits ++ idBoundary :: rest) :
    getId request = (copyLoop request (digits ++ [idBoundary]).length).map fun r =>
      (number digits % unsignedSize, r) := by
  have hplace : bufSize - rest.length = (digits ++ [idBoundary]).length := by
    rw [← request.size, hcells]
    simp only [List.length_append, List.length_cons, List.length_nil]
    omega
  unfold getId
  rw [hcells, scanDigits_append 0 hdigits not_isDigit_idBoundary]
  dsimp only
  rw [if_neg (fun hne => hne rfl), foldl_accumulate, hplace]

theorem getId_of_open
    (hopen : ¬ ∃ digits rest, (∀ d ∈ digits, IsDigit d) ∧
      chunk.text = digits ++ idBoundary :: rest) :
    getId (fill request chunk) = some (0, fill request chunk) := by
  have hdigits : ∀ d ∈ chunk.text.takeWhile (IsDigit ·), IsDigit d := fun d hd =>
    of_mem_takeWhile hd
  have hsplit := List.takeWhile_append_dropWhile (p := (IsDigit ·)) (l := chunk.text)
  unfold getId
  rw [fill_cells]
  cases hdrop : chunk.text.dropWhile (IsDigit ·) with
  | nil =>
    rw [hdrop, List.append_nil] at hsplit
    rw [← hsplit, scanDigits_append 0 hdigits (by decide)]
    exact if_pos (by decide)
  | cons c p =>
    have hc : ¬ IsDigit c := not_of_dropWhile hdrop
    have hne : c ≠ idBoundary := fun hsame =>
      hopen ⟨_, p, hdigits, by rw [← hsame, ← hdrop, hsplit]⟩
    rw [hdrop] at hsplit
    rw [← hsplit, List.append_assoc, List.cons_append, scanDigits_append 0 hdigits hc]
    exact if_pos hne

theorem digits_unique {digits' rest' : Text} (hdigits : ∀ d ∈ digits, IsDigit d)
    (hdigits' : ∀ d ∈ digits', IsDigit d)
    (h : digits ++ idBoundary :: rest = digits' ++ idBoundary :: rest') :
    digits = digits' ∧ rest = rest' := by
  have hscan := scanDigits_append (p := rest) 0 hdigits not_isDigit_idBoundary
  rw [h, scanDigits_append 0 hdigits' not_isDigit_idBoundary] at hscan
  have hrest : rest = rest' := (List.cons_inj_right _).mp (congrArg Prod.snd hscan).symm
  exact ⟨List.append_cancel_right (hrest ▸ h), hrest⟩

theorem payload_of_mem (hchunk : chunk.text = digits ++ idBoundary :: rest)
    (hmem : packetBoundary ∈ rest) :
    ∃ payload, rest = payload ++ [packetBoundary] ∧ packetBoundary ∉ payload := by
  obtain ⟨payload, back, hrest, hnot⟩ := List.eq_append_cons_of_mem hmem
  have hback : back = [] := by
    refine chunk.oneLine (digits ++ idBoundary :: payload) back ?_
    rw [hchunk, hrest, List.append_assoc, List.cons_append]
  exact ⟨payload, by rw [hrest, hback], hnot⟩

theorem getId_payload (request : Buffer) {payload : Text} (hdigits : ∀ d ∈ digits, IsDigit d)
    (hchunk : chunk.text = digits ++ idBoundary :: (payload ++ [packetBoundary]))
    (hnot : packetBoundary ∉ payload) :
    ∃ r, getId (fill request chunk) = some (number digits % unsignedSize, r) ∧
      r.cells.take (payload.length + 1) = payload ++ [nul] := by
  have hcells : (fill request chunk).cells = (digits ++ [idBoundary]) ++ (payload ++
      packetBoundary :: nul :: request.cells.drop (chunk.text.length + 1)) := by
    rw [fill_cells, hchunk]
    simp
  obtain ⟨r, hcopy, htake⟩ := copyLoop_stop (by simp) hnot hcells
  refine ⟨r, ?_, htake⟩
  rw [getId_of_boundary _ hdigits (by rw [fill_cells, hchunk, List.append_assoc, List.cons_append]),
    hcopy, Option.map_some]

/-- Without a boundary in the chunk it is an old one that stops the copy loop, or none. -/
theorem getId_unclosed (request : Buffer) (hdigits : ∀ d ∈ digits, IsDigit d)
    (hchunk : chunk.text = digits ++ idBoundary :: rest) (hnot : packetBoundary ∉ rest) :
    (packetBoundary ∈ request.cells.drop (chunk.text.length + 1) →
      ∃ r, getId (fill request chunk) = some (number digits % unsignedSize, r)) ∧
    (packetBoundary ∉ request.cells.drop (chunk.text.length + 1) →
      getId (fill request chunk) = none) := by
  have hcells : (fill request chunk).cells = (digits ++ [idBoundary]) ++
      (rest ++ nul :: request.cells.drop (chunk.text.length + 1)) := by
    rw [fill_cells, hchunk]
    simp
  have hget := getId_of_boundary (fill request chunk) hdigits
    (by rw [hcells, List.append_assoc, List.singleton_append])
  have hmid : packetBoundary ∉ rest ++ [nul] := by
    intro hmem
    rcases List.mem_append.mp hmem with hmem | hmem
    · exact hnot hmem
    · exact absurd (List.mem_singleton.mp hmem) (by decide)
  constructor
  · intro hold
    obtain ⟨front, back, hdrop, hfront⟩ := List.eq_append_cons_of_mem hold
    have hstop : packetBoundary ∉ (rest ++ [nul]) ++ front := by
      intro hmem
      exact (List.mem_append.mp hmem).elim hmid hfront
    have hstale : (fill request chunk).cells = (digits ++ [idBoundary]) ++
        (((rest ++ [nul]) ++ front) ++ packetBoundary :: back) := by
      rw [hcells, hdrop, List.append_assoc rest, List.append_assoc rest, List.singleton_append,
        List.cons_append]
    obtain ⟨r, hcopy, -⟩ := copyLoop_stop (by simp) hstop hstale
    exact ⟨r, by rw [hget, hcopy, Option.map_some]⟩
  · intro hnone
    have hstop : packetBoundary ∉ rest ++ nul :: request.cells.drop (chunk.text.length + 1) := by
      rw [List.append_cons]
      intro hmem
      exact (List.mem_append.mp hmem).elim hmid hnone
    rw [hget, copyLoop_none (by simp) hstop hcells, Option.map_none]

theorem getsId_some {text : Text} {id : Nat} :
    GetsId text (some (id, request)) ↔ Gets text id request := by
  constructor
  · rintro ⟨id', request', hsame, h⟩
    obtain ⟨rfl, rfl⟩ := Prod.mk.inj (Option.some.inj hsame)
    exact h
  · exact fun h => ⟨id, request, rfl, h⟩

theorem not_getsId_none {text : Text} : ¬ GetsId text none := by
  rintro ⟨id, request, hnone, -⟩
  exact absurd hnone.symm (Option.some_ne_none _)

/-- `get_id` gives the id and the text of a chunk that is closed, and of no other. -/
theorem getsId_iff (request : Buffer) (chunk : Chunk) :
    GetsId chunk.text (getId (fill request chunk)) ↔ Closed request chunk.text := by
  by_cases hopen : ∃ digits rest, (∀ d ∈ digits, IsDigit d) ∧
      chunk.text = digits ++ idBoundary :: rest
  · constructor
    · intro h digits rest hdigits hchunk
      split
      · next hmem =>
        obtain ⟨payload, rfl, hnot⟩ := payload_of_mem hchunk hmem
        obtain ⟨r, hget, -⟩ := getId_payload request hdigits hchunk hnot
        rw [hget, getsId_some] at h
        by_cases hnil : digits = []
        · rw [hnil]
          decide
        · have hid := (h.form digits payload ⟨hdigits, hnil, hchunk⟩).1
          exact hid ▸ Nat.mod_lt _ (by decide)
      · next hnot =>
        obtain ⟨hold, hnone⟩ := getId_unclosed request hdigits hchunk hnot
        have hstale : packetBoundary ∈ request.cells.drop (chunk.text.length + 1) := by
          by_contra hstale
          exact not_getsId_none (hnone hstale ▸ h)
        obtain ⟨r, hget⟩ := hold hstale
        rw [hget, getsId_some] at h
        refine ⟨hstale, h.formless ?_⟩
        rintro ⟨digits', payload, hform⟩
        obtain ⟨-, hrest⟩ := digits_unique hdigits hform.areDigits (hchunk.symm.trans hform.whole)
        exact hnot (hrest ▸ List.mem_append_right _ List.mem_cons_self)
    · intro hclosed
      obtain ⟨digits, rest, hdigits, hchunk⟩ := hopen
      have hcase := hclosed digits rest hdigits hchunk
      split at hcase
      · next hmem =>
        obtain ⟨payload, rfl, hnot⟩ := payload_of_mem hchunk hmem
        obtain ⟨r, hget, htake⟩ := getId_payload request hdigits hchunk hnot
        rw [hget, getsId_some, Nat.mod_eq_of_lt hcase]
        constructor
        · intro digits' payload' hform
          obtain ⟨rfl, hrest⟩ := digits_unique hdigits hform.areDigits
            (hchunk.symm.trans hform.whole)
          obtain rfl := List.append_cancel_right hrest
          exact ⟨rfl, htake⟩
        · intro hformless
          by_cases hnil : digits = []
          · rw [hnil]
            rfl
          · exact absurd ⟨digits, payload, hdigits, hnil, hchunk⟩ hformless
      · next hnot =>
        obtain ⟨r, hget⟩ := (getId_unclosed request hdigits hchunk hnot).1 hcase.1
        rw [hget, getsId_some]
        constructor
        · intro digits' payload hform
          obtain ⟨-, hrest⟩ := digits_unique hdigits hform.areDigits (hchunk.symm.trans hform.whole)
          exact absurd (hrest ▸ List.mem_append_right _ List.mem_cons_self) hnot
        · exact fun _ => hcase.2
  · rw [getId_of_open hopen, getsId_some]
    refine iff_of_true ⟨fun digits payload hform => ?_, fun _ => rfl⟩ ?_
    · exact absurd ⟨digits, _, hform.areDigits, hform.whole⟩ hopen
    · exact fun digits rest hdigits hchunk => absurd ⟨digits, rest, hdigits, hchunk⟩ hopen

/-! ## Adding the id -/

theorem nul_notMem_line {id : Nat} {text : Text} (h : nul ∉ text) : nul ∉ line id text := by
  intro hmem
  rcases List.mem_append.mp hmem with hdigit | hmem
  · exact absurd (isDigit_of_mem_itoa hdigit) (by decide)
  · rcases List.mem_cons.mp hmem with hcolon | hmem
    · exact absurd hcolon (by decide)
    · rcases List.mem_append.mp hmem with htext | hend
      · exact h htext
      · exact absurd (List.mem_singleton.mp hend) (by decide)

theorem endsPacket_iff (text : Text) :
    EndsPacket text ↔ text[text.length - 1]? = some packetBoundary := by
  rw [← List.getLast?_eq_getElem?, List.getLast?_eq_some_iff]
  rfl

theorem endsPacket_take_iff (id : Nat) (text : Text) :
    EndsPacket ((line id text).take (bufSize - 1)) ↔ Fits id text := by
  by_cases hshort : (line id text).length < bufSize
  · have hwhole : (line id text).take (bufSize - 1) = line id text :=
      List.take_of_length_le (Nat.le_sub_one_of_lt hshort)
    rw [hwhole, line_eq]
    exact iff_of_true ⟨_, rfl⟩ (Or.inl hshort)
  · have hdigits : (svzItoa id).length ≤ 31 := printLoop_length_le 31 id []
    have hlength : (line id text).length = (svzItoa id).length + (text.length + 2) := by
      rw [line]
      simp only [List.length_append, List.length_cons, List.length_nil]
    have hlast : ((line id text).take (bufSize - 1)).length - 1 =
        (svzItoa id).length + (bufSize - 3 - (svzItoa id).length + 1) := by
      rw [List.length_take]
      unfold bufSize at hshort ⊢
      omega
    have hinside : bufSize - 3 - (svzItoa id).length < text.length := by
      unfold bufSize at hshort ⊢
      omega
    have hbelow : (svzItoa id).length + (bufSize - 3 - (svzItoa id).length + 1) <
        bufSize - 1 := by
      unfold bufSize
      omega
    rw [endsPacket_iff, hlast, List.getElem?_take_of_lt hbelow, line,
      List.getElem?_append_right (Nat.le_add_right _ _), Nat.add_sub_cancel_left,
      List.getElem?_cons_succ, List.getElem?_append_left hinside]
    exact (or_iff_right hshort).symm

theorem putId_ends (id : Nat) (response : Buffer) :
    ∃ b, putId id response = some b ∧
      (EndsPacket (b.string nul) ↔ Fits id (response.string nul)) := by
  have hfits : ((line id (response.string nul)).take (bufSize - 1)).length < bufSize := by
    rw [List.length_take]
    exact Nat.lt_of_le_of_lt (Nat.min_le_left _ _) (by decide)
  obtain ⟨b, hb⟩ := Option.isSome_iff_exists.mp (Block.strcpy_isSome.mpr hfits)
  refine ⟨b, hb, ?_⟩
  have hnul : nul ∉ (line id (response.string nul)).take (bufSize - 1) := fun hmem =>
    nul_notMem_line (nul_notMem_stringOf nul response.cells) (List.mem_of_mem_take hmem)
  rw [Block.string_strcpy hnul hb]
  exact endsPacket_take_iff id _

theorem answer_ends (result : Option Result) (id : Nat) (request : Buffer) :
    ∃ a, answer result id request = some a ∧ (EndsPacket a.2 ↔ Fits id (resultText result)) := by
  cases result with
  | some result =>
    obtain ⟨b, hb, hends⟩ := putId_ends id result.buffer
    exact ⟨_, by rw [answer, hb, Option.map_some], hends⟩
  | none =>
    obtain ⟨b, hb, hends⟩ := putId_ends id (clear request)
    have hclear : (clear request).string nul = [] := Block.string_write List.not_mem_nil _
    rw [hclear] at hends
    exact ⟨_, by rw [answer, hb, Option.map_some], hends⟩

/-! ## All rounds -/

variable {callback : Nat → Text → Option Result} {s : Loop}

/-- A round has a result as soon as `get_id` has one. -/
theorem loopStep_spec {id : Nat} {request : Buffer}
    (hget : getId (fill s.request chunk) = some (id, request)) :
    ∃ r response, loopStep callback s chunk = some r ∧
      r.turns = s.turns ++ [⟨chunk, id, request, response⟩] ∧
      ((∀ text, response = some text → EndsPacket text) ↔
        (id ≠ 0 → Fits id (resultText (callback s.turns.length (request.string nul))))) := by
  unfold loopStep
  rw [hget, Option.bind_some]
  dsimp only
  by_cases hid : id = 0
  · refine ⟨_, none, if_pos hid, rfl, iff_of_true ?_ (fun hne => absurd hid hne)⟩
    exact fun text hnone => absurd hnone.symm (Option.some_ne_none text)
  · obtain ⟨a, ha, hends⟩ :=
      answer_ends (callback s.turns.length (request.string nul)) id request
    rw [if_neg hid, ha, Option.map_some]
    refine ⟨_, some a.2, rfl, rfl, ?_⟩
    constructor
    · exact fun hall _ => hends.mp (hall a.2 rfl)
    · rintro hfits text ⟨⟩
      exact hends.mpr (hfits hid)

/-- The id of a good round is not zero just if the chunk has one. -/
theorem fits_iff_fitsResult {callback : Text → Option Result} {text : Text} {id : Nat}
    (h : Gets text id request) :
    (id ≠ 0 → Fits id (resultText (callback (request.string nul)))) ↔
      FitsResult callback text := by
  have hpayload : ∀ payload, request.cells.take (payload.length + 1) = payload ++ [nul] →
      request.string nul = stringOf nul payload := by
    intro payload htake
    unfold Block.string
    rw [← List.take_append_drop (payload.length + 1) request.cells, htake, List.append_assoc,
      List.singleton_append, stringOf_append_nul]
  constructor
  · intro hfits digits payload hform hne
    obtain ⟨hid, htake⟩ := h.form digits payload hform
    rw [← hpayload payload htake, ← hid]
    exact hfits (hid ▸ hne)
  · intro hfits hne
    by_cases hform : ∃ digits payload, Form text digits payload
    · obtain ⟨digits, payload, hform⟩ := hform
      obtain ⟨hid, htake⟩ := h.form digits payload hform
      rw [hpayload payload htake, hid]
      exact hfits digits payload hform (hid ▸ hne)
    · exact absurd (h.formless hform) hne

theorem served_step (hgood : ∀ t ∈ s.turns, t.Good) :
    Served (loopStep callback s chunk) ↔
      Closed s.request chunk.text ∧ FitsResult (callback s.turns.length) chunk.text := by
  rw [← getsId_iff]
  cases hget : getId (fill s.request chunk) with
  | none =>
    refine iff_of_false ?_ (fun h => not_getsId_none h.1)
    rintro ⟨r, hr, -⟩
    rw [loopStep, hget, Option.bind_none] at hr
    exact absurd hr.symm (Option.some_ne_none r)
  | some got =>
    obtain ⟨id, request⟩ := got
    obtain ⟨r, response, hr, hturns, hends⟩ := loopStep_spec hget
    have hserved : Served (loopStep callback s chunk) ↔
        Turn.Good ⟨chunk, id, request, response⟩ := by
      rw [hr]
      constructor
      · rintro ⟨r', ⟨⟩, hall⟩
        exact hall _ (hturns ▸ List.mem_append_right _ List.mem_cons_self)
      · intro hlast
        refine ⟨r, rfl, fun t ht => ?_⟩
        rw [hturns] at ht
        rcases List.mem_append.mp ht with hold | hnew
        · exact hgood t hold
        · exact List.mem_singleton.mp hnew ▸ hlast
    rw [hserved, getsId_some]
    exact and_congr_right fun h => hends.trans (fits_iff_fitsResult h)

/-- Every round goes well just when all chunks are closed and all results fit. -/
theorem requests_iff (callback : Nat → Text → Option Result) (request : Buffer) (stream : Text) :
    (∀ pre, pre <+: chunks stream → Served (bigLoop callback request pre)) ↔
      ∀ pre chunk, pre ++ [chunk] <+: chunks stream →
        ∀ s, bigLoop callback request pre = some s →
          Closed s.request chunk.text ∧ FitsResult (callback s.turns.length) chunk.text := by
  apply forall_prefix_iff (fun (s : Option Loop) chunk => s.bind (loopStep callback · chunk)) Served
    (fun s chunk => ∀ t, s = some t →
      Closed t.request chunk.text ∧ FitsResult (callback t.turns.length) chunk.text)
  · exact ⟨_, rfl, fun t ht => absurd ht List.not_mem_nil⟩
  · rintro pre chunk - ⟨s, hs, hgood⟩
    rw [hs, Option.bind_some, served_step hgood]
    constructor
    · rintro h t ⟨⟩
      exact h
    · exact fun h => h s rfl

theorem closed_of_first {callback : Nat → Text → Option Result}
    (h : Served (bigLoop callback request [chunk])) : Closed request chunk.text := by
  have hgood : ∀ t ∈ (Loop.mk request []).turns, t.Good := fun t ht =>
    absurd ht List.not_mem_nil
  have hserved : Served (loopStep callback ⟨request, []⟩ chunk) := h
  exact ((served_step hgood).mp hserved).1

theorem nextChunk_first {stream : Text} (h : stream ≠ []) :
    [nextChunk stream] <+: chunks stream := by
  obtain ⟨n, hn⟩ := Nat.exists_eq_succ_of_ne_zero (List.length_pos_iff.mpr h).ne'
  rw [chunks, hn, chunkLoop, if_neg h]
  exact ⟨_, rfl⟩

/-- A request with a name of 300 characters. -/
def longLine : Text := line 1 (List.replicate 300 'a')

/-- The first chunk of it fills the buffer, and the copy loop leaves it. -/
theorem longLine_not_served :
    ¬ ∀ pre, pre <+: chunks longLine → Served (bigLoop (fun _ _ => none)
      ⟨List.replicate bufSize nul, List.length_replicate⟩ pre) := by
  intro hall
  have hfirst : (nextChunk longLine).text = ['1'] ++ idBoundary :: List.replicate 253 'a' := by
    decide +kernel
  have hserved := hall _ (nextChunk_first (by decide))
  have hone : ∀ c ∈ ['1'], IsDigit c := List.forall_mem_singleton.mpr (by decide)
  have hstale := closed_of_first hserved ['1'] _ hone hfirst
  have hnot : packetBoundary ∉ List.replicate 253 'a' := fun hmem =>
    absurd (List.eq_of_mem_replicate hmem) (by decide)
  rw [if_neg hnot] at hstale
  exact absurd (List.eq_of_mem_replicate (List.mem_of_mem_drop hstale.1)) (by decide)

end Serveez.Coserver.RequestBuffer
