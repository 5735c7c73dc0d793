import Serveez.Http.UriCoding

/-!
# The request line

`http_handle_request` scans the first line of a request forwards to the first space and to the
first carriage return, and backwards from there to the version. It writes a terminator over both
spaces and compares no more of the method than the names of the methods are long.

* `scanTo_found`, `scanBack_found`: where the scans end.
* `handleRequest_real`, `handleRequest_simple`, `handleRequest_cases`: the requests that are
  answered.
* `requestLine_right_iff`: when these are the requests there should be.
* `httpHandleRequest_link`: the links of a directory listing are requests for its files.

A request is the list of its bytes, with a double line end at its end.
-/

namespace Serveez.Http.RequestLine

open Lib

def space : UInt8 := 32
def cr : UInt8 := 13
def crlf : Path := [13, 10]

/-- The request types of `http_request`. -/
inductive Method
  | get
  | head
  | post
  | put
  | options
  | delete
  | trace
  | connect
  deriving DecidableEq

def Method.ident : Method → Path
  | .get => [71, 69, 84]
  | .head => [72, 69, 65, 68]
  | .post => [80, 79, 83, 84]
  | .put => [80, 85, 84]
  | .options => [79, 80, 84, 73, 79, 78, 83]
  | .delete => [68, 69, 76, 69, 84, 69]
  | .trace => [84, 82, 65, 67, 69]
  | .connect => [67, 79, 78, 78, 69, 67, 84]

/-- The order of the table. -/
def httpRequest : List Method :=
  [.get, .head, .post, .put, .options, .delete, .trace, .connect]

/-- What becomes of a request: `simple` is `HTTP_FLAG_SIMPLE`. -/
inductive Outcome
  | rejected
  | dispatched (method : Method) (uri : Path) (simple : Bool)
  /-- `http_default_response` for an unknown method. -/
  | unknown (uri : Path)
  deriving DecidableEq

/-! ## The scans -/

/-- `while (*p != c && p < limit) p++`; it has no result if it reads outside of the request. -/
def scanTo (c : UInt8) (limit : Nat) (bytes : Path) : Nat → Nat → Option Nat
  | 0, _ => none
  | steps + 1, p =>
    match bytes[p]? with
    | none => none
    | some d =>
      if d = c then some p
      else if p < limit then scanTo c limit bytes steps (p + 1)
      else some p

/-- What the scan for the version stops at. -/
def IsSep (c : UInt8) : Prop := c = space ∨ c = 0

instance (c : UInt8) : Decidable (IsSep c) := inferInstanceAs (Decidable (_ ∨ _))

/-- `while (*p != ' ' && *p) p--` -/
def scanBack (bytes : Path) : Nat → Option Nat
  | 0 => bytes[0]?.bind fun c => if IsSep c then some 0 else none
  | p + 1 => bytes[p + 1]?.bind fun c => if IsSep c then some (p + 1) else scanBack bytes p

/-- A copy of some bytes that is read as a string. -/
def cString (bytes : Path) : Path := stringOf 0 bytes

/-- The callback of a request type, or the default response. -/
def dispatch (request uri : Path) (simple : Bool) : Outcome :=
  match httpRequest.find? (·.ident <+: request) with
  | some method => .dispatched method uri simple
  | none => .unknown uri

/-- The version number, and the end of the line behind it: `*p - '0'` of a signed character. -/
def IsVersion (major dot minor : UInt8) : Prop :=
  major = 49 ∧ ¬ (50 ≤ minor ∧ minor < 128) ∧ dot = 46

instance (major dot minor : UInt8) : Decidable (IsVersion major dot minor) :=
  inferInstanceAs (Decidable (_ ∧ _))

/-- `HTTP/` -/
def httpSlash : Path := [72, 84, 84, 80, 47]

/-- A request of version 0.9; `uri` is where its URI begins. -/
def handleSimple (bytes : Path) (request : Path) (uri p : Nat) : Option Outcome :=
  (scanTo cr bytes.length bytes bytes.length p).map fun p =>
    if crlf <+: bytes.drop p then
      dispatch request (decodedUri ((bytes.drop uri).take (p - uri))) true
    else .rejected

/-- A request of version 1, with the space before its version. -/
def handleReal (bytes : Path) (request : Path) (uri p : Nat) : Option Outcome :=
  if p ≤ uri then some .rejected
  else if ¬ httpSlash <+: bytes.drop (p + 1) then some .rejected
  else
    bytes[p + 6]?.bind fun major => bytes[p + 7]?.bind fun dot => bytes[p + 8]?.map fun minor =>
      if IsVersion major dot minor ∧ crlf <+: bytes.drop (p + 9) then
        dispatch request (decodedUri ((bytes.drop uri).take (p - uri))) false
      else .rejected

/-- The request behind the method. -/
def handleLine (bytes : Path) (request : Path) (p : Nat) : Option Outcome :=
  (scanTo cr bytes.length bytes bytes.length p).bind fun n =>
    if n = bytes.length then some .rejected
    else (scanBack bytes n).bind fun n =>
      if Method.get.ident <+: request ∧ ¬ httpSlash <+: bytes.drop (n + 1) then
        handleSimple bytes request (p + 1) n
      else handleReal bytes request (p + 1) n

/-- `http_handle_request` -/
def httpHandleRequest (bytes : Path) : Option Outcome :=
  (scanTo space (bytes.length - 1) bytes bytes.length 0).bind fun p =>
    bytes[p + 1]?.bind fun c =>
      if c ≠ slash then some .rejected
      else handleLine (bytes.set p 0) (cString (bytes.take p)) p

/-! ## What should be answered -/

/-- What `http_check_request` finds: it ends with a double line end. -/
structure Request where
  bytes : Path
  ends : crlf ++ crlf <:+ bytes

/-- `HTTP/1.` -/
def httpOne : Path := [72, 84, 84, 80, 47, 49, 46]

/-- A request line of version 0.9, which has none, or of version 1.0 or 1.1. -/
def LineText (bytes : Path) (method : Method) (uri : Path) : Bool → Prop
  | true => method = .get ∧ ∃ after, bytes = method.ident ++ space :: (uri ++ (crlf ++ after))
  | false => ∃ minor after, (minor = 48 ∨ minor = 49) ∧
      bytes = method.ident ++ space :: (uri ++ space :: (httpOne ++ minor :: (crlf ++ after)))

structure IsRequest (bytes : Path) (method : Method) (uri : Path) (simple : Bool) : Prop where
  path : uri.head? = some slash
  clean : ∀ c ∈ uri, c ≠ space ∧ c ≠ cr ∧ c ≠ 0
  text : LineText bytes method uri simple

/-- The callback of the method has been called for a request line, and with its URI. -/
structure Answers (bytes : Path) (outcome : Outcome) : Prop where
  called : ∀ method uri simple, IsRequest bytes method uri simple →
    outcome = .dispatched method (decodedUri uri) simple
  asked : ∀ method uri simple, outcome = .dispatched method uri simple →
    ∃ raw, IsRequest bytes method raw simple ∧ uri = decodedUri raw

/-- No scan leaves the request, and it is answered as it should be. -/
def Right (r : Request) : Prop :=
  ∃ outcome, httpHandleRequest r.bytes = some outcome ∧ Answers r.bytes outcome

/-! ## What is answered -/

/-- A line that is taken for one of version 1: the method is what is before the first space, the
separator before the version may be a zero, and the minor version any character but those from
`2` up to the last one that is not negative. -/
structure RealLine (bytes m uri : Path) (sep minor : UInt8) : Prop where
  firstSpace : space ∉ m
  path : uri.head? = some slash
  line : cr ∉ uri
  separates : IsSep sep
  number : ¬ (50 ≤ minor ∧ minor < 128) ∧ ¬ IsSep minor
  text : ∃ after, bytes = m ++ space :: (uri ++ sep :: (httpOne ++ minor :: (crlf ++ after)))

/-- A line that is taken for one of version 0.9 if its method begins with `GET`: the last word of it
does not begin with `HTTP/`. -/
structure SimpleLine (bytes m uri : Path) : Prop where
  firstSpace : space ∉ m
  path : uri.head? = some slash
  line : cr ∉ uri
  version : ∀ front sep word, uri = front ++ sep :: word → IsSep sep →
    (∀ c ∈ word, ¬ IsSep c) → ¬ httpSlash <+: word
  text : ∃ after, bytes = m ++ space :: (uri ++ (crlf ++ after))

/-- A text begins with the name of a method. -/
def Known (m : Path) : Prop := ∃ method : Method, method.ident <+: cString m

/-- There is a space, and a line that is taken for a request has the whole name of a method, a URI
without spaces and zeros, a space behind it and a minor version of 0 or 1. -/
structure Meets (r : Request) : Prop where
  spaced : space ∈ r.bytes
  real : ∀ m uri sep minor, RealLine r.bytes m uri sep minor → Known m →
    (∃ method : Method, m = method.ident) ∧ (∀ c ∈ uri, ¬ IsSep c) ∧ sep = space ∧
      (minor = 48 ∨ minor = 49)
  simple : ∀ m uri, SimpleLine r.bytes m uri → Method.get.ident <+: cString m →
    m = Method.get.ident ∧ ∀ c ∈ uri, ¬ IsSep c

/-! ## Scans -/

theorem scanTo_found {c : UInt8} {limit steps : Nat} (front : Path) {text : Path} (back : Path)
    (htext : c ∉ text) (hlimit : front.length + text.length ≤ limit)
    (hsteps : text.length < steps) :
    scanTo c limit (front ++ (text ++ c :: back)) steps front.length =
      some (front.length + text.length) := by
  induction text generalizing front steps with
  | nil =>
    obtain ⟨steps, rfl⟩ := Nat.exists_eq_succ_of_ne_zero (Nat.ne_of_gt hsteps)
    rw [List.nil_append, scanTo, getElem?_middle]
    exact if_pos rfl
  | cons d text ih =>
    obtain ⟨steps, rfl⟩ := Nat.exists_eq_succ_of_ne_zero (Nat.ne_of_gt (Nat.zero_lt_of_lt hsteps))
    have hd : d ≠ c := fun hsame => htext (hsame ▸ List.mem_cons_self)
    have hplace : (front ++ [d]).length = front.length + 1 := by simp
    rw [List.length_cons] at hlimit
    have hfewer : text.length < steps := Nat.lt_of_succ_lt_succ hsteps
    have hnext := ih (front ++ [d]) (fun hmem => htext (List.mem_cons_of_mem d hmem)) (by omega)
      hfewer
    rw [List.cons_append, scanTo, getElem?_middle]
    dsimp only
    rw [if_neg hd, if_pos (by omega)]
    rw [hplace, List.append_assoc, List.singleton_append] at hnext
    rw [hnext, List.length_cons, Nat.add_assoc, Nat.add_comm 1]

/-- Without the character it ends at the limit. -/
theorem scanTo_limit {c : UInt8} {limit steps : Nat} (front : Path) {text : Path}
    (htext : c ∉ text) (hlimit : front.length + text.length = limit + 1)
    (hsteps : text.length ≤ steps) (hfront : front.length ≤ limit) :
    scanTo c limit (front ++ text) steps front.length = some limit := by
  induction text generalizing front steps with
  | nil =>
    rw [List.length_nil] at hlimit
    omega
  | cons d text ih =>
    obtain ⟨steps, rfl⟩ := Nat.exists_eq_succ_of_ne_zero (Nat.ne_of_gt (Nat.zero_lt_of_lt hsteps))
    have hd : d ≠ c := fun hsame => htext (hsame ▸ List.mem_cons_self)
    have hplace : (front ++ [d]).length = front.length + 1 := by simp
    rw [List.length_cons] at hlimit
    rw [scanTo, getElem?_middle]
    dsimp only
    rw [if_neg hd]
    split
    · next hlt =>
      have hfewer : text.length ≤ steps := Nat.le_of_succ_le_succ hsteps
      have hnext := ih (front ++ [d]) (fun hmem => htext (List.mem_cons_of_mem d hmem))
        (by omega) hfewer (by omega)
      rw [hplace, List.append_assoc, List.singleton_append] at hnext
      exact hnext
    · next hge =>
      rw [Nat.le_antisymm hfront (Nat.le_of_not_lt hge)]

/-- The scan backwards ends at the last separator. -/
theorem scanBack_found (front : Path) {sep : UInt8} {word : Path} (back : Path) (hsep : IsSep sep)
    (hword : ∀ c ∈ word, ¬ IsSep c) :
    scanBack (front ++ sep :: (word ++ back)) (front.length + word.length) =
      some front.length := by
  induction word using List.reverseRecOn generalizing back with
  | nil =>
    have hread := getElem?_middle front sep back
    rw [List.nil_append, List.length_nil, Nat.add_zero]
    cases hplace : front.length with
    | zero =>
      rw [hplace] at hread
      rw [scanBack, hread]
      exact if_pos hsep
    | succ n =>
      rw [hplace] at hread
      rw [scanBack, hread]
      exact if_pos hsep
  | append_singleton word c ih =>
    have hc : ¬ IsSep c := hword c (List.mem_append_right _ List.mem_cons_self)
    have hread : (front ++ sep :: ((word ++ [c]) ++ back))[front.length + word.length + 1]? =
        some c := by
      have hplace : front.length + word.length + 1 = (front ++ sep :: word).length := by
        simp [Nat.add_assoc]
      have hcells : front ++ sep :: ((word ++ [c]) ++ back) =
          (front ++ sep :: word) ++ c :: back := by simp
      rw [hplace, hcells, getElem?_middle]
    rw [List.length_append, List.length_singleton, ← Nat.add_assoc, scanBack, hread,
      Option.bind_some, if_neg hc, List.append_assoc, List.singleton_append]
    exact ih (c :: back) fun d hd => hword d (List.mem_append_left _ hd)

/-! ## The parts of a request -/

/-- The method, the rest of the line up to the first carriage return, and what is behind it. -/
structure Parts (bytes m line after : Path) : Prop where
  whole : bytes = m ++ space :: (line ++ cr :: after)
  firstSpace : space ∉ m
  firstCr : cr ∉ line

/-- What is in front of the double line end goes on to it. -/
theorem suffix_tail {front back : Path} {c : UInt8} (hc : c ∉ crlf ++ crlf)
    (h : crlf ++ crlf <:+ front ++ c :: back) : crlf ++ crlf <:+ back := by
  obtain ⟨start, hstart⟩ := h
  rcases List.append_eq_append_iff.mp hstart with ⟨mid, hfront, hend⟩ | ⟨mid, hfront, hback⟩
  · cases mid with
    | nil => exact absurd (hend ▸ List.mem_cons_self) hc
    | cons d mid =>
      exact absurd (hend ▸ List.mem_append_right _ List.mem_cons_self) hc
  · cases mid with
    | nil => exact absurd (hback ▸ List.mem_cons_self) hc
    | cons d mid =>
      obtain ⟨-, rfl⟩ := List.cons_eq_cons.mp hback
      exact ⟨mid, rfl⟩

theorem exists_parts (r : Request) (h : space ∈ r.bytes) :
    ∃ m line after, Parts r.bytes m line after ∧ 3 ≤ after.length := by
  obtain ⟨m, rest, hbytes, hm⟩ := List.eq_append_cons_of_mem h
  obtain ⟨start, hstart⟩ := suffix_tail (by decide) (hbytes ▸ r.ends)
  have hcr : cr ∈ rest := hstart ▸ List.mem_append_right _ List.mem_cons_self
  obtain ⟨line, after, hrest, hline⟩ := List.eq_append_cons_of_mem hcr
  refine ⟨m, line, after, ⟨by rw [hbytes, hrest], hm, hline⟩, ?_⟩
  rw [hrest] at hstart
  rcases List.append_eq_append_iff.mp hstart with ⟨mid, hfront, hend⟩ | ⟨mid, hfront, hback⟩
  · cases mid with
    | nil =>
      have hlength := congrArg List.length hend
      simp [crlf] at hlength
      omega
    | cons c mid =>
      obtain ⟨rfl, -⟩ := List.cons_eq_cons.mp hend
      exact absurd (hfront ▸ List.mem_append_right _ List.mem_cons_self) hline
  · have hlength := congrArg List.length hback
    simp [crlf] at hlength
    omega

/-- A text has a last separator or none. -/
theorem exists_word (line : Path) : (∀ c ∈ line, ¬ IsSep c) ∨
    ∃ front sep word, line = front ++ sep :: word ∧ IsSep sep ∧ ∀ c ∈ word, ¬ IsSep c := by
  induction line with
  | nil => exact Or.inl fun c hc => absurd hc List.not_mem_nil
  | cons c line ih =>
    rcases ih with hnone | ⟨front, sep, word, rfl, hsep, hword⟩
    · by_cases hc : IsSep c
      · exact Or.inr ⟨[], c, line, rfl, hc, hnone⟩
      · refine Or.inl fun d hd => ?_
        rcases List.mem_cons.mp hd with rfl | hd
        · exact hc
        · exact hnone d hd
    · exact Or.inr ⟨c :: front, sep, word, rfl, hsep, hword⟩

/-- The version begins with the last word or not at all. -/
theorem httpSlash_prefix_iff {word : Path} (after : Path) :
    httpSlash <+: word ++ cr :: after ↔ httpSlash <+: word := by
  constructor
  · intro h
    have hword : word ++ [cr] <+: word ++ cr :: after := ⟨after, by simp⟩
    rcases List.prefix_or_prefix_of_prefix h hword with hshort | hlong
    · rcases List.prefix_concat_iff.mp hshort with hsame | hshort
      · have hmem : cr ∈ httpSlash := hsame ▸ List.mem_append_right _ List.mem_cons_self
        exact absurd hmem (by decide)
      · exact hshort
    · have hmem : cr ∈ httpSlash := hlong.subset (List.mem_append_right _ List.mem_cons_self)
      exact absurd hmem (by decide)
  · exact fun h => h.trans (List.prefix_append _ _)

variable {bytes m line after : Path}

/-- The scans for the method. -/
theorem httpHandleRequest_parts (h : Parts bytes m line after) :
    httpHandleRequest bytes =
      if line.head? = some slash then
        handleLine (m ++ 0 :: (line ++ cr :: after)) (cString m) m.length
      else some .rejected := by
  have hbytes := h.whole
  have hlength : bytes.length = m.length + (line.length + (after.length + 1) + 1) := by
    rw [hbytes]
    simp only [List.length_append, List.length_cons]
  have hscan : scanTo space (bytes.length - 1) bytes bytes.length 0 = some m.length := by
    have hlimit : ([] : Path).length + m.length ≤ bytes.length - 1 := by
      rw [List.length_nil]
      omega
    have hsteps : m.length < bytes.length := by omega
    have hfound := scanTo_found [] (line ++ cr :: after) h.firstSpace hlimit hsteps
    rw [List.nil_append, ← hbytes, List.length_nil, Nat.zero_add] at hfound
    exact hfound
  have hnext : bytes[m.length + 1]? = (line ++ cr :: after)[0]? := by
    rw [hbytes, List.getElem?_append_right (Nat.le_add_right _ _), Nat.add_sub_cancel_left,
      List.getElem?_cons_succ]
  have hset : bytes.set m.length 0 = m ++ 0 :: (line ++ cr :: after) := by
    rw [hbytes, List.set_append_right _ _ (Nat.le_refl _), Nat.sub_self, List.set_cons_zero]
  have htake : bytes.take m.length = m := by
    rw [hbytes, List.take_left]
  rw [httpHandleRequest, hscan, Option.bind_some, hnext, hset, htake]
  cases line with
  | nil => rfl
  | cons c line =>
    rw [List.cons_append, List.getElem?_cons_zero, Option.bind_some]
    by_cases hc : c = slash
    · rw [if_neg (fun hne => hne hc), if_pos (by rw [hc]; rfl)]
    · have hhead : ¬ (c :: line).head? = some slash := fun hhead => hc (Option.some.inj hhead)
      rw [if_pos hc, if_neg hhead]

/-- The last separator in the memory: a space of the line or the zero behind the method. -/
structure LastWord (line gap : Path) (sep : UInt8) (word : Path) : Prop where
  cells : 0 :: line = gap ++ sep :: word
  separates : IsSep sep
  last : ∀ c ∈ word, ¬ IsSep c

variable {gap word request : Path} {sep : UInt8}

theorem exists_lastWord (line : Path) : ∃ gap sep word, LastWord line gap sep word := by
  rcases exists_word line with hnone | ⟨front, sep, word, rfl, hsep, hword⟩
  · exact ⟨[], 0, line, rfl, Or.inr rfl, hnone⟩
  · exact ⟨0 :: front, sep, word, rfl, hsep, hword⟩

theorem LastWord.memory (h : LastWord line gap sep word) (m after : Path) :
    m ++ 0 :: (line ++ cr :: after) = (m ++ gap) ++ sep :: ((word ++ [cr]) ++ after) := by
  rw [← List.cons_append, h.cells]
  simp

theorem LastWord.drop (h : LastWord line gap sep word) (m after : Path) :
    (m ++ 0 :: (line ++ cr :: after)).drop ((m ++ gap).length + 1) = word ++ cr :: after := by
  rw [h.memory m after, drop_middle, List.append_assoc, List.singleton_append]

theorem LastWord.length (h : LastWord line gap sep word) :
    line.length + 1 = gap.length + (word.length + 1) := by
  have hlength := congrArg List.length h.cells
  simpa using hlength

theorem zero_cons_noCr (hline : cr ∉ line) : cr ∉ 0 :: line := fun hmem =>
  (List.mem_cons.mp hmem).elim (fun hsame => absurd hsame (by decide)) hline

/-- The scans for the version. -/
theorem handleLine_parts (h : LastWord line gap sep word) (hline : cr ∉ line) :
    handleLine (m ++ 0 :: (line ++ cr :: after)) request m.length =
      if Method.get.ident <+: request ∧ ¬ httpSlash <+: word then
        handleSimple (m ++ 0 :: (line ++ cr :: after)) request (m.length + 1) (m ++ gap).length
      else handleReal (m ++ 0 :: (line ++ cr :: after)) request (m.length + 1)
        (m ++ gap).length := by
  have hscan : scanTo cr (m ++ 0 :: (line ++ cr :: after)).length
      (m ++ 0 :: (line ++ cr :: after)) (m ++ 0 :: (line ++ cr :: after)).length m.length =
        some (m.length + (line.length + 1)) :=
    @scanTo_found cr (m ++ 0 :: (line ++ cr :: after)).length
      (m ++ 0 :: (line ++ cr :: after)).length m (0 :: line) after (zero_cons_noCr hline)
      (by simp) (by simp; omega)
  have hplace : m.length + (line.length + 1) = (m ++ gap).length + (word ++ [cr]).length := by
    have hlength := h.length
    simp only [List.length_append, List.length_cons, List.length_nil]
    omega
  have hcr : ∀ c ∈ word ++ [cr], ¬ IsSep c := by
    intro c hc
    rcases List.mem_append.mp hc with hc | hc
    · exact h.last c hc
    · rw [List.mem_singleton.mp hc]
      decide
  have hback : scanBack (m ++ 0 :: (line ++ cr :: after)) (m.length + (line.length + 1)) =
      some (m ++ gap).length := by
    rw [h.memory, hplace]
    exact scanBack_found (m ++ gap) after h.separates hcr
  have hinside : m.length + (line.length + 1) ≠ (m ++ 0 :: (line ++ cr :: after)).length := by
    simp
  have hversion : httpSlash <+: (m ++ 0 :: (line ++ cr :: after)).drop ((m ++ gap).length + 1) ↔
      httpSlash <+: word := by
    rw [h.drop]
    exact httpSlash_prefix_iff after
  rw [handleLine, hscan, Option.bind_some, if_neg hinside, hback, Option.bind_some]
  simp only [hversion]

theorem handleSimple_parts (h : LastWord line gap sep word) (hline : cr ∉ line) :
    handleSimple (m ++ 0 :: (line ++ cr :: after)) request (m.length + 1) (m ++ gap).length =
      some (if crlf <+: cr :: after then dispatch request (decodedUri line) true
        else .rejected) := by
  have hword : cr ∉ sep :: word := fun hmem =>
    zero_cons_noCr hline (h.cells ▸ List.mem_append_right _ hmem)
  have hlength := h.length
  have hend : (m ++ gap).length + (sep :: word).length = m.length + (line.length + 1) := by
    simp only [List.length_append, List.length_cons]
    omega
  have hsteps : (sep :: word).length < (m ++ 0 :: (line ++ cr :: after)).length := by
    simp only [List.length_append, List.length_cons]
    omega
  have hscan : scanTo cr (m ++ 0 :: (line ++ cr :: after)).length
      (m ++ 0 :: (line ++ cr :: after)) (m ++ 0 :: (line ++ cr :: after)).length
        (m ++ gap).length = some (m.length + (line.length + 1)) := by
    have hfound := @scanTo_found cr (m ++ 0 :: (line ++ cr :: after)).length
      (m ++ 0 :: (line ++ cr :: after)).length (m ++ gap) (sep :: word) after hword
      (by rw [hend]; simp) hsteps
    rw [hend, List.cons_append, ← List.singleton_append (l := after), ← List.append_assoc word,
      ← h.memory] at hfound
    exact hfound
  have hdrop : (m ++ 0 :: (line ++ cr :: after)).drop (m.length + (line.length + 1)) =
      cr :: after := by
    have hcells : m ++ 0 :: (line ++ cr :: after) = (m ++ 0 :: line) ++ cr :: after := by simp
    rw [hcells, List.drop_left' (by simp)]
  have huri : ((m ++ 0 :: (line ++ cr :: after)).drop (m.length + 1)).take
      (m.length + (line.length + 1) - (m.length + 1)) = line := by
    rw [drop_middle]
    exact List.take_left' (by omega)
  rw [handleSimple, hscan, Option.map_some, hdrop, huri]

theorem handleReal_method (m bytes : Path) :
    handleReal bytes request (m.length + 1) (m ++ []).length = some .rejected := by
  rw [List.append_nil]
  exact if_pos (Nat.le_succ _)

theorem handleReal_other {bytes : Path} {uri p : Nat} (h : ¬ httpSlash <+: bytes.drop (p + 1)) :
    handleReal bytes request uri p = some .rejected := by
  unfold handleReal
  by_cases hp : p ≤ uri
  · exact if_pos hp
  · rw [if_neg hp, if_pos h]

theorem handleReal_version {uri rest : Path} {major dot minor : UInt8} (huri : uri ≠ [])
    (hword : word ++ cr :: after = httpSlash ++ major :: dot :: minor :: rest)
    (h : LastWord (uri ++ sep :: word) (0 :: uri) sep word) :
    handleReal (m ++ 0 :: ((uri ++ sep :: word) ++ cr :: after)) request (m.length + 1)
        (m ++ 0 :: uri).length =
      some (if IsVersion major dot minor ∧ crlf <+: rest then
        dispatch request (decodedUri uri) false else .rejected) := by
  have hdrop := h.drop m after
  rw [hword] at hdrop
  have hread : ∀ k, (m ++ 0 :: ((uri ++ sep :: word) ++ cr :: after))[(m ++ 0 :: uri).length +
      1 + k]? = (httpSlash ++ major :: dot :: minor :: rest)[k]? := by
    intro k
    rw [← hdrop, List.getElem?_drop]
  have hlong : ¬ (m ++ 0 :: uri).length ≤ m.length + 1 := by
    have hpos := List.length_pos_iff.mpr huri
    rw [List.length_append, List.length_cons]
    omega
  have htake : ((m ++ 0 :: ((uri ++ sep :: word) ++ cr :: after)).drop (m.length + 1)).take
      ((m ++ 0 :: uri).length - (m.length + 1)) = uri := by
    rw [drop_middle, List.append_assoc]
    refine List.take_left' ?_
    rw [List.length_append, List.length_cons]
    omega
  have hrest : (m ++ 0 :: ((uri ++ sep :: word) ++ cr :: after)).drop
      ((m ++ 0 :: uri).length + 9) = rest := by
    rw [show (m ++ 0 :: uri).length + 9 = (m ++ 0 :: uri).length + 1 + 8 from rfl,
      ← List.drop_drop, hdrop]
    rfl
  have hmajor := hread 5
  have hdot := hread 6
  have hminor := hread 7
  rw [Nat.add_assoc] at hmajor hdot hminor
  rw [handleReal, if_neg hlong, hdrop, if_neg (fun hne => hne (List.prefix_append _ _)), hmajor,
    hdot, hminor, hrest, htake]
  rfl

/-- What is behind `HTTP/` is long enough for a version. -/
theorem exists_version (hword : httpSlash <+: word) (hafter : 3 ≤ after.length) :
    ∃ major dot minor rest,
      word ++ cr :: after = httpSlash ++ major :: dot :: minor :: rest := by
  obtain ⟨v, rfl⟩ := hword
  have hlong : 4 ≤ (v ++ cr :: after).length := by
    rw [List.length_append, List.length_cons]
    omega
  rw [List.append_assoc]
  match v ++ cr :: after, hlong with
  | major :: dot :: minor :: rest, _ => exact ⟨major, dot, minor, rest, rfl⟩

theorem not_isSep_of_mem_httpOne : ∀ c ∈ httpOne, ¬ IsSep c := by
  simp [httpOne, IsSep, space]

/-- The version of a line without the carriage return that ends it. -/
theorem exists_word_of_minor {minor : UInt8} (hminor : ¬ IsSep minor) (after : Path) :
    ∃ word after', word ++ cr :: after' = httpSlash ++ 49 :: 46 :: minor :: (crlf ++ after) ∧
      cr ∉ word ∧ ∀ c ∈ word, ¬ IsSep c := by
  by_cases hcr : minor = cr
  · exact ⟨httpOne, crlf ++ after, by rw [hcr]; rfl, by decide, not_isSep_of_mem_httpOne⟩
  · refine ⟨httpOne ++ [minor], 10 :: after, rfl, ?_, ?_⟩
    · intro hmem
      rcases List.mem_append.mp hmem with hmem | hmem
      · exact absurd hmem (by decide)
      · exact hcr (List.mem_singleton.mp hmem).symm
    · intro c hc
      rcases List.mem_append.mp hc with hc | hc
      · exact not_isSep_of_mem_httpOne c hc
      · exact List.mem_singleton.mp hc ▸ hminor

theorem RealLine.parts {uri : Path} {minor : UInt8} (h : RealLine bytes m uri sep minor) :
    ∃ word after after', Parts bytes m (uri ++ sep :: word) after ∧
      (∀ c ∈ word, ¬ IsSep c) ∧
      word ++ cr :: after = httpSlash ++ 49 :: 46 :: minor :: (crlf ++ after') := by
  obtain ⟨after', htext⟩ := h.text
  obtain ⟨word, after, hword, hcr, hlast⟩ := exists_word_of_minor h.number.2 after'
  refine ⟨word, after, after', ⟨?_, h.firstSpace, ?_⟩, hlast, hword⟩
  · rw [htext, List.append_assoc, List.cons_append, hword]
    rfl
  · intro hmem
    rcases List.mem_append.mp hmem with hmem | hmem
    · exact h.line hmem
    · rcases List.mem_cons.mp hmem with hsame | hmem
      · exact absurd (hsame ▸ h.separates) (by decide)
      · exact hcr hmem

theorem head?_append_of_path {uri : Path} (h : uri.head? = some slash) (rest : Path) :
    (uri ++ rest).head? = some slash := by
  rw [List.head?_append, h]
  rfl

theorem isVersion_of_number {minor : UInt8} (h : ¬ (50 ≤ minor ∧ minor < 128)) :
    IsVersion 49 46 minor := ⟨rfl, h, rfl⟩

/-- Every line that is taken for one of version 1 is answered. -/
theorem handleRequest_real {uri : Path} {minor : UInt8} (h : RealLine bytes m uri sep minor) :
    httpHandleRequest bytes = some (dispatch (cString m) (decodedUri uri) false) := by
  obtain ⟨word, after, after', hparts, hlast, hword⟩ := h.parts
  have hlw : LastWord (uri ++ sep :: word) (0 :: uri) sep word := ⟨rfl, h.separates, hlast⟩
  have hnil : uri ≠ [] := fun hnil => by
    have hpath := h.path
    rw [hnil] at hpath
    exact absurd hpath (Option.some_ne_none slash).symm
  have hslash : httpSlash <+: word :=
    (httpSlash_prefix_iff after).mp (hword ▸ List.prefix_append _ _)
  rw [httpHandleRequest_parts hparts, if_pos (head?_append_of_path h.path _),
    handleLine_parts hlw hparts.firstCr, if_neg (fun hboth => hboth.2 hslash),
    handleReal_version hnil hword hlw,
    if_pos ⟨isVersion_of_number h.number.1, List.prefix_append _ _⟩]

theorem not_httpSlash_of_path {uri : Path} (h : uri.head? = some slash) :
    ¬ httpSlash <+: uri := by
  rintro ⟨rest, rfl⟩
  have hhead : (httpSlash ++ rest).head? = some 72 := rfl
  exact absurd (hhead.symm.trans h) (by decide)

/-- Every line that is taken for one of version 0.9 is answered. -/
theorem handleRequest_simple {uri : Path} (h : SimpleLine bytes m uri)
    (hget : Method.get.ident <+: cString m) :
    httpHandleRequest bytes = some (dispatch (cString m) (decodedUri uri) true) := by
  obtain ⟨after, htext⟩ := h.text
  obtain ⟨gap, sep, word, hlw⟩ := exists_lastWord uri
  have hparts : Parts bytes m uri (10 :: after) := ⟨htext, h.firstSpace, h.line⟩
  have hword : ¬ httpSlash <+: word := by
    have hcells := hlw.cells
    cases gap with
    | nil =>
      obtain ⟨-, rfl⟩ := List.cons_eq_cons.mp hcells
      exact not_httpSlash_of_path h.path
    | cons c gap =>
      obtain ⟨-, huri⟩ := List.cons_eq_cons.mp hcells
      exact h.version gap sep word huri hlw.separates hlw.last
  rw [httpHandleRequest_parts hparts, if_pos h.path, handleLine_parts hlw h.line,
    if_pos ⟨hget, hword⟩, handleSimple_parts hlw h.line, if_pos ⟨after, rfl⟩]

theorem minor_notSep {minor : UInt8} {rest : Path} (hslash : httpSlash <+: word)
    (hlast : ∀ c ∈ word, ¬ IsSep c)
    (hword : word ++ cr :: after = httpSlash ++ 49 :: 46 :: minor :: rest) : ¬ IsSep minor := by
  obtain ⟨v, rfl⟩ := hslash
  rw [List.append_assoc, List.append_cancel_left_eq] at hword
  match v, hlast, hword with
  | [], _, hword => exact absurd (List.cons_eq_cons.mp hword).1 (by decide)
  | [_], _, hword =>
    exact absurd (List.cons_eq_cons.mp (List.cons_eq_cons.mp hword).2).1 (by decide)
  | [_, _], _, hword =>
    obtain ⟨rfl, -⟩ := List.cons_eq_cons.mp (List.cons_eq_cons.mp (List.cons_eq_cons.mp hword).2).2
    decide
  | _ :: _ :: c :: v, hlast, hword =>
    obtain ⟨rfl, -⟩ := List.cons_eq_cons.mp (List.cons_eq_cons.mp (List.cons_eq_cons.mp hword).2).2
    exact hlast c (by simp)

theorem lastSep_unique {front front' word' : Path} {sep' : UInt8}
    (h : front ++ sep :: word = front' ++ sep' :: word') (hsep : IsSep sep) (hsep' : IsSep sep')
    (hword : ∀ c ∈ word, ¬ IsSep c) (hword' : ∀ c ∈ word', ¬ IsSep c) :
    front = front' ∧ sep = sep' ∧ word = word' := by
  rcases List.append_eq_append_iff.mp h with ⟨mid, hfront, hend⟩ | ⟨mid, hfront, hend⟩
  · cases mid with
    | nil =>
      obtain ⟨rfl, rfl⟩ := List.cons_eq_cons.mp hend
      exact ⟨by rw [hfront, List.append_nil], rfl, rfl⟩
    | cons c mid =>
      obtain ⟨-, rfl⟩ := List.cons_eq_cons.mp hend
      exact absurd hsep' (hword sep' (List.mem_append_right _ List.mem_cons_self))
  · cases mid with
    | nil =>
      obtain ⟨rfl, rfl⟩ := List.cons_eq_cons.mp hend
      exact ⟨by rw [hfront, List.append_nil], rfl, rfl⟩
    | cons c mid =>
      obtain ⟨-, rfl⟩ := List.cons_eq_cons.mp hend
      exact absurd hsep (hword' sep (List.mem_append_right _ List.mem_cons_self))

theorem handleRequest_cases (r : Request) (h : space ∈ r.bytes) :
    ∃ outcome, httpHandleRequest r.bytes = some outcome ∧
      (outcome = .rejected ∨
        (∃ m uri sep minor, RealLine r.bytes m uri sep minor ∧
          outcome = dispatch (cString m) (decodedUri uri) false) ∨
        ∃ m uri, SimpleLine r.bytes m uri ∧ Method.get.ident <+: cString m ∧
          outcome = dispatch (cString m) (decodedUri uri) true) := by
  obtain ⟨m, line, after, hparts, hafter⟩ := exists_parts r h
  obtain ⟨gap, sep, word, hlw⟩ := exists_lastWord line
  rw [httpHandleRequest_parts hparts]
  by_cases hpath : line.head? = some slash
  · rw [if_pos hpath, handleLine_parts hlw hparts.firstCr]
    by_cases hsimple : Method.get.ident <+: cString m ∧ ¬ httpSlash <+: word
    · rw [if_pos hsimple, handleSimple_parts hlw hparts.firstCr]
      refine ⟨_, rfl, ?_⟩
      split
      · next hend =>
        refine Or.inr (Or.inr ⟨m, line, ⟨hparts.firstSpace, hpath, hparts.firstCr, ?_, ?_⟩,
          hsimple.1, rfl⟩)
        · intro front sep' word' hline hsep' hword'
          have hcells : gap ++ sep :: word = (0 :: front) ++ sep' :: word' := by
            rw [← hlw.cells, hline, List.cons_append]
          obtain ⟨-, -, rfl⟩ := lastSep_unique hcells hlw.separates hsep' hlw.last hword'
          exact hsimple.2
        · obtain ⟨rest, hrest⟩ := hend
          exact ⟨rest, by rw [hparts.whole, ← hrest]⟩
      · exact Or.inl rfl
    · rw [if_neg hsimple]
      cases gap with
      | nil =>
        rw [handleReal_method]
        exact ⟨_, rfl, Or.inl rfl⟩
      | cons c uri =>
        obtain ⟨rfl, htext⟩ := List.cons_eq_cons.mp hlw.cells
        have hline : line = uri ++ sep :: word := htext
        by_cases hslash : httpSlash <+: word
        · obtain ⟨major, dot, minor, rest, hword⟩ := exists_version hslash hafter
          subst hline
          have hnil : uri ≠ [] := by
            rintro rfl
            obtain rfl := Option.some.inj hpath
            exact absurd hlw.separates (by decide)
          rw [handleReal_version hnil hword hlw]
          refine ⟨_, rfl, ?_⟩
          split
          · next hend =>
            obtain ⟨⟨rfl, hnumber, rfl⟩, rest', rfl⟩ := hend
            refine Or.inr (Or.inl ⟨m, uri, sep, minor, ⟨hparts.firstSpace, ?_, ?_,
              hlw.separates, ⟨hnumber, minor_notSep hslash hlw.last hword⟩, ?_⟩, rfl⟩)
            · obtain ⟨c, uri, rfl⟩ := List.exists_cons_of_ne_nil hnil
              exact hpath
            · exact fun hmem => hparts.firstCr (List.mem_append_left _ hmem)
            · refine ⟨rest', ?_⟩
              rw [hparts.whole, List.append_assoc, List.cons_append, hword]
              rfl
          · exact Or.inl rfl
        · have hnone : ¬ httpSlash <+: (m ++ 0 :: (line ++ cr :: after)).drop
              ((m ++ 0 :: uri).length + 1) := by
            rw [hlw.drop, httpSlash_prefix_iff]
            exact hslash
          rw [handleReal_other hnone]
          exact ⟨_, rfl, Or.inl rfl⟩
  · rw [if_neg hpath]
    exact ⟨_, rfl, Or.inl rfl⟩

/-! ## The right answers -/

theorem RealLine.unique {m' uri uri' : Path} {sep' minor minor' : UInt8}
    (h : RealLine bytes m uri sep minor) (h' : RealLine bytes m' uri' sep' minor') :
    m = m' ∧ uri = uri' ∧ sep = sep' ∧ minor = minor' := by
  obtain ⟨word, after, rest, hparts, hlast, hword⟩ := h.parts
  obtain ⟨word', after', rest', hparts', hlast', hword'⟩ := h'.parts
  have hwhole := hparts.whole.symm.trans hparts'.whole
  have hm : m = m' := by
    have hcut := congrArg (stringOf space) hwhole
    rw [stringOf_append hparts.firstSpace, stringOf_append hparts'.firstSpace] at hcut
    exact hcut
  subst hm
  have hrest := (List.cons_eq_cons.mp (List.append_cancel_left hwhole)).2
  have hline : uri ++ sep :: word = uri' ++ sep' :: word' := by
    have hcut := congrArg (stringOf cr) hrest
    rw [stringOf_append hparts.firstCr, stringOf_append hparts'.firstCr] at hcut
    exact hcut
  obtain ⟨rfl, rfl, rfl⟩ := lastSep_unique hline h.separates h'.separates hlast hlast'
  rw [List.append_cancel_left hrest, hword', List.append_cancel_left_eq] at hword
  simp only [List.cons_eq_cons] at hword
  exact ⟨rfl, rfl, rfl, hword.2.2.1.symm⟩

theorem SimpleLine.unique {m' uri uri' : Path} (h : SimpleLine bytes m uri)
    (h' : SimpleLine bytes m' uri') : m = m' ∧ uri = uri' := by
  obtain ⟨after, htext⟩ := h.text
  obtain ⟨after', htext'⟩ := h'.text
  have hwhole := htext.symm.trans htext'
  have hm : m = m' := by
    have hcut := congrArg (stringOf space) hwhole
    rw [stringOf_append h.firstSpace, stringOf_append h'.firstSpace] at hcut
    exact hcut
  subst hm
  have hrest := (List.cons_eq_cons.mp (List.append_cancel_left hwhole)).2
  have hcut := congrArg (stringOf cr) hrest
  rw [show crlf ++ after = cr :: 10 :: after from rfl,
    show crlf ++ after' = cr :: 10 :: after' from rfl, stringOf_append h.line,
    stringOf_append h'.line] at hcut
  exact ⟨rfl, hcut⟩

theorem space_notMem_ident (method : Method) : space ∉ method.ident := by
  cases method <;> decide

theorem dispatch_ident (method : Method) (uri : Path) (simple : Bool) :
    dispatch (cString method.ident) uri simple = .dispatched method uri simple := by
  cases method <;> rfl

theorem known_of_dispatched {request uri uri' : Path} {simple simple' : Bool} {method : Method}
    (h : dispatch request uri simple = .dispatched method uri' simple') :
    method.ident <+: request ∧ uri = uri' ∧ simple = simple' := by
  unfold dispatch at h
  split at h
  · next found hfound =>
    obtain ⟨rfl, rfl, rfl⟩ := Outcome.dispatched.inj h
    exact ⟨by simpa using List.find?_some hfound, rfl, rfl⟩
  · exact absurd h (by simp)

theorem dispatched_of_known {m : Path} (h : Known m) (uri : Path) (simple : Bool) :
    ∃ method, dispatch (cString m) uri simple = .dispatched method uri simple := by
  obtain ⟨method, hmethod⟩ := h
  have hsome : (httpRequest.find? (·.ident <+: cString m)).isSome := by
    rw [List.find?_isSome]
    exact ⟨method, by cases method <;> decide, decide_eq_true hmethod⟩
  obtain ⟨found, hfound⟩ := Option.isSome_iff_exists.mp hsome
  exact ⟨found, by rw [dispatch, hfound]⟩

theorem dispatched_get {m : Path} (h : Method.get.ident <+: cString m) (uri : Path)
    (simple : Bool) : dispatch (cString m) uri simple = .dispatched .get uri simple := by
  have hfound : httpRequest.find? (·.ident <+: cString m) = some .get :=
    List.find?_cons_of_pos (decide_eq_true h)
  rw [dispatch, hfound]

variable {method : Method} {uri : Path}

theorem IsRequest.noCr {simple : Bool} (h : IsRequest bytes method uri simple) : cr ∉ uri :=
  fun hmem => (h.clean cr hmem).2.1 rfl

theorem IsRequest.real (h : IsRequest bytes method uri false) :
    ∃ minor, (minor = 48 ∨ minor = 49) ∧ RealLine bytes method.ident uri space minor := by
  obtain ⟨minor, after, hminor, htext⟩ := h.text
  refine ⟨minor, hminor, space_notMem_ident method, h.path, h.noCr, Or.inl rfl, ?_, after, htext⟩
  rcases hminor with rfl | rfl
  · decide
  · decide

theorem IsRequest.simple (h : IsRequest bytes method uri true) :
    method = .get ∧ SimpleLine bytes method.ident uri := by
  obtain ⟨hget, after, htext⟩ := h.text
  refine ⟨hget, space_notMem_ident method, h.path, h.noCr, ?_, after, htext⟩
  intro front sep word huri hsep
  have hmem : sep ∈ uri := huri ▸ List.mem_append_right _ List.mem_cons_self
  rcases hsep with hsame | hsame
  · exact absurd hsame (h.clean sep hmem).1
  · exact absurd hsame (h.clean sep hmem).2.2

theorem clean_iff : (∀ c ∈ uri, ¬ IsSep c) ↔ ∀ c ∈ uri, c ≠ space ∧ c ≠ 0 :=
  forall₂_congr fun _ _ => not_or

theorem handleRequest_none {bytes : Path} (h : space ∉ bytes) :
    httpHandleRequest bytes = none := by
  cases bytes with
  | nil => rfl
  | cons c bytes =>
    have hscan : scanTo space ((c :: bytes).length - 1) (c :: bytes) (c :: bytes).length 0 =
        some bytes.length :=
      scanTo_limit [] h (Nat.zero_add _) (Nat.le_refl _) (Nat.zero_le _)
    have hbehind : (c :: bytes)[bytes.length + 1]? = none :=
      List.getElem?_eq_none (Nat.le_refl _)
    rw [httpHandleRequest, hscan, Option.bind_some, hbehind, Option.bind_none]

/-- A request is answered as it should be just when it has a space, and if it is taken for one, the
whole name of a method, a URI without separators and a version of its own. -/
theorem requestLine_right_iff (r : Request) : Right r ↔ Meets r := by
  constructor
  · rintro ⟨outcome, houtcome, hcalled, hasked⟩
    refine ⟨?_, ?_, ?_⟩
    · by_contra hspace
      rw [handleRequest_none hspace] at houtcome
      exact absurd houtcome.symm (Option.some_ne_none _)
    · intro m uri sep minor hreal hknown
      have hsame := Option.some.inj ((handleRequest_real hreal).symm.trans houtcome)
      obtain ⟨method, hmethod⟩ := dispatched_of_known hknown (decodedUri uri) false
      obtain ⟨raw, hraw, -⟩ := hasked _ _ _ (hsame.symm.trans hmethod)
      obtain ⟨minor', hminor', hreal'⟩ := hraw.real
      obtain ⟨rfl, rfl, rfl, rfl⟩ := hreal.unique hreal'
      exact ⟨⟨method, rfl⟩, clean_iff.mpr fun c hc => ⟨(hraw.clean c hc).1, (hraw.clean c hc).2.2⟩,
        rfl, hminor'⟩
    · intro m uri hsimple hget
      have hsame := Option.some.inj ((handleRequest_simple hsimple hget).symm.trans houtcome)
      obtain ⟨raw, hraw, -⟩ := hasked _ _ _ (hsame.symm.trans (dispatched_get hget _ true))
      obtain ⟨-, hsimple'⟩ := hraw.simple
      obtain ⟨rfl, rfl⟩ := hsimple.unique hsimple'
      exact ⟨rfl, clean_iff.mpr fun c hc => ⟨(hraw.clean c hc).1, (hraw.clean c hc).2.2⟩⟩
  · rintro ⟨hspace, hreal, hsimple⟩
    obtain ⟨outcome, houtcome, hcases⟩ := handleRequest_cases r hspace
    refine ⟨outcome, houtcome, ?_, ?_⟩
    · intro method uri simple hrequest
      cases simple with
      | true =>
        obtain ⟨rfl, hline⟩ := hrequest.simple
        have hrun := handleRequest_simple hline (by decide)
        rw [dispatch_ident] at hrun
        exact Option.some.inj (houtcome.symm.trans hrun)
      | false =>
        obtain ⟨minor, -, hline⟩ := hrequest.real
        have hrun := handleRequest_real hline
        rw [dispatch_ident] at hrun
        exact Option.some.inj (houtcome.symm.trans hrun)
    · rintro method uri simple rfl
      rcases hcases with hrejected | ⟨m, raw, sep, minor, hline, hdispatch⟩ |
          ⟨m, raw, hline, hget, hdispatch⟩
      · exact absurd hrejected (by simp)
      · obtain ⟨hstarts, rfl, rfl⟩ := known_of_dispatched hdispatch.symm
        obtain ⟨⟨method', rfl⟩, hclean, rfl, hminor⟩ :=
          hreal m raw sep minor hline ⟨method, hstarts⟩
        rw [dispatch_ident] at hdispatch
        obtain ⟨rfl, -, -⟩ := Outcome.dispatched.inj hdispatch
        obtain ⟨after, htext⟩ := hline.text
        refine ⟨raw, ⟨hline.path, fun c hc => ?_, minor, after, hminor, htext⟩, rfl⟩
        obtain ⟨hspace, hzero⟩ := clean_iff.mp hclean c hc
        exact ⟨hspace, fun hsame => hline.line (hsame ▸ hc), hzero⟩
      · obtain ⟨-, rfl, rfl⟩ := known_of_dispatched hdispatch.symm
        obtain ⟨rfl, hclean⟩ := hsimple m raw hline hget
        rw [dispatch_ident] at hdispatch
        obtain ⟨rfl, -, -⟩ := Outcome.dispatched.inj hdispatch
        obtain ⟨after, htext⟩ := hline.text
        refine ⟨raw, ⟨hline.path, fun c hc => ?_, rfl, after, htext⟩, rfl⟩
        obtain ⟨hspace, hzero⟩ := clean_iff.mp hclean c hc
        exact ⟨hspace, fun hsame => hline.line (hsame ▸ hc), hzero⟩

/-- A method with more characters than `GET` and an unknown version. -/
def longMethod : Request := ⟨bytesOf "GETTER /a HTTP/1.-\x0d\x0a\x0d\x0a", by decide⟩

theorem longMethod_not_right : ¬ Right longMethod := by
  rintro ⟨outcome, houtcome, -, hasked⟩
  have hrun : httpHandleRequest longMethod.bytes =
      some (.dispatched .get (bytesOf "/a") false) := by decide
  obtain ⟨raw, hraw, -⟩ := hasked _ _ _ (Option.some.inj (houtcome.symm.trans hrun))
  obtain ⟨minor, -, hreal⟩ := hraw.real
  have hmethod := congrArg (stringOf space) hreal.text.choose_spec
  rw [stringOf_append hreal.firstSpace] at hmethod
  exact absurd hmethod (by decide)

/-! ## Links -/

open UriCoding

theorem cr_notMem_encoded (file : Path) : cr ∉ encoded file := by
  have hdigit : ∀ d : UInt8, hexValue d ≠ none → cr ≠ d := by
    rintro d hd rfl
    exact hd (by decide)
  induction file with
  | nil => exact List.not_mem_nil
  | cons c file ih =>
    rw [encoded]
    split
    · next hplain =>
      have hc : cr ≠ c := fun hsame => absurd (hsame ▸ hplain) (by decide)
      simp [hc, ih]
    · have hhigh := hdigit _ (hexValue_high c ▸ Option.some_ne_none _)
      have hlow := hdigit _ (hexValue_low c ▸ Option.some_ne_none _)
      have hpercent : cr ≠ percent := by decide
      simp [escape, hhigh, hlow, hpercent, ih]

/-- A request for a link of a directory listing is a request for the file, whatever its name is. -/
theorem httpHandleRequest_link (method : Method) (file : UriString) (newer : Bool) (after : Path) :
    httpHandleRequest (method.ident ++ space :: (slash :: encoded file.text ++
        space :: (httpOne ++ (if newer then 49 else 48) :: (crlf ++ after)))) =
      some (.dispatched method (slash :: file.text) false) := by
  have hline : RealLine _ method.ident (slash :: encoded file.text) space
      (if newer then 49 else 48) :=
    { firstSpace := space_notMem_ident method
      path := rfl
      line := List.not_mem_cons_of_ne_of_not_mem (by decide) (cr_notMem_encoded file.text)
      separates := Or.inl rfl
      number := by cases newer <;> decide
      text := ⟨after, rfl⟩ }
  have huri : decodedUri (slash :: encoded file.text) = slash :: file.text := by
    have hzero : 0 ∉ slash :: encoded file.text :=
      List.not_mem_cons_of_ne_of_not_mem (by decide) (zero_notMem_encoded file.ends)
    have hfile : 0 ∉ slash :: file.text := List.not_mem_cons_of_ne_of_not_mem (by decide) file.ends
    rw [decodedUri, takeWhile_ne_self hzero, httpProcessUri_plain (by decide),
      httpProcessUri_encoded, takeWhile_ne_self hfile]
  rw [handleRequest_real hline, dispatch_ident, huri]

end Serveez.Http.RequestLine
