import Mathlib.Data.UInt
import Serveez.Http.DocumentRoot
import Serveez.Lib.Block

/-!
# Encoding and decoding of a URI

`http_process_uri` decodes a string in its place: it puts the byte where the percent sign was,
moves what is behind the two digits to the place behind it and goes on there. A listing of a
directory has its names encoded by `http_create_uri`.

* `processUri_decodes`: the loop ends, stays in the string and does each escape once, from the
  front to the back.
* `processUri_createUri`: decoding gives the name that was encoded.
-/

namespace Serveez.Http.UriCoding

open Lib

/-! ## The loops -/

/-- The place of a character at or behind some place, if there is one before the terminator. It has
no result if it leaves the memory. -/
def strchr (c : UInt8) : Nat → Nat → List UInt8 → Option (Option Nat)
  | 0, _, _ => none
  | steps + 1, p, cells =>
    match cells[p]? with
    | none => none
    | some d =>
      if d = c then some (some p)
      else if d = 0 then some none
      else strchr c steps (p + 1) cells

/-- What the percent sign at `p` becomes, and where the next round begins. There is no next round
without two characters behind the sign. -/
def decodeAt (p : Nat) (cells : List UInt8) : Option (List UInt8 × Option Nat) :=
  cells[p + 1]?.bind fun h =>
    if h = 0 then some (cells, none)
    else cells[p + 2]?.bind fun l =>
      if l = 0 then some (cells, none)
      else (moveDown 0 0 cells.length (p + 1) (p + 3) (cells.set p (hexByte h l))).map
        fun cells => (cells, some (p + 1))

/-- The loop of `http_process_uri` from some place on. -/
def processLoop : Nat → Nat → List UInt8 → Option (List UInt8)
  | 0, _, _ => none
  | rounds + 1, uri, cells =>
    (strchr percent cells.length uri cells).bind fun
      | none => some cells
      | some p => (decodeAt p cells).bind fun r =>
        match r.2 with
        | none => some r.1
        | some uri => processLoop rounds uri r.1

/-- `http_process_uri` on a memory that is no more than the string and its terminator. -/
def processUri (uri : Path) : Option (List UInt8) := processLoop (uri.length + 1) 0 (uri ++ [0])

/-- `DIRLIST_SPACE_NAME` -/
def dirlistSpaceName : Nat := 1024

/-- The characters that `http_create_uri` leaves as they are. -/
def IsPlain (c : UInt8) : Prop :=
  97 ≤ c ∧ c ≤ 122 ∨ 65 ≤ c ∧ c ≤ 90 ∨ 48 ≤ c ∧ c ≤ 57 ∨
    c = 32 ∨ c = slash ∨ c = 46 ∨ c = 95

instance (c : UInt8) : Decidable (IsPlain c) := inferInstanceAs (Decidable (_ ∨ _))

/-- A digit of `%X`. -/
def hexDigit (d : UInt8) : UInt8 := if d < 10 then 48 + d else 55 + d

/-- `%%%02X` -/
def escape (c : UInt8) : Path := [percent, hexDigit (c / 16), hexDigit (c % 16)]

def encoded : Path → Path
  | [] => []
  | c :: file => if IsPlain c then c :: encoded file else escape c ++ encoded file

/-- `http_create_uri`, if what it writes fits its buffer. -/
def httpCreateUri (file : Path) : Option Path :=
  if (encoded file).length < dirlistSpaceName then some (encoded file) else none

/-! ## What decoding means -/

/-- The number of a hexadecimal digit. -/
def hexValue (c : UInt8) : Option Nat :=
  if 48 ≤ c ∧ c ≤ 57 then some (c.toNat - 48)
  else if 97 ≤ c ∧ c ≤ 102 then some (c.toNat - 87)
  else if 65 ≤ c ∧ c ≤ 70 then some (c.toNat - 55)
  else none

/-- Each escape of a text stands for one byte, and everything else for itself. -/
inductive Decodes : Path → Path → Prop
  | nil : Decodes [] []
  | plain {c : UInt8} {uri text : Path} : c ≠ percent → Decodes uri text →
      Decodes (c :: uri) (c :: text)
  | escape {h l : UInt8} {a b : Nat} {uri text : Path} : hexValue h = some a →
      hexValue l = some b → Decodes uri text →
      Decodes (percent :: h :: l :: uri) (UInt8.ofNat (16 * a + b) :: text)
  | garbled {h l : UInt8} {uri text : Path} : hexValue h = none ∨ hexValue l = none →
      Decodes uri text → Decodes (percent :: h :: l :: uri) (hexByte h l :: text)
  | sign : Decodes [percent] [percent]
  | cut (h : UInt8) : Decodes [percent, h] [percent, h]

/-! ## The decoding without the memory -/

theorem httpProcessUri_escape (h l : UInt8) (uri : Path) :
    httpProcessUri (percent :: h :: l :: uri) = hexByte h l :: httpProcessUri uri := by
  rw [httpProcessUri, if_pos rfl]

theorem httpProcessUri_plain {c : UInt8} (hc : c ≠ percent) (uri : Path) :
    httpProcessUri (c :: uri) = c :: httpProcessUri uri := by
  match uri with
  | [] => rfl
  | [_] => rfl
  | h :: l :: uri => rw [httpProcessUri, if_neg hc]

theorem httpProcessUri_append {front : Path} (hfront : percent ∉ front) (uri : Path) :
    httpProcessUri (front ++ uri) = front ++ httpProcessUri uri := by
  induction front with
  | nil => rfl
  | cons c front ih =>
    have hc : c ≠ percent := fun hsame => hfront (hsame ▸ List.mem_cons_self)
    rw [List.cons_append, httpProcessUri_plain hc, ih fun hmem =>
      hfront (List.mem_cons_of_mem c hmem), List.cons_append]

theorem sub_eq_ofNat {c d : UInt8} (h : d ≤ c) : c - d = UInt8.ofNat (c.toNat - d.toNat) := by
  apply UInt8.toNat_inj.mp
  rw [UInt8.toNat_sub_of_le _ _ h, UInt8.toNat_ofNat_of_lt']
  exact Nat.lt_of_le_of_lt (Nat.sub_le _ _) c.toNat_lt

/-- A digit has the value that `ASC_TO_HEX` gives it. -/
theorem ascToHex_of_hexValue {c : UInt8} {a : Nat} (h : hexValue c = some a) :
    a < 16 ∧ ascToHex c = UInt8.ofNat a := by
  unfold hexValue at h
  unfold ascToHex
  split at h
  · next hc =>
    obtain rfl := Option.some.inj h
    rw [if_pos hc, sub_eq_ofNat hc.1]
    have hle : c.toNat ≤ 57 := hc.2
    exact ⟨by omega, rfl⟩
  · next hdigit =>
    rw [if_neg hdigit]
    split at h
    · next hc =>
      obtain rfl := Option.some.inj h
      have hle : c.toNat ≤ 102 := hc.2
      have hlow : (97 - 10 : UInt8) ≤ c := UInt8.le_trans (by decide) hc.1
      rw [if_pos hc, sub_eq_ofNat hlow]
      exact ⟨by omega, rfl⟩
    · next hsmall =>
      rw [if_neg hsmall]
      split at h
      · next hc =>
        obtain rfl := Option.some.inj h
        have hle : c.toNat ≤ 70 := hc.2
        have hlow : (65 - 10 : UInt8) ≤ c := UInt8.le_trans (by decide) hc.1
        rw [if_pos hc, sub_eq_ofNat hlow]
        exact ⟨by omega, rfl⟩
      · exact absurd h.symm (Option.some_ne_none a)

theorem hexByte_of_lt : ∀ a, a < 16 → ∀ b, b < 16 →
    (UInt8.ofNat a <<< 4) ||| UInt8.ofNat b = UInt8.ofNat (16 * a + b) := by
  decide

theorem hexByte_eq {h l : UInt8} {a b : Nat} (hh : hexValue h = some a)
    (hl : hexValue l = some b) : hexByte h l = UInt8.ofNat (16 * a + b) := by
  obtain ⟨ha, hsame⟩ := ascToHex_of_hexValue hh
  obtain ⟨hb, hsame'⟩ := ascToHex_of_hexValue hl
  rw [hexByte, hsame, hsame', hexByte_of_lt a ha b hb]

theorem decodes_one (c : UInt8) : Decodes [c] [c] := by
  by_cases hc : c = percent
  · exact hc ▸ .sign
  · exact .plain hc .nil

theorem decodes_two (c d : UInt8) : Decodes [c, d] [c, d] := by
  by_cases hc : c = percent
  · exact hc ▸ .cut d
  · exact .plain hc (decodes_one d)

theorem decodes_httpProcessUri (uri : Path) : Decodes uri (httpProcessUri uri) := by
  induction uri using httpProcessUri.induct with
  | case1 h l uri ih =>
    rw [httpProcessUri_escape]
    cases hh : hexValue h with
    | none => exact .garbled (Or.inl hh) ih
    | some a =>
      cases hl : hexValue l with
      | none => exact .garbled (Or.inr hl) ih
      | some b =>
        rw [hexByte_eq hh hl]
        exact .escape hh hl ih
  | case2 c h l uri hc ih =>
    rw [httpProcessUri_plain hc]
    exact .plain hc ih
  | case3 uri hshort =>
    match uri, hshort with
    | [], _ => exact .nil
    | [c], _ => exact decodes_one c
    | [c, d], _ => exact decodes_two c d
    | c :: h :: l :: uri, hshort => exact absurd rfl (hshort c h l uri)

/-! ## The memory -/

/-- The search goes past what is neither a percent sign nor the terminator. -/
theorem strchr_skip (steps : Nat) (front : List UInt8) {mid : List UInt8} (rest : List UInt8)
    (hmid : percent ∉ mid) (hend : (0 : UInt8) ∉ mid) :
    strchr percent (steps + mid.length) front.length (front ++ (mid ++ rest)) =
      strchr percent steps (front ++ mid).length ((front ++ mid) ++ rest) := by
  induction mid generalizing front with
  | nil => rw [List.append_nil, List.nil_append, List.length_nil, Nat.add_zero]
  | cons c mid ih =>
    have hc : c ≠ percent := fun hsame => hmid (hsame ▸ List.mem_cons_self)
    have hzero : c ≠ 0 := fun hsame => hend (hsame ▸ List.mem_cons_self)
    have hnext := ih (front ++ [c]) (fun hmem => hmid (List.mem_cons_of_mem c hmem))
      (fun hmem => hend (List.mem_cons_of_mem c hmem))
    rw [List.length_cons, ← Nat.add_assoc, strchr, List.cons_append, getElem?_middle]
    dsimp only
    rw [if_neg hc, if_neg hzero]
    rw [List.length_append, List.length_singleton, List.append_assoc, List.singleton_append,
      List.append_assoc front, List.singleton_append] at hnext
    exact hnext

theorem strchr_found {steps : Nat} (front : List UInt8) {mid : List UInt8} (rest : List UInt8)
    (hmid : percent ∉ mid) (hend : (0 : UInt8) ∉ mid) (hsteps : mid.length < steps) :
    strchr percent steps front.length (front ++ (mid ++ percent :: rest)) =
      some (some (front ++ mid).length) := by
  obtain ⟨more, rfl⟩ := Nat.exists_eq_add_of_le' hsteps
  rw [Nat.succ_eq_add_one, ← Nat.add_assoc, Nat.add_right_comm, strchr_skip _ _ _ hmid hend,
    strchr, getElem?_middle]
  exact if_pos rfl

theorem strchr_none {steps : Nat} (front : List UInt8) {uri : List UInt8} (back : List UInt8)
    (huri : percent ∉ uri) (hend : (0 : UInt8) ∉ uri) (hsteps : uri.length < steps) :
    strchr percent steps front.length (front ++ (uri ++ 0 :: back)) = some none := by
  obtain ⟨more, rfl⟩ := Nat.exists_eq_add_of_le' hsteps
  rw [Nat.succ_eq_add_one, ← Nat.add_assoc, Nat.add_right_comm, strchr_skip _ _ _ huri hend,
    strchr, getElem?_middle]
  rfl

theorem decodeAt_sign (front back : List UInt8) :
    decodeAt front.length (front ++ percent :: 0 :: back) =
      some (front ++ percent :: 0 :: back, none) := by
  unfold decodeAt
  rw [List.append_cons, show front.length + 1 = (front ++ [percent]).length by simp,
    getElem?_middle]
  rfl

theorem decodeAt_cut (front back : List UInt8) {h : UInt8} (hh : h ≠ 0) :
    decodeAt front.length (front ++ percent :: h :: 0 :: back) =
      some (front ++ percent :: h :: 0 :: back, none) := by
  have hfirst : (front ++ percent :: h :: 0 :: back)[front.length + 1]? = some h := by
    simp
  have hsecond : (front ++ percent :: h :: 0 :: back)[front.length + 2]? = some 0 := by
    simp
  rw [decodeAt, hfirst, Option.bind_some, if_neg hh, hsecond]
  rfl

/-- The byte stands in front of what was behind the digits, and nothing behind the terminator has
changed. -/
theorem decodeAt_escape (front back : List UInt8) {h l : UInt8} {uri : List UInt8} (hh : h ≠ 0)
    (hl : l ≠ 0) (hend : (0 : UInt8) ∉ uri) :
    ∃ junk, junk.length = 2 ∧
      decodeAt front.length (front ++ percent :: h :: l :: (uri ++ 0 :: back)) =
        some ((front ++ [hexByte h l]) ++ (uri ++ 0 :: (junk ++ back)),
          some (front ++ [hexByte h l]).length) := by
  have hfirst : (front ++ percent :: h :: l :: (uri ++ 0 :: back))[front.length + 1]? = some h := by
    simp
  have hsecond : (front ++ percent :: h :: l :: (uri ++ 0 :: back))[front.length + 2]? =
      some l := by
    simp
  have hset : (front ++ percent :: h :: l :: (uri ++ 0 :: back)).set front.length (hexByte h l) =
      (front ++ [hexByte h l]) ++ ([h, l] ++ (uri ++ 0 :: back)) := by
    simp
  have hsteps : uri.length < (front ++ percent :: h :: l :: (uri ++ 0 :: back)).length := by
    simp only [List.length_append, List.length_cons]
    omega
  have hmove := @moveDown_stop _ _ 0 0 _ (front ++ [hexByte h l]) [h, l] uri back
    (List.cons_ne_nil _ _) hend hsteps
  have hplace : (front ++ [hexByte h l]).length = front.length + 1 := by simp
  have hleft : ([h, l] ++ (uri ++ 0 :: back)).drop (uri.length + 1) =
      ([h, l] ++ (uri ++ [0])).drop (uri.length + 1) ++ back := by
    rw [← List.drop_append_of_le_length (by simp), List.append_assoc, List.append_assoc,
      List.singleton_append]
  refine ⟨([h, l] ++ (uri ++ [0])).drop (uri.length + 1), by simp; omega, ?_⟩
  rw [hleft, hplace] at hmove
  rw [decodeAt, hfirst, Option.bind_some, if_neg hh, hsecond, Option.bind_some, if_neg hl, hset]
  exact congrArg (Option.map _) hmove |>.trans (by rw [Option.map_some, hplace])

/-! ## All rounds -/

/-- With enough rounds the loop does to the rest of the string what `httpProcessUri` does. -/
theorem processLoop_spec (rounds : Nat) (front uri back : List UInt8) (hend : (0 : UInt8) ∉ uri)
    (hrounds : uri.length < rounds) :
    ∃ junk, junk.length + (httpProcessUri uri).length = uri.length ∧
      processLoop rounds front.length (front ++ (uri ++ 0 :: back)) =
        some (front ++ (httpProcessUri uri ++ 0 :: (junk ++ back))) := by
  induction rounds generalizing front uri back with
  | zero => exact absurd hrounds (Nat.not_lt_zero _)
  | succ rounds ih =>
    have hsteps : uri.length < (front ++ (uri ++ 0 :: back)).length := by
      simp only [List.length_append, List.length_cons]
      omega
    rw [processLoop]
    by_cases hmem : percent ∈ uri
    · obtain ⟨mid, rest, rfl, hmid⟩ := List.eq_append_cons_of_mem hmem
      have hmidEnd : (0 : UInt8) ∉ mid := fun h => hend (List.mem_append_left _ h)
      have hmidSteps : mid.length < (front ++ (mid ++ percent :: rest ++ 0 :: back)).length := by
        simp only [List.length_append, List.length_cons]
        omega
      rw [List.append_assoc mid, List.cons_append] at hmidSteps ⊢
      rw [strchr_found front (rest ++ 0 :: back) hmid hmidEnd hmidSteps, Option.bind_some,
        httpProcessUri_append hmid]
      dsimp only
      rw [← List.append_assoc front mid]
      match rest, hend, hrounds with
      | [], _, _ =>
        rw [List.nil_append, decodeAt_sign]
        exact ⟨[], by simp [httpProcessUri], by simp [httpProcessUri]⟩
      | [h], hend, _ =>
        have hh : h ≠ 0 := fun hsame => hend (by simp [hsame])
        rw [List.singleton_append, decodeAt_cut _ _ hh]
        exact ⟨[], by simp [httpProcessUri], by simp [httpProcessUri]⟩
      | h :: l :: rest, hend, hrounds =>
        have hh : h ≠ 0 := fun hsame => hend (by simp [hsame])
        have hl : l ≠ 0 := fun hsame => hend (by simp [hsame])
        have hrest : (0 : UInt8) ∉ rest := fun hin => hend (by simp [hin])
        obtain ⟨junk, hjunk, hdecode⟩ := decodeAt_escape (front ++ mid) back hh hl hrest
        have hfewer : rest.length < rounds := by
          simp only [List.length_append, List.length_cons] at hrounds
          omega
        obtain ⟨junk', hjunk', hloop⟩ :=
          ih ((front ++ mid) ++ [hexByte h l]) rest (junk ++ back) hrest hfewer
        rw [List.cons_append, List.cons_append, hdecode, Option.bind_some]
        refine ⟨junk' ++ junk, ?_, ?_⟩
        · rw [httpProcessUri_escape]
          simp only [List.length_append, List.length_cons, hjunk]
          omega
        · rw [httpProcessUri_escape]
          dsimp only
          rw [hloop]
          simp
    · rw [strchr_none front back hmem hend hsteps, Option.bind_some]
      have hsame : httpProcessUri uri = uri := by
        have happend := httpProcessUri_append hmem []
        rw [List.append_nil] at happend
        exact happend.trans (List.append_nil uri)
      rw [hsame]
      exact ⟨[], by simp, rfl⟩

/-- The loop ends within the string, with the decoded text in front of its terminator. -/
theorem processUri_decodes {uri : Path} (hend : (0 : UInt8) ∉ uri) :
    ∃ text junk, Decodes uri text ∧ text.length ≤ uri.length ∧
      processUri uri = some (text ++ 0 :: junk) := by
  obtain ⟨junk, hlength, hloop⟩ := processLoop_spec (uri.length + 1) [] uri [] hend
    (Nat.lt_succ_self _)
  refine ⟨httpProcessUri uri, junk, decodes_httpProcessUri uri, by omega, ?_⟩
  rw [List.append_nil] at hloop
  exact hloop

theorem Decodes.unique {uri text text' : Path} (h : Decodes uri text) (h' : Decodes uri text') :
    text = text' := by
  induction h generalizing text' with
  | nil =>
    cases h'
    rfl
  | plain hc _ ih =>
    cases h' with
    | plain _ h' => rw [ih h']
    | escape | garbled | sign | cut => exact absurd rfl hc
  | escape hh hl _ ih =>
    cases h' with
    | plain hc => exact absurd rfl hc
    | escape hh' hl' h' =>
      obtain rfl := Option.some.inj (hh.symm.trans hh')
      obtain rfl := Option.some.inj (hl.symm.trans hl')
      rw [ih h']
    | garbled hnone h' =>
      rcases hnone with hnone | hnone
      · exact absurd (hnone.symm.trans hh) (Option.some_ne_none _).symm
      · exact absurd (hnone.symm.trans hl) (Option.some_ne_none _).symm
  | garbled hnone _ ih =>
    cases h' with
    | plain hc => exact absurd rfl hc
    | escape hh hl h' =>
      rcases hnone with hnone | hnone
      · exact absurd (hnone.symm.trans hh) (Option.some_ne_none _).symm
      · exact absurd (hnone.symm.trans hl) (Option.some_ne_none _).symm
    | garbled _ h' => rw [ih h']
  | sign =>
    cases h' with
    | plain hc => exact absurd rfl hc
    | sign => rfl
  | cut =>
    cases h' with
    | plain hc => exact absurd rfl hc
    | cut => rfl

/-! ## Names -/

theorem hexValue_hexDigit : ∀ d, d < 16 → hexValue (hexDigit (UInt8.ofNat d)) = some d := by
  decide

theorem hexValue_high (c : UInt8) : hexValue (hexDigit (c / 16)) = some (c.toNat / 16) := by
  have hlt : c.toNat / 16 < 16 := Nat.div_lt_of_lt_mul c.toNat_lt
  rw [← hexValue_hexDigit _ hlt]
  congr 2
  apply UInt8.toNat_inj.mp
  rw [UInt8.toNat_div, UInt8.toNat_ofNat_of_lt' (Nat.lt_trans hlt (by decide))]
  rfl

theorem hexValue_low (c : UInt8) : hexValue (hexDigit (c % 16)) = some (c.toNat % 16) := by
  have hlt : c.toNat % 16 < 16 := Nat.mod_lt _ (by decide)
  rw [← hexValue_hexDigit _ hlt]
  congr 2
  apply UInt8.toNat_inj.mp
  rw [UInt8.toNat_mod, UInt8.toNat_ofNat_of_lt' (Nat.lt_trans hlt (by decide))]
  rfl

theorem not_isPlain_percent : ¬ IsPlain percent := by
  decide

/-- An escape stands for the character that it was made of. -/
theorem httpProcessUri_encoded (file : Path) : httpProcessUri (encoded file) = file := by
  induction file with
  | nil => rfl
  | cons c file ih =>
    rw [encoded]
    split
    · next hplain =>
      have hc : c ≠ percent := fun hsame => not_isPlain_percent (hsame ▸ hplain)
      rw [httpProcessUri_plain hc, ih]
    · rw [escape, List.cons_append, List.cons_append, List.singleton_append,
        httpProcessUri_escape, ih, hexByte_eq (hexValue_high c) (hexValue_low c),
        Nat.div_add_mod, UInt8.ofNat_toNat]

theorem zero_notMem_encoded {file : Path} (hend : (0 : UInt8) ∉ file) :
    (0 : UInt8) ∉ encoded file := by
  induction file with
  | nil => exact List.not_mem_nil
  | cons c file ih =>
    have hrest := ih fun hmem => hend (List.mem_cons_of_mem c hmem)
    have hvalue : hexValue 0 = none := by decide
    rw [encoded]
    split
    · intro hmem
      rcases List.mem_cons.mp hmem with hsame | hmem
      · exact hend (hsame ▸ List.mem_cons_self)
      · exact hrest hmem
    · intro hmem
      rcases List.mem_append.mp hmem with hmem | hmem
      · rcases List.mem_cons.mp hmem with hsame | hmem
        · exact absurd hsame (by decide)
        rcases List.mem_cons.mp hmem with hsame | hmem
        · exact absurd (hvalue.symm.trans (hsame ▸ hexValue_high c)) (Option.some_ne_none _).symm
        · obtain hsame := List.mem_singleton.mp hmem
          exact absurd (hvalue.symm.trans (hsame ▸ hexValue_low c)) (Option.some_ne_none _).symm
      · exact hrest hmem

theorem processUri_createUri {file uri : Path} (hend : (0 : UInt8) ∉ file)
    (huri : httpCreateUri file = some uri) :
    (processUri uri).map (stringOf 0) = some file := by
  obtain ⟨-, hsame⟩ := Option.ite_none_right_eq_some.mp huri
  obtain rfl := Option.some.inj hsame
  obtain ⟨junk, -, hloop⟩ := processLoop_spec ((encoded file).length + 1) [] (encoded file) []
    (zero_notMem_encoded hend) (Nat.lt_succ_self _)
  have hrun : processUri (encoded file) = some (file ++ 0 :: junk) := by
    rw [httpProcessUri_encoded, List.append_nil] at hloop
    exact hloop
  rw [hrun, Option.map_some, stringOf_append hend]

/-- A string that decoding gets. -/
structure UriString where
  text : Path
  ends : (0 : UInt8) ∉ text

/-- Decoding gives a name back that has been encoded, and does every escape of every string once, in
its place. -/
theorem uriCoding :
    (∀ file : UriString, (encoded file.text).length < dirlistSpaceName →
      ∃ uri, httpCreateUri file.text = some uri ∧
        (processUri uri).map (stringOf 0) = some file.text) ∧
    ∀ uri : UriString, ∃ text junk, processUri uri.text = some (text ++ 0 :: junk) ∧
      text.length ≤ uri.text.length ∧ ∀ text', Decodes uri.text text' ↔ text' = text := by
  constructor
  · intro file hfits
    have hcreate : httpCreateUri file.text = some (encoded file.text) := if_pos hfits
    exact ⟨_, hcreate, processUri_createUri file.ends hcreate⟩
  · intro uri
    obtain ⟨text, junk, hdecodes, hlength, hrun⟩ := processUri_decodes uri.ends
    refine ⟨text, junk, hrun, hlength, fun text' => ⟨fun h => h.unique hdecodes, ?_⟩⟩
    rintro rfl
    exact hdecodes

end Serveez.Http.UriCoding
