import Serveez.Hash.Guarded
import Serveez.Irc.State
import Mathlib.Data.List.DropRight

/-!
# Names and their hash codes

`irc_string_equal` takes two characters for the same if `irc_lcset` does: the two cases of a letter,
and `[` and `{`, `]` and `}`, `|` and `\`. They differ in one bit, and `hash_code` moves the bits of
a character to the left as many times as there are characters behind it. So the codes of equal names
differ exactly by the characters that are not the same among the last 59 (`hashCode_eq_iff`). A byte
from 128 on is looked up outside the table (`InTable`), and such a comparison has no result.

* `ircStringEqual_eq`, `ircStringEqual_eq_zero_iff`: what the comparison decides, and when.
* `ircKey_eq_iff`: names that an IRC hash takes for the same.
* `makeIrcEHashTable_get`: a hash of the server is a finite map whose keys are those of `ircKey`.
* `Caseless.ircKey_eq`, `exists_other_case`: a name that has a character with two cases there, and
  only such a name, is equal to one with another code.
-/

namespace Serveez.Irc

open Hash

/-- `irc_string_equal`, for strings in different places. -/
def ircStringEqual : Bytes → Bytes → Option Int
  | [], [] => some 0
  | [], c2 :: _ => some (if c2 = 0 then 0 else -1)
  | c1 :: _, [] => some (if c1 = 0 then 0 else -1)
  | c1 :: p1, c2 :: p2 =>
    if c1 ≠ 0 ∧ c2 ≠ 0 then
      if ¬ (InTable c1 ∧ InTable c2) then none
      else if lcset c1 ≠ lcset c2 then some (-1)
      else ircStringEqual p1 p2
    else some (if c1 = 0 ∧ c2 = 0 then 0 else -1)

/-- What `irc_string_equal` gives for names inside the table. -/
def ircEquals (a b : Bytes) : Int :=
  if (cString a).map lcset = (cString b).map lcset then 0 else -1

/-- The table is not read outside with the name. -/
def TableName (name : Bytes) : Prop := ∀ c ∈ cString name, InTable c

instance : DecidablePred TableName := fun name =>
  inferInstanceAs (Decidable (∀ c ∈ cString name, InTable c))

/-! ## Characters -/

theorem forall_uint8 {P : UInt8 → Prop} (h : ∀ n < 256, P (UInt8.ofNat n)) (c : UInt8) : P c := by
  have hc := h c.toNat (UInt8.toNat_lt c)
  rwa [UInt8.ofNat_toNat] at hc

theorem lcset_cases (c : UInt8) : lcset c = c ∨ lcset c = c ^^^ 32 := by
  refine forall_uint8 (P := fun c => lcset c = c ∨ lcset c = c ^^^ 32) ?_ c
  decide +kernel

/-- The other case of a character. -/
theorem eq_of_lcset {c d : UInt8} (h : lcset c = lcset d) (hne : c ≠ d) : d = c ^^^ 32 := by
  have hback (a b : UInt8) (hab : a ^^^ 32 = b) : a = b ^^^ 32 := by
    rw [← hab, UInt8.xor_assoc, UInt8.xor_self, UInt8.xor_zero]
  rcases lcset_cases c with hc | hc <;> rcases lcset_cases d with hd | hd
  · exact absurd (hc.symm.trans (h.trans hd)) hne
  · exact hback d c (hd.symm.trans (h.symm.trans hc))
  · exact hd.symm.trans (h.symm.trans hc)
  · refine absurd ?_ hne
    rw [hback c _ rfl, hback d _ rfl, ← hc, ← hd, h]

theorem lcset_ne_zero {c : UInt8} (h : c ≠ 0) : lcset c ≠ 0 := by
  revert h
  refine forall_uint8 (P := fun c => c ≠ 0 → lcset c ≠ 0) ?_ c
  decide +kernel

/-- A `char` is extended to the word size. -/
def charCode (c : UInt8) : UInt64 := c.toInt8.toInt64.toUInt64

theorem charCode_flip (c : UInt8) : charCode c ^^^ charCode (c ^^^ 32) = 32 := by
  refine forall_uint8 (P := fun c => charCode c ^^^ charCode (c ^^^ 32) = 32) ?_ c
  decide +kernel

/-! ## Codes -/

def codeStep (code : UInt64) (c : UInt8) : UInt64 := (code <<< 1) ^^^ charCode c

/-- The code of a name that is read from its end. -/
def codeBack : Bytes → UInt64
  | [] => 0
  | c :: l => codeStep (codeBack l) c

theorem hashCodeLoop_eq (code : UInt64) {p : Bytes} (h : 0 ∉ p) :
    hashCodeLoop code p = p.foldl codeStep code := by
  induction p generalizing code with
  | nil => rfl
  | cons c p ih =>
    rw [List.mem_cons, not_or] at h
    rw [hashCodeLoop, if_neg (fun hc => h.1 hc.symm), ih _ h.2]
    rfl

theorem zero_notMem_cString (name : Bytes) : 0 ∉ cString name := by
  intro hmem
  have hnot := List.all_takeWhile (p := fun b : UInt8 => !decide (b = 0)) (l := name)
  exact absurd (List.all_eq_true.mp hnot 0 hmem) (by decide)

theorem hashCode_eq_codeBack (name : Bytes) :
    hashCode name = codeBack (cString name).reverse := by
  have hfold (l : Bytes) : l.foldr (fun c code => codeStep code c) 0 = codeBack l := by
    induction l with
    | nil => rfl
    | cons c l ih => rw [List.foldr_cons, ih, codeBack]
  rw [hashCode, ← hashCodeLoop_cString, hashCodeLoop_eq 0 (zero_notMem_cString name), ← hfold,
    List.foldr_reverse]

theorem charCode_testBit {c d : UInt8} (h : lcset c = lcset d) (j : Nat) :
    (charCode c ^^^ charCode d).toNat.testBit j = decide (j = 5 ∧ c ≠ d) := by
  by_cases hsame : c = d
  · rw [hsame, UInt64.xor_self]
    simp
  · have hxor : charCode c ^^^ charCode d = 32 := by rw [eq_of_lcset h hsame, charCode_flip]
    rw [hxor]
    have hbit : (32 : Nat).testBit j = decide (5 = j) := Nat.testBit_two_pow (n := 5)
    refine hbit.trans (decide_eq_decide.mpr ?_)
    exact ⟨fun h => ⟨h.symm, hsame⟩, fun h => h.1.symm⟩

/-- The bits in which the codes of equal names differ. -/
theorem codeBack_testBit {l l' : Bytes} (h : l.map lcset = l'.map lcset) (j : Nat) :
    (codeBack l ^^^ codeBack l').toNat.testBit j =
      (decide (5 ≤ j) && decide (j < 64) && decide (l[j - 5]? ≠ l'[j - 5]?)) := by
  induction l generalizing l' j with
  | nil =>
    obtain rfl := List.map_eq_nil_iff.mp h.symm
    simp [codeBack]
  | cons c l ih =>
    cases l' with
    | nil => exact absurd h (List.cons_ne_nil _ _)
    | cons d l' =>
      obtain ⟨hc, hl⟩ := List.cons.inj h
      have hcode : codeBack (c :: l) ^^^ codeBack (d :: l') =
          ((codeBack l ^^^ codeBack l') <<< 1) ^^^ (charCode c ^^^ charCode d) := by
        rw [codeBack, codeBack, codeStep, codeStep, UInt64.shiftLeft_xor]
        ac_rfl
      rw [hcode, UInt64.toNat_xor, Nat.testBit_xor, charCode_testBit hc, UInt64.toNat_shiftLeft,
        Nat.testBit_mod_two_pow, Nat.testBit_shiftLeft]
      cases j with
      | zero => simp
      | succ j =>
        have hone : (1 : UInt64).toNat % 64 = 1 := rfl
        rw [hone, Nat.add_sub_cancel, ih hl]
        rcases Nat.lt_trichotomy j 4 with hj | rfl | hj
        · have hlow : ¬ 5 ≤ j := by omega
          have hnot : ¬ 5 ≤ j + 1 := by omega
          have hfive : j + 1 ≠ 5 := by omega
          simp [hlow, hnot, hfive]
        · simp
        · have hle : 5 ≤ j := hj
          have hsub : j + 1 - 5 = j - 5 + 1 := by omega
          have hfive : j + 1 ≠ 5 := by omega
          rw [hsub, List.getElem?_cons_succ, List.getElem?_cons_succ]
          by_cases hlt : j + 1 < 64
          · have hlt' : j < 64 := by omega
            simp [hle, hlt, hlt', hfive, Nat.le_succ_of_le hle]
          · simp [hlt, hfive]

theorem codeBack_eq_iff {l l' : Bytes} (h : l.map lcset = l'.map lcset) :
    codeBack l = codeBack l' ↔ l.take 59 = l'.take 59 := by
  constructor
  · intro hcode
    apply List.ext_getElem?
    intro i
    by_cases hi : i < 59
    · have hbit := codeBack_testBit h (i + 5)
      rw [hcode, UInt64.xor_self, Nat.add_sub_cancel] at hbit
      have hlt : i + 5 < 64 := by omega
      rw [List.getElem?_take_of_lt hi, List.getElem?_take_of_lt hi]
      simpa [hlt] using hbit
    · have hlength : ∀ k : Bytes, (k.take 59)[i]? = none := fun k =>
        List.getElem?_eq_none (le_trans (List.length_take_le 59 k) (Nat.le_of_not_lt hi))
      rw [hlength, hlength]
  · intro htake
    refine UInt64.xor_eq_zero_iff.mp (UInt64.toNat_inj.mp (Nat.eq_of_testBit_eq fun j => ?_))
    rw [codeBack_testBit h]
    by_cases hj : 5 ≤ j ∧ j < 64
    · have hi : j - 5 < 59 := by omega
      have hget := congrArg (·[j - 5]?) htake
      simp only [List.getElem?_take_of_lt hi] at hget
      simp [hget]
    · by_cases hle : 5 ≤ j
      · have hlt : ¬ j < 64 := fun hlt => hj ⟨hle, hlt⟩
        simp [hlt]
      · simp [hle]

theorem hashCode_eq_iff {a b : Bytes} (h : (cString a).map lcset = (cString b).map lcset) :
    hashCode a = hashCode b ↔ (cString a).rtake 59 = (cString b).rtake 59 := by
  have hback : (cString a).reverse.map lcset = (cString b).reverse.map lcset := by
    rw [List.map_reverse, List.map_reverse, h]
  rw [hashCode_eq_codeBack, hashCode_eq_codeBack, codeBack_eq_iff hback,
    List.rtake_eq_reverse_take_reverse, List.rtake_eq_reverse_take_reverse, List.reverse_inj]

/-! ## Names -/

theorem cString_of_notMem {name : Bytes} (h : 0 ∉ name) : cString name = name := by
  refine List.takeWhile_eq_self_iff.mpr (fun c hc => ?_)
  have hne : c ≠ 0 := fun hzero => h (hzero ▸ hc)
  simpa using hne

theorem inTable_lcset (c : UInt8) : InTable (lcset c) ↔ InTable c := by
  refine forall_uint8 (P := fun c => InTable (lcset c) ↔ InTable c) ?_ c
  decide +kernel

theorem inTable_congr {c d : UInt8} (h : lcset c = lcset d) : InTable c ↔ InTable d := by
  rw [← inTable_lcset, h, inTable_lcset]

theorem tableName_cons {c : UInt8} (hc : c ≠ 0) (name : Bytes) :
    TableName (c :: name) ↔ InTable c ∧ TableName name := by
  unfold TableName cString
  simp [hc]

/-- The comparison has the result for names inside the table, or reads the table outside. Names that
are compared to the end are inside. -/
theorem ircStringEqual_cases (a b : Bytes) :
    ircStringEqual a b = some (ircEquals a b) ∧
        (ircEquals a b = 0 → TableName a ∧ TableName b) ∨
      ircStringEqual a b = none ∧ ¬ (TableName a ∧ TableName b) := by
  induction a generalizing b with
  | nil => cases b with
    | nil => exact Or.inl ⟨rfl, fun _ => by simp [TableName, cString]⟩
    | cons d q =>
      by_cases hd : d = 0 <;> simp [ircStringEqual, ircEquals, TableName, cString, hd]
  | cons c p ih => cases b with
    | nil => by_cases hc : c = 0 <;> simp [ircStringEqual, ircEquals, TableName, cString, hc]
    | cons d q =>
      by_cases hc : c = 0
      · by_cases hd : d = 0 <;> simp [ircStringEqual, ircEquals, TableName, cString, hc, hd]
      by_cases hd : d = 0
      · simp [ircStringEqual, ircEquals, TableName, cString, hc, hd]
      rw [tableName_cons hc, tableName_cons hd]
      by_cases hin : InTable c ∧ InTable d
      · have hrec := ih q
        unfold ircEquals cString at hrec ⊢
        by_cases hsame : lcset c = lcset d
        · simpa [ircStringEqual, hc, hd, hin, hsame] using hrec
        · simp [ircStringEqual, hc, hd, hin, hsame]
      · right
        rw [ircStringEqual, if_pos ⟨hc, hd⟩, if_pos hin]
        exact ⟨rfl, fun h => hin ⟨h.1.1, h.2.1⟩⟩

theorem ircStringEqual_eq {a b : Bytes} (ha : TableName a) (hb : TableName b) :
    ircStringEqual a b = some (ircEquals a b) := by
  rcases ircStringEqual_cases a b with ⟨h, -⟩ | ⟨-, hout⟩
  · exact h
  · exact absurd ⟨ha, hb⟩ hout

theorem ircEquals_eq_zero_iff (a b : Bytes) :
    ircEquals a b = 0 ↔ (cString a).map lcset = (cString b).map lcset := by
  unfold ircEquals
  split <;> simp_all

variable {a b : List UInt8}

theorem ircEquals_iff (ha : 0 ∉ a) (hb : 0 ∉ b) :
    ircEquals a b = 0 ↔ a.map lcset = b.map lcset := by
  rw [ircEquals_eq_zero_iff, cString_of_notMem ha, cString_of_notMem hb]

theorem tableName_iff (ha : 0 ∉ a) : TableName a ↔ ∀ c ∈ a, InTable c := by
  rw [TableName, cString_of_notMem ha]

/-- Names that the comparison takes for the same. -/
theorem ircStringEqual_eq_zero_iff (ha : 0 ∉ a) (hb : 0 ∉ b) :
    ircStringEqual a b = some 0 ↔ TableName a ∧ a.map lcset = b.map lcset := by
  rw [← ircEquals_iff ha hb]
  rcases ircStringEqual_cases a b with ⟨h, hzero⟩ | ⟨h, hout⟩
  · rw [h, Option.some_inj]
    exact ⟨fun hequal => ⟨(hzero hequal).1, hequal⟩, And.right⟩
  · rw [h]
    refine iff_of_false (Option.some_ne_none 0).symm fun hboth => hout ⟨hboth.1, ?_⟩
    have hsame := (ircEquals_iff ha hb).mp hboth.2
    rw [tableName_iff hb]
    intro d hd
    obtain ⟨c, hc, hcd⟩ := List.mem_map.mp (hsame ▸ List.mem_map_of_mem hd)
    exact (inTable_congr hcd).mp ((tableName_iff ha).mp hboth.1 c hc)

/-- The names that have the same entry in a hash of the server. -/
theorem ircKey_eq_iff (ha : 0 ∉ a) (hb : 0 ∉ b) :
    ircKey a = ircKey b ↔ a.map lcset = b.map lcset ∧ a.rtake 59 = b.rtake 59 := by
  rw [ircKey, ircKey, Prod.mk.injEq, and_comm]
  refine and_congr_right (fun hsame => ?_)
  rw [hashCode_eq_iff (by rw [cString_of_notMem ha, cString_of_notMem hb, hsame]),
    cString_of_notMem ha, cString_of_notMem hb]

/-- A character with two cases. -/
def Cased (c : UInt8) : Prop := lcset (c ^^^ 32) = lcset c

instance : DecidablePred Cased := fun c => inferInstanceAs (Decidable (lcset (c ^^^ 32) = lcset c))

/-- None of the characters that decide about the code has two cases. -/
def Caseless (name : List UInt8) : Prop := ∀ c ∈ name.rtake 59, ¬ Cased c

instance : DecidablePred Caseless := fun name =>
  inferInstanceAs (Decidable (∀ c ∈ name.rtake 59, ¬ Cased c))

theorem Caseless.ircKey_eq (h : Caseless a) (ha : 0 ∉ a) (hb : 0 ∉ b)
    (hmap : a.map lcset = b.map lcset) : ircKey a = ircKey b := by
  refine (ircKey_eq_iff ha hb).mpr ⟨hmap, ?_⟩
  have hlength : a.length = b.length := by
    have hlengths := congrArg List.length hmap
    rwa [List.length_map, List.length_map] at hlengths
  have htake : (a.rtake 59).map lcset = (b.rtake 59).map lcset := by
    unfold List.rtake
    rw [List.map_drop, List.map_drop, hmap, hlength]
  -- a character that differs would have two cases
  revert h
  unfold Caseless
  generalize a.rtake 59 = l at htake
  generalize b.rtake 59 = l' at htake
  intro h
  induction l generalizing l' with
  | nil => exact (List.map_eq_nil_iff.mp htake.symm).symm
  | cons c l ih =>
    cases l' with
    | nil => exact absurd htake (List.cons_ne_nil _ _)
    | cons d l' =>
      obtain ⟨hc, hl⟩ := List.cons.inj htake
      have hsame : c = d := by
        by_contra hne
        refine h c List.mem_cons_self ?_
        rw [Cased, ← eq_of_lcset hc hne, hc]
      rw [hsame, ih l' hl (fun x hx => h x (List.mem_cons_of_mem c hx))]

theorem Caseless.of_key (h : Caseless a) (ha : 0 ∉ a) (hb : 0 ∉ b)
    (hkey : ircKey a = ircKey b) : Caseless b := by
  unfold Caseless at *
  rw [← ((ircKey_eq_iff ha hb).mp hkey).2]
  exact h

/-- A name with another case of a character that decides about the code. -/
theorem exists_other_case (h : ¬ Caseless a) (ha : 0 ∉ a) :
    ∃ b, 0 ∉ b ∧ a.map lcset = b.map lcset ∧ ircKey a ≠ ircKey b := by
  obtain ⟨c, hc, hcased⟩ : ∃ c ∈ a.rtake 59, lcset (c ^^^ 32) = lcset c := by
    by_contra hnone
    exact h (fun c hc hcased => hnone ⟨c, hc, hcased⟩)
  obtain ⟨pre, post, hsplit⟩ := List.append_of_mem hc
  have hname : a = a.rdrop 59 ++ (pre ++ c :: post) := by
    rw [← hsplit]
    exact (List.take_append_drop _ a).symm
  let b := a.rdrop 59 ++ (pre ++ (c ^^^ 32) :: post)
  have hmap : a.map lcset = b.map lcset := by
    conv_lhs => rw [hname]
    simp only [b, List.map_append, List.map_cons, hcased]
  have hother : c ^^^ 32 ≠ 0 := by
    intro hzero
    have hmem : c ∈ a := List.mem_of_mem_drop hc
    refine lcset_ne_zero (fun hc0 => ha (hc0 ▸ hmem)) ?_
    rw [← hcased, hzero]
    rfl
  have hb : 0 ∉ b := by
    rw [hname] at ha
    simp only [b, List.mem_append, List.mem_cons, not_or] at ha ⊢
    exact ⟨ha.1, ha.2.1, hother.symm, ha.2.2.2⟩
  have htail : b.rtake 59 = pre ++ (c ^^^ 32) :: post := by
    have hlength : b.length = a.length := by
      conv_rhs => rw [hname]
      simp only [b, List.length_append, List.length_cons]
    rw [List.rtake, hlength]
    refine List.drop_left' ?_
    rw [List.rdrop, List.length_take]
    omega
  refine ⟨b, hb, hmap, fun hkey => ?_⟩
  have hdiff := ((ircKey_eq_iff ha hb).mp hkey).2
  rw [htail, hsplit] at hdiff
  have hflip := (List.cons.inj (List.append_cancel_left hdiff)).1
  have hcode := charCode_flip c
  rw [← hflip, UInt64.xor_self] at hcode
  exact absurd hcode (by decide)

/-! ## The hashes of the server -/

/-- The callbacks of a hash of clients or channels. -/
def ircCallbacks : Callbacks := { defaultCallbacks with equals := ircEquals }

/-- `make_irc_e_hash_table` -/
def makeIrcEHashTable {V : Type} : Option (SvzHash V) :=
  (svzHashCreate 4).map (svzHashConfigure · none none (some ircEquals))

theorem ircCallbacks_lawful : ircCallbacks.guarded.Lawful := by
  apply guarded_lawful
  · refine ⟨fun a => ?_, fun {a b} hab => ?_, fun {a b d} hab hbd => ?_⟩
    · exact (ircEquals_eq_zero_iff a a).mpr rfl
    · exact (ircEquals_eq_zero_iff b a).mpr ((ircEquals_eq_zero_iff a b).mp hab).symm
    · exact (ircEquals_eq_zero_iff a d).mpr
        (((ircEquals_eq_zero_iff a b).mp hab).trans ((ircEquals_eq_zero_iff b d).mp hbd))
  · intro k
    have hcopy : cString (copyKey ircCallbacks k) = cString k :=
      cString_take_hashKeyLength k
    refine ⟨(ircEquals_eq_zero_iff _ k).mpr (congrArg _ hcopy), ?_⟩
    show hashCodeLoop 0 _ = hashCodeLoop 0 k
    rw [← hashCodeLoop_cString, hcopy, hashCodeLoop_cString]

theorem ircCallbacks_key (a b : Bytes) :
    ircCallbacks_lawful.key a = ircCallbacks_lawful.key b ↔
      ircKey (cString a) = ircKey (cString b) := by
  have hcode (name : Bytes) : hashCode (cString name) = hashCode name :=
    hashCodeLoop_cString 0 name
  rw [key_eq_iff, guarded_equals, ircKey, ircKey, Prod.mk.injEq, hcode, hcode]
  exact and_congr_right (fun _ => ircEquals_eq_zero_iff a b)

/-- The name of an operation. -/
def opName {V : Type} : Op V → Bytes
  | .put name _ => name
  | .delete name => name

/-- What a hash of the server finds after any puts and deletes of names inside the table. -/
theorem makeIrcEHashTable_get {V : Type} :
    (∃ created : SvzHash V, makeIrcEHashTable = some created ∧
      ∀ (ops : List (Op V)) (name : Bytes), (∀ a ∈ name :: ops.map opName, TableName a) →
        (∀ a ∈ name :: ops.map opName, ∀ b ∈ name :: ops.map opName,
          ircStringEqual a b = some (ircCallbacks.equals a b)) ∧
        svzHashGet (run created ops) name =
          ((specRun ircCallbacks_lawful ∅ ops).lookup (ircCallbacks_lawful.key name)).join) ∧
    ∀ a b, ircCallbacks_lawful.key a = ircCallbacks_lawful.key b ↔
      ircKey (cString a) = ircKey (cString b) := by
  obtain ⟨created, hcreate, hget⟩ :=
    svzHashGet_guarded (V := V) ircCallbacks_lawful (by decide : 1 ≤ 4)
  refine ⟨⟨created.configured ircCallbacks, ?_, fun ops name hnames => ⟨?_, (hget ops).2 name⟩⟩,
    ircCallbacks_key⟩
  · have hdefault : created.callbacks = defaultCallbacks := by
      obtain ⟨k, -, hcreated⟩ := svzHashCreate_eq (V := V) (by decide : 1 ≤ 4)
      rw [Option.some.inj (hcreate.symm.trans hcreated)]
    rw [makeIrcEHashTable, hcreate, Option.map_some, svzHashConfigure, hdefault]
    rfl
  · exact fun a ha b hb => ircStringEqual_eq (hnames a ha) (hnames b hb)

/-- Two cases of a name, of which one is put and deleted again. -/
theorem makeIrcEHashTable_get_cases : ∃ created : SvzHash Nat, makeIrcEHashTable = some created ∧
    svzHashGet (run created [.put [97] (some 1), .put [65] (some 2), .delete [97]]) [65] =
      ((specRun ircCallbacks_lawful ∅ [.put [97] (some 1), .put [65] (some 2),
        .delete [97]]).lookup (ircCallbacks_lawful.key [65])).join := by
  obtain ⟨⟨created, hcreate, hget⟩, -⟩ := makeIrcEHashTable_get (V := Nat)
  exact ⟨created, hcreate, (hget _ [65] (by decide +kernel)).2⟩

end Serveez.Irc
