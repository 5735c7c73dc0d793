import Serveez.Lib.Cut
import Serveez.Passthrough.Envblock

/-!
# An environment block as a map from names to values

The additions are taken one after another from the block that `svz_envblock_create` returns.
Adding a name replaces the first entry whose name it begins; the block stays a map as long as
that entry has the name itself.

* `addAll_eq`: the entries after a run of additions.
* `forall_isMap_iff`: the block is a map after each addition of a run, exactly if no addition
  meets a longer name first.
-/

namespace Serveez.Env

open Lib

/-- What `svz_envblock_add` asks of its callers: `VAR=VALUE`, which the buffer has room for. -/
structure Var where
  name : Text
  value : Text
  name_ne_nil : name ≠ []
  eq_notMem_name : '=' ∉ name
  fits : (name ++ '=' :: value).length < vsnprintfBufSize

def Var.text (v : Var) : Text := v.name ++ '=' :: v.value

/-- The block after the additions `ops`, in this order, to a fresh block. -/
def addAll (ops : List Var) : Option Envblock :=
  ops.foldlM (fun env v => svzEnvblockAdd env v.text) svzEnvblockCreate

/-- The last addition of a name. -/
def latest (ops : List Var) (name : Text) : Option Var :=
  ops.reverse.find? (fun v => v.name = name)

/-- The array holds the given entries and then the null pointer. A fresh block, which has no
array, holds no entries. -/
def HasEntries (env : Envblock) (entries : List Text) : Prop :=
  env.size = entries.length ∧
    (env.entry = entries.map .str ++ [.null] ∨ entries = [] ∧ env.entry = [])

/-- One entry for each name of `ops`, with the value of its last addition. -/
def IsMap (ops : List Var) (env : Envblock) : Prop :=
  ∃ vars : List Var, HasEntries env (vars.map Var.text) ∧ (vars.map Var.name).Nodup ∧
    ∀ v, v ∈ vars ↔ latest ops v.name = some v

/-! ## The variables of a block -/

theorem takeWhile_text (v : Var) : v.text.takeWhile (· ≠ '=') = v.name :=
  Lib.takeWhile_ne_cut v.eq_notMem_name v.value

theorem text_injective : Function.Injective Var.text := by
  intro v w h
  have hname : v.name = w.name := by rw [← takeWhile_text v, h, takeWhile_text]
  have hvalue : v.value = w.value := by
    simp only [Var.text, hname] at h
    simpa using h
  cases v
  cases w
  simp_all

theorem vsnprintf_text (v : Var) : vsnprintf v.text = v.text := by
  have hfits : v.text.length < vsnprintfBufSize := v.fits
  exact List.take_of_length_le (by omega)

theorem strchr_eq_some {name : Text} (h : '=' ∉ name) (value : Text) :
    strchr (name ++ '=' :: value) '=' = some name.length := by
  rw [strchr, List.findIdx?_append]
  have hnone : name.findIdx? (fun c => decide (c = '=')) = none := by
    rw [List.findIdx?_eq_none_iff]
    intro c hc
    have hne : c ≠ '=' := fun heq => h (heq ▸ hc)
    simp [hne]
  rw [hnone]
  simp [List.findIdx?_cons]

/-- A name ends before the `=` of an entry it begins. -/
theorem prefix_text_iff {name : Text} (h : '=' ∉ name) {name' : Text} (value : Text) :
    name <+: name' ++ '=' :: value ↔ name <+: name' := by
  constructor
  · intro hpre
    obtain hlt | hle := Nat.lt_or_ge name'.length name.length
    · -- a longer one would have the `=` in it
      have hin : name' ++ ['='] <+: name := by
        refine List.prefix_of_prefix_length_le ⟨value, by simp⟩ hpre ?_
        rw [List.length_append, List.length_singleton]
        exact hlt
      exact absurd (hin.subset (by simp)) h
    · exact List.prefix_of_prefix_length_le hpre (List.prefix_append _ _) hle
  · exact fun hpre => hpre.trans (List.prefix_append _ _)

/-- The new variable replaces the first one whose name begins with its own. -/
def put (l : List Var) (v : Var) : List Var :=
  match l.findIdx? (fun w => v.name.isPrefixOf w.name) with
  | some n => l.set n v
  | none => l ++ [v]

theorem putText_map_text (l : List Var) (v : Var) :
    putText (l.map Var.text) v.name v.text = (put l v).map Var.text := by
  have hpred : (fun s : Text => v.name.isPrefixOf s) ∘ Var.text =
      fun w : Var => v.name.isPrefixOf w.name := by
    funext w
    rw [Function.comp_apply, Bool.eq_iff_iff, List.isPrefixOf_iff_prefix,
      List.isPrefixOf_iff_prefix]
    exact prefix_text_iff v.eq_notMem_name w.value
  rw [putText, put, List.findIdx?_map, hpred]
  cases l.findIdx? (fun w => v.name.isPrefixOf w.name) with
  | some n => simp [List.map_set]
  | none => simp

/-- The variables in the block after a run of additions. -/
def vars (ops : List Var) : List Var := ops.foldl put []

theorem vars_concat (ops : List Var) (v : Var) : vars (ops ++ [v]) = put (vars ops) v :=
  foldl_concat put [] ops v

theorem addAll_eq (ops : List Var) : addAll ops = some (ofTexts ((vars ops).map Var.text)) := by
  induction ops using List.reverseRecOn with
  | nil => rfl
  | append_singleton ops v ih =>
    have hchr : strchr (vsnprintf v.text) '=' = some v.name.length := by
      rw [vsnprintf_text]
      exact strchr_eq_some v.eq_notMem_name v.value
    have hname : v.text.take v.name.length = v.name := List.take_left
    rw [addAll, List.foldlM_append]
    change (addAll ops).bind _ = _
    rw [ih, Option.bind_some, List.foldlM_cons, svzEnvblockAdd_ofTexts _ hchr, vsnprintf_text,
      hname, putText_map_text, ← vars_concat]
    rfl

theorem hasEntries_ofTexts_iff {l l' : List Text} : HasEntries (ofTexts l) l' ↔ l = l' := by
  constructor
  · rintro ⟨hsize, hentry⟩
    by_cases hl : l = []
    · subst hl
      exact (List.length_eq_zero_iff.mp hsize.symm).symm
    · rw [ofTexts_of_ne_nil hl] at hentry
      obtain hentry | ⟨-, hentry⟩ := hentry
      · have hinj : Function.Injective Cell.str := fun a b hab => Cell.str.inj hab
        exact List.map_injective_iff.mpr hinj (List.append_cancel_right hentry)
      · simp at hentry
  · rintro rfl
    refine ⟨rfl, ?_⟩
    by_cases hl : l = []
    · exact Or.inr ⟨hl, by rw [hl]; rfl⟩
    · exact Or.inl (by rw [ofTexts_of_ne_nil hl])

/-- What `IsMap` says of the variables. -/
def VarsAreMap (ops l : List Var) : Prop :=
  (l.map Var.name).Nodup ∧ ∀ v, v ∈ l ↔ latest ops v.name = some v

theorem isMap_addAll_iff (ops : List Var) :
    (∃ env, addAll ops = some env ∧ IsMap ops env) ↔ VarsAreMap ops (vars ops) := by
  rw [addAll_eq]
  constructor
  · rintro ⟨env, henv, l, hl, hmap⟩
    cases henv
    rw [hasEntries_ofTexts_iff, (List.map_injective_iff.mpr text_injective).eq_iff] at hl
    exact hl ▸ hmap
  · exact fun hmap => ⟨_, rfl, vars ops, hasEntries_ofTexts_iff.mpr rfl, hmap⟩

/-! ## One addition -/

/-- The first name of `names` that begins with `name`. -/
def firstFrom (names : List Text) (name : Text) : Option Text :=
  names.find? (fun m => name.isPrefixOf m)

/-- What an addition does: it appends, or replaces the first entry that it begins. -/
theorem put_cases (l : List Var) (v : Var) :
    (firstFrom (l.map Var.name) v.name = none ∧ put l v = l ++ [v]) ∨
    ∃ a w b, l = a ++ w :: b ∧ firstFrom (l.map Var.name) v.name = some w.name ∧
      put l v = a ++ v :: b := by
  have hnames : firstFrom (l.map Var.name) v.name =
      (l.find? (fun w => v.name.isPrefixOf w.name)).map Var.name := by
    rw [firstFrom, List.find?_map]
    rfl
  unfold put
  cases hfind : l.findIdx? (fun w => v.name.isPrefixOf w.name) with
  | none =>
    rw [List.findIdx?_eq_none_iff] at hfind
    refine Or.inl ⟨?_, rfl⟩
    rw [hnames, List.find?_eq_none.mpr (fun w hw => by simp [hfind w hw])]
    rfl
  | some n =>
    obtain ⟨hn, hpos, hbefore⟩ := List.findIdx?_eq_some_iff_getElem.mp hfind
    refine Or.inr ⟨l.take n, l[n], l.drop (n + 1), ?_, ?_, ?_⟩
    · rw [← List.drop_eq_getElem_cons hn, List.take_append_drop]
    · have hfirst : l.find? (fun w => v.name.isPrefixOf w.name) = some l[n] := by
        rw [List.find?_eq_some_iff_getElem]
        exact ⟨hpos, n, hn, rfl, fun j hj => by simp [hbefore j hj]⟩
      rw [hnames, hfirst]
      rfl
    · show l.set n v = _
      rw [List.set_eq_take_append_cons_drop, if_pos hn]

theorem latest_concat (ops : List Var) (v : Var) (name : Text) :
    latest (ops ++ [v]) name = if v.name = name then some v else latest ops name := by
  rw [latest, List.reverse_append, List.reverse_singleton, List.singleton_append, List.find?_cons]
  by_cases h : v.name = name
  · simp [h]
  · simp [h, latest]

/-- The order of the entries is that of the first additions of their names. -/
def InOrder (ops l : List Var) : Prop :=
  ∀ name, firstFrom (l.map Var.name) name = firstFrom (ops.map Var.name) name

theorem firstFrom_concat (names : List Text) (m name : Text) :
    firstFrom (names ++ [m]) name =
      (firstFrom names name).or (if name <+: m then some m else none) := by
  rw [firstFrom, List.find?_append, firstFrom, List.find?_singleton]
  simp only [List.isPrefixOf_iff_prefix]

/-- A name that comes again is found no later than before. -/
theorem firstFrom_concat_of_mem {names : List Text} {m : Text} (hm : m ∈ names) (name : Text) :
    firstFrom (names ++ [m]) name = firstFrom names name := by
  rw [firstFrom_concat]
  cases hfind : firstFrom names name with
  | some found => rfl
  | none =>
    have hnot : ¬ name <+: m := by
      intro hpre
      exact List.find?_eq_none.mp hfind m hm (List.isPrefixOf_iff_prefix.mpr hpre)
    rw [if_neg hnot]
    rfl

/-- The new name is its own beginning, so with it there is always a match. -/
theorem ne_of_firstFrom_eq_none {l : List Var} {v : Var}
    (h : firstFrom (l.map Var.name) v.name = none) {w : Var} (hw : w ∈ l) : w.name ≠ v.name := by
  intro heq
  refine List.find?_eq_none.mp h w.name (List.mem_map_of_mem hw) ?_
  rw [heq]
  exact List.isPrefixOf_iff_prefix.mpr List.prefix_rfl

theorem VarsAreMap.append {ops l : List Var} {v : Var} (h : VarsAreMap ops l)
    (hfresh : ∀ w ∈ l, w.name ≠ v.name) : VarsAreMap (ops ++ [v]) (l ++ [v]) := by
  obtain ⟨hnodup, hmem⟩ := h
  constructor
  · rw [List.map_append, List.map_singleton, ← List.concat_eq_append]
    refine hnodup.concat ?_
    intro hin
    obtain ⟨w, hw, hname⟩ := List.mem_map.mp hin
    exact hfresh w hw hname
  · intro x
    rw [latest_concat, List.mem_append, List.mem_singleton]
    by_cases hx : v.name = x.name
    · rw [if_pos hx, Option.some_inj]
      constructor
      · rintro (hin | rfl)
        · exact absurd hx.symm (hfresh x hin)
        · rfl
      · exact fun hvx => Or.inr hvx.symm
    · rw [if_neg hx, ← hmem x]
      exact or_iff_left (fun hxv => hx (congrArg Var.name hxv.symm))

theorem VarsAreMap.replace {ops a b : List Var} {v w : Var} (h : VarsAreMap ops (a ++ w :: b))
    (hname : w.name = v.name) : VarsAreMap (ops ++ [v]) (a ++ v :: b) := by
  obtain ⟨hnodup, hmem⟩ := h
  have hnames : (a ++ v :: b).map Var.name = (a ++ w :: b).map Var.name := by simp [hname]
  refine ⟨hnames ▸ hnodup, ?_⟩
  -- the name of the replaced variable occurs once
  have hother : ∀ x ∈ a ++ b, x.name ≠ v.name := by
    intro x hx heq
    have hsplit := (List.perm_middle.map Var.name).nodup_iff.mp hnodup
    rw [List.map_cons, List.nodup_cons] at hsplit
    exact hsplit.1 (hname ▸ heq ▸ List.mem_map_of_mem hx)
  intro x
  rw [latest_concat]
  by_cases hx : v.name = x.name
  · rw [if_pos hx, Option.some_inj]
    constructor
    · intro hin
      rcases List.mem_cons.mp (List.perm_middle.mem_iff.mp hin) with hxv | hin
      · exact hxv.symm
      · exact absurd hx.symm (hother x hin)
    · rintro rfl
      simp
  · rw [if_neg hx, ← hmem x, List.perm_middle.mem_iff, List.perm_middle.mem_iff, List.mem_cons,
      List.mem_cons]
    have hxv : x ≠ v := fun heq => hx (congrArg Var.name heq.symm)
    have hxw : x ≠ w := fun heq => hx (hname ▸ congrArg Var.name heq.symm)
    simp [hxv, hxw]

/-- An overwritten variable of another name is gone. -/
theorem VarsAreMap.name_eq_of_replace {ops a b : List Var} {v w : Var}
    (h : VarsAreMap ops (a ++ w :: b)) (h' : VarsAreMap (ops ++ [v]) (a ++ v :: b)) :
    w.name = v.name := by
  by_contra hne
  have hw : latest (ops ++ [v]) w.name = some w := by
    rw [latest_concat, if_neg (fun heq => hne heq.symm)]
    exact (h.2 w).mp (by simp)
  have hin : w ∈ a ++ v :: b := (h'.2 w).mpr hw
  rw [List.perm_middle.mem_iff, List.mem_cons] at hin
  have hgone : w ∉ a ++ b := by
    intro hab
    have hsplit := (List.perm_middle.map Var.name).nodup_iff.mp h.1
    rw [List.map_cons, List.nodup_cons] at hsplit
    exact hsplit.1 (List.mem_map_of_mem hab)
  rcases hin with heq | hab
  · exact hne (congrArg Var.name heq)
  · exact hgone hab

/-! ## Runs of additions -/

/-- The addition meets no longer name first. -/
def MeetsOwnName (ops : List Var) (v : Var) : Prop :=
  ∀ name, firstFrom (ops.map Var.name) v.name = some name → name = v.name

theorem step_need {ops : List Var} {v : Var} (hord : InOrder ops (vars ops))
    (hmap : VarsAreMap ops (vars ops)) (hnext : VarsAreMap (ops ++ [v]) (vars (ops ++ [v]))) :
    MeetsOwnName ops v := by
  intro name hname
  rw [← hord v.name] at hname
  rw [vars_concat] at hnext
  rcases put_cases (vars ops) v with ⟨hnone, -⟩ | ⟨a, w, b, hl, hfirst, hput⟩
  · rw [hnone] at hname
    cases hname
  · rw [hfirst, Option.some_inj] at hname
    rw [hput] at hnext
    rw [hl] at hmap
    rw [← hname]
    exact hmap.name_eq_of_replace hnext

theorem step_keep {ops : List Var} {v : Var} (hord : InOrder ops (vars ops))
    (hmap : VarsAreMap ops (vars ops)) (hown : MeetsOwnName ops v) :
    InOrder (ops ++ [v]) (vars (ops ++ [v])) ∧
      VarsAreMap (ops ++ [v]) (vars (ops ++ [v])) := by
  rw [vars_concat]
  rcases put_cases (vars ops) v with ⟨hnone, hput⟩ | ⟨a, w, b, hl, hfirst, hput⟩
  · rw [hput]
    refine ⟨?_, hmap.append (fun w hw => ne_of_firstFrom_eq_none hnone hw)⟩
    intro name
    rw [List.map_append, List.map_append, List.map_singleton, firstFrom_concat, firstFrom_concat,
      hord name]
  · have hname : w.name = v.name := hown w.name (by rw [← hord v.name, hfirst])
    rw [hput]
    refine ⟨?_, VarsAreMap.replace (hl ▸ hmap) hname⟩
    have hnames : (a ++ v :: b).map Var.name = (vars ops).map Var.name := by rw [hl]; simp [hname]
    -- the name has been added before
    have hbefore : v.name ∈ ops.map Var.name := by
      rw [hord v.name, hname] at hfirst
      exact List.mem_of_find?_eq_some hfirst
    intro name
    rw [hnames, hord name, List.map_append, List.map_singleton, firstFrom_concat_of_mem hbefore]

theorem forall_isMap_iff (ops : List Var) :
    (∀ pre, pre <+: ops → ∃ env, addAll pre = some env ∧ IsMap pre env) ↔
      ∀ pre v, pre ++ [v] <+: ops → MeetsOwnName pre v := by
  simp only [isMap_addAll_iff]
  have hempty : VarsAreMap [] (vars []) := ⟨List.nodup_nil, fun v => by simp [vars, latest]⟩
  exact forall_prefix_iff_history (fun pre => InOrder pre (vars pre))
    (fun pre => VarsAreMap pre (vars pre)) MeetsOwnName (fun _ => rfl) hempty
    (fun _ _ _ hord hmap hnext => step_need hord hmap hnext)
    (fun _ _ _ hord hmap hown => step_keep hord hmap hown)

end Serveez.Env
