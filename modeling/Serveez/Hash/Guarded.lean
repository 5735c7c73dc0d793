import Serveez.Hash.Refinement

/-!
# Tables that compare more coarsely than their codes

A table whose `equals` takes keys with different codes for the same is not what `Lawful` asks for.
The search compares the codes first, so such a table behaves as one that only takes keys for the
same if their codes are the same as well (`Callbacks.guarded`).

* `apply_configured`: both tables stay the same but for their callbacks.
* `svzHashGet_guarded`: what the table answers, as a finite map with the keys of the other table.
-/

namespace Serveez.Hash

open Lib

/-- Keys are the same if their codes are as well. -/
def Callbacks.guarded (c : Callbacks) : Callbacks :=
  { c with equals := fun a b => if c.code a = c.code b then c.equals a b else -1 }

variable {V : Type} {c : Callbacks}

theorem guarded_equals {a b : Bytes} :
    c.guarded.equals a b = 0 ↔ c.code a = c.code b ∧ c.equals a b = 0 := by
  unfold Callbacks.guarded
  dsimp only
  split
  · next hcode => exact (and_iff_right hcode).symm
  · next hcode => exact iff_of_false (by decide) (fun hboth => hcode hboth.1)

/-- The other callbacks of a table only have to be lawful where the codes agree. -/
theorem guarded_lawful (hequal : Equivalence (fun a b => c.equals a b = 0))
    (hkeylen : ∀ k, c.equals (copyKey c k) k = 0 ∧ c.code (copyKey c k) = c.code k) :
    c.guarded.Lawful where
  equivalence := by
    refine ⟨fun a => ?_, fun hab => ?_, fun hab hbd => ?_⟩
    · exact guarded_equals.mpr ⟨rfl, hequal.refl a⟩
    · obtain ⟨hcode, hsame⟩ := guarded_equals.mp hab
      exact guarded_equals.mpr ⟨hcode.symm, hequal.symm hsame⟩
    · obtain ⟨hcode, hsame⟩ := guarded_equals.mp hab
      obtain ⟨hcode', hsame'⟩ := guarded_equals.mp hbd
      exact guarded_equals.mpr ⟨hcode.trans hcode', hequal.trans hsame hsame'⟩
  code_eq := fun _ _ hab => (guarded_equals.mp hab).1
  keylen_copy := fun k => guarded_equals.mpr ⟨(hkeylen k).2, (hkeylen k).1⟩

/-! ## The same table with other callbacks -/

def SvzHash.configured (c : Callbacks) (hash : SvzHash V) : SvzHash V :=
  { hash with callbacks := c }

theorem expandBucket_configured (n : Nat) :
    ∀ (fuel e : Nat) (hash : SvzHash V),
      expandBucket n fuel e (hash.configured c) = (expandBucket n fuel e hash).configured c := by
  intro fuel
  induction fuel with
  | zero => exact fun _ _ => rfl
  | succ fuel ih =>
    intro e hash
    have htable : (hash.configured c).table = hash.table := rfl
    have hbuckets : (hash.configured c).buckets = hash.buckets := rfl
    rw [expandBucket, expandBucket, htable, hbuckets]
    cases (bucket hash.table n)[e]? with
    | none => rfl
    | some x =>
      dsimp only
      by_cases hslot : n ≠ hashBucket x.code hash.buckets
      · rw [if_pos hslot, if_pos hslot]
        exact ih e (dropEntry (pushEntry hash (hashBucket x.code hash.buckets) x) n e)
      · rw [if_neg hslot, if_neg hslot]
        exact ih (e + 1) hash

/-- What a fold does to a table does not depend on the callbacks if its steps do not. -/
theorem foldl_configured {α : Type} {f : SvzHash V → α → SvzHash V}
    (hf : ∀ hash a, f (hash.configured c) a = (f hash a).configured c) :
    ∀ (l : List α) (hash : SvzHash V),
      l.foldl f (hash.configured c) = (l.foldl f hash).configured c := by
  intro l
  induction l with
  | nil => exact fun _ => rfl
  | cons a l ih =>
    intro hash
    rw [List.foldl_cons, List.foldl_cons, hf, ih]

theorem rehash_configured (hash : SvzHash V) (type : RehashType) :
    rehash (hash.configured c) type = (rehash hash type).configured c := by
  cases type with
  | expand =>
    refine foldl_configured (fun hash n => ?_) _ (expandTable hash)
    exact expandBucket_configured n _ 0 hash
  | shrink =>
    have hshrink (hash : SvzHash V) (n : Nat) :
        shrinkBucket (hash.configured c) n = (shrinkBucket hash n).configured c := by
      unfold shrinkBucket
      have hpush := foldl_configured (c := c)
        (f := fun (hash : SvzHash V) x => pushEntry hash (hashBucket x.code hash.buckets) x)
        (fun _ _ => rfl) (bucket hash.table n) hash
      dsimp only [SvzHash.configured] at hpush ⊢
      rw [hpush]
    have hbuckets : (hash.configured c).buckets = hash.buckets := rfl
    rw [rehash, rehash, hbuckets]
    by_cases hlarge : hash.buckets > minSize
    · rw [if_pos hlarge, if_pos hlarge]
      have hfold := foldl_configured hshrink
        (List.range' (hash.buckets >>> 1) (hash.buckets >>> 1))
        { hash with buckets := hash.buckets >>> 1 }
      dsimp only [SvzHash.configured] at hfold ⊢
      rw [hfold]
    · rw [if_neg hlarge, if_neg hlarge]

/-! ## Operations -/

theorem findEntry_configured {hash : SvzHash V} (hcallbacks : hash.callbacks = c.guarded)
    (hcode : ∀ x ∈ hash.table.flatten, x.code = c.code x.key) (key : Bytes) :
    findEntry (hash.configured c) key = findEntry hash key := by
  have hmatch : ∀ x ∈ bucket hash.table (hashBucket (c.code key) hash.buckets),
      entryMatches c (c.code key) key x = entryMatches c.guarded (c.code key) key x := by
    intro x hx
    have hx' := hcode x (mem_flatten_iff_bucket.mpr ⟨_, hx⟩)
    unfold entryMatches
    by_cases hsame : x.code = c.code key
    · have hkeys : c.code x.key = c.code key := hx'.symm.trans hsame
      simp [Callbacks.guarded, hkeys]
    · have hbeq : (x.code == c.code key) = false := beq_false_of_ne hsame
      rw [hbeq, Bool.false_and, Bool.false_and]
  have hfind : ∀ l : List (SvzHashEntry V),
      (∀ x ∈ l, entryMatches c (c.code key) key x =
        entryMatches c.guarded (c.code key) key x) →
      l.findIdx? (entryMatches c (c.code key) key) =
        l.findIdx? (entryMatches c.guarded (c.code key) key) := by
    intro l
    induction l with
    | nil => exact fun _ => rfl
    | cons x l ih =>
      intro hl
      rw [List.findIdx?_cons, List.findIdx?_cons, hl x List.mem_cons_self,
        ih (fun y hy => hl y (List.mem_cons_of_mem x hy))]
  have hsearch := hfind _ hmatch
  unfold findEntry
  rw [hcallbacks]
  dsimp only [SvzHash.configured]
  rw [hsearch]
  rfl

theorem rehash_if_configured (p : Prop) [Decidable p] (hash : SvzHash V) (type : RehashType) :
    (if p then rehash (hash.configured c) type else hash.configured c) =
      (if p then rehash hash type else hash).configured c := by
  split
  · exact rehash_configured hash type
  · rfl

/-- What `svz_hash_put` does with a new entry. -/
theorem svzHashPut_new {hash : SvzHash V} {key : Bytes} (value : Option V)
    (hfind : findEntry hash key = none) :
    svzHashPut hash key value =
      let code := hash.callbacks.code key
      let i := hashBucket code hash.buckets
      let grown : SvzHash V :=
        { pushEntry hash i ⟨code, copyKey hash.callbacks key, value⟩ with keys := hash.keys + 1 }
      (if (bucket hash.table i).length + 1 = 1 ∧ grown.fill.toNat > hashExpandLimit grown then
        rehash grown .expand else grown, none) := by
  rw [svzHashPut, hfind]
  dsimp only
  split <;> rfl

/-- What `svz_hash_delete` does with the entry found. -/
theorem svzHashDelete_found {hash : SvzHash V} {key : Bytes} {n : Nat} {x : SvzHashEntry V}
    (hfind : findEntry hash key = some (n, x)) :
    svzHashDelete hash key =
      let i := hashBucket (hash.callbacks.code key) hash.buckets
      let dropped := dropEntry hash i n
      let shrunk := if (bucket hash.table i).length - 1 = 0 ∧
        dropped.fill.toNat < hashShrinkLimit dropped then rehash dropped .shrink else dropped
      ({ shrunk with keys := shrunk.keys - 1 }, x.value) := by
  rw [svzHashDelete, hfind]

theorem apply_configured {hash : SvzHash V} (hcallbacks : hash.callbacks = c.guarded)
    (hcode : ∀ x ∈ hash.table.flatten, x.code = c.code x.key) (op : Op V) :
    op.apply (hash.configured c) = ((op.apply hash).1.configured c, (op.apply hash).2) := by
  have hguarded : c.guarded.code = c.code := rfl
  cases op with
  | put key value =>
    have hfind := findEntry_configured hcallbacks hcode key
    unfold Op.apply
    dsimp only
    cases hfound : findEntry hash key with
    | some found =>
      rw [hfound] at hfind
      rw [svzHashPut, svzHashPut, hfind, hfound, hcallbacks]
      rfl
    | none =>
      rw [hfound] at hfind
      rw [svzHashPut_new value hfind, svzHashPut_new value hfound, hcallbacks, hguarded]
      let i := hashBucket (c.code key) hash.buckets
      let grown : SvzHash V :=
        { pushEntry hash i ⟨c.code key, copyKey c.guarded key, value⟩ with keys := hash.keys + 1 }
      exact congrArg (·, none) (rehash_if_configured (c := c)
        ((bucket hash.table i).length + 1 = 1 ∧ grown.fill.toNat > hashExpandLimit grown)
        grown .expand)
  | delete key =>
    have hfind := findEntry_configured hcallbacks hcode key
    unfold Op.apply
    dsimp only
    cases hfound : findEntry hash key with
    | none =>
      rw [hfound] at hfind
      rw [svzHashDelete, svzHashDelete, hfind, hfound]
    | some found =>
      rw [hfound] at hfind
      rw [svzHashDelete_found hfind, svzHashDelete_found hfound, hcallbacks, hguarded]
      let i := hashBucket (c.code key) hash.buckets
      let dropped := dropEntry hash i found.1
      exact congrArg (fun shrunk : SvzHash V =>
        ({ shrunk with keys := shrunk.keys - 1 }, found.2.value))
          (rehash_if_configured (c := c) ((bucket hash.table i).length - 1 = 0 ∧
            dropped.fill.toNat < hashShrinkLimit dropped) dropped .shrink)

/-! ## Runs -/

theorem run_configured {hlawful : c.guarded.Lawful} :
    ∀ (ops : List (Op V)) (hash : SvzHash V) (m : Map hlawful V), Represents hlawful hash m →
      run (hash.configured c) ops = (run hash ops).configured c ∧
        answers (hash.configured c) ops = answers hash ops := by
  intro ops
  induction ops with
  | nil => exact fun _ _ _ => ⟨rfl, rfl⟩
  | cons op ops ih =>
    intro hash m hr
    have hcode : ∀ x ∈ hash.table.flatten, x.code = c.code x.key := by
      intro x hx
      rw [hr.code x hx, hr.callbacks]
      rfl
    have hstep := apply_configured hr.callbacks hcode op
    obtain ⟨hrun, hanswers⟩ := ih _ _ (represents_apply hr op).1
    constructor
    · show run (op.apply (hash.configured c)).1 ops = _
      rw [hstep, hrun]
      rfl
    · rw [answers, answers, hstep, hanswers]

/-- What `svzHashGet` returns for an entry that was found. -/
def entryValue : Option (Nat × SvzHashEntry V) → Option V
  | some (_, x) => x.value
  | none => none

/-- A table that compares more coarsely than its codes answers as the finite map whose keys are the
same if their codes are as well. -/
theorem svzHashGet_guarded (hlawful : c.guarded.Lawful) {size : Nat} (hsize : 1 ≤ size) :
    ∃ created : SvzHash V, svzHashCreate size = some created ∧
      ∀ ops : List (Op V),
        answers (created.configured c) ops = specAnswers hlawful ∅ ops ∧
        ∀ key, svzHashGet (run (created.configured c) ops) key =
          ((specRun hlawful ∅ ops).lookup (hlawful.key key)).join := by
  obtain ⟨k, hk, hcreate⟩ := svzHashCreate_eq (V := V) hsize
  refine ⟨_, hcreate, fun ops => ?_⟩
  have hempty : Represents hlawful (_ : SvzHash V) ∅ := represents_empty hk
  obtain ⟨hrun, hanswers⟩ := run_configured ops _ _ hempty
  obtain ⟨hr, hspec⟩ := run_refines ops _ _ hempty
  refine ⟨hanswers.trans hspec, fun key => ?_⟩
  have hcode := fun x hx => hr.code x hx
  rw [hr.callbacks] at hcode
  have hfind := findEntry_configured hr.callbacks hcode key
  rw [← hrun] at hfind
  rw [← svzHashGet_eq_lookup hr]
  exact congrArg entryValue hfind

end Serveez.Hash
