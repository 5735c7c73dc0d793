import Serveez.Hash.Refinement

/-!
# A walk over a table that its function changes

`svz_hash_foreach` holds a pointer to the bucket it is in, the index of the entry there, and
the number of calls made so far. The function that it calls may change the table under it. A
`rehash` moves the buckets, after which the pointer is stale and nothing can be said; a delete
in the same bucket moves the last entry to the place just visited; and every delete lowers the
number of keys that the calls are counted against.

* `svzHashVisit`: the walk with all of this, with a record of the calls.
* `DeletesOwn`: a function that at most deletes the key it is called with.
* `Undisturbed`: what it deletes does not disturb the walk.
-/

namespace Serveez.Hash

open Lib

variable {σ V : Type}

/-! ## The walk -/

/-- The closure, the table, and the calls so far with the table that each was made in. -/
structure Visit (σ V : Type) where
  closure : σ
  hash : SvzHash V
  calls : List (Bytes × SvzHash V)

/-- The function that is called: it has the closure and the table to change. -/
abbrev Func (σ V : Type) : Type := Bytes → Option V → σ × SvzHash V → σ × SvzHash V

/-- One call, with the entry `x`. -/
def visitEntry (func : Func σ V) (x : SvzHashEntry V) (v : Visit σ V) : Visit σ V :=
  let after := func x.key x.value (v.closure, v.hash)
  ⟨after.1, after.2, v.calls ++ [(x.key, v.hash)]⟩

/-- The inner loop, for the entries from `e` on of bucket `n`. The fuel is the number of entries
that are left when the loop begins, and there are never more. Without a result, the table has
been moved and `bucket` points to where it was. -/
def visitBucket (func : Func σ V) (n : Nat) : Nat → Nat → Nat → Visit σ V → Option (Nat × Visit σ V)
  | 0, _, i, v => some (i, v)
  | fuel + 1, e, i, v =>
    match (bucket v.hash.table n)[e]? with
    | none => some (i, v)
    | some x =>
      let v' := visitEntry func x v
      if v'.hash.buckets = v.hash.buckets then visitBucket func n fuel (e + 1) (i + 1) v' else none

/-- The outer loop, from bucket `n` on. -/
def visitBuckets (func : Func σ V) : Nat → Nat → Nat → Visit σ V → Option (Visit σ V)
  | 0, _, _, v => some v
  | fuel + 1, n, i, v =>
    if i < v.hash.keys ∧ n < v.hash.buckets then
      match visitBucket func n (bucket v.hash.table n).length 0 i v with
      | none => none
      | some (i, v) => visitBuckets func fuel (n + 1) i v
    else some v

/-- The outer loop goes through one bucket and on, or it ends. -/
theorem visitBuckets_succ {func : Func σ V} {fuel n i : Nat} {v v' : Visit σ V}
    (hrun : visitBuckets func (fuel + 1) n i v = some v') :
    v' = v ∨ ∃ i₁ v₁, visitBucket func n (bucket v.hash.table n).length 0 i v = some (i₁, v₁) ∧
      visitBuckets func fuel (n + 1) i₁ v₁ = some v' := by
  rw [visitBuckets] at hrun
  split at hrun
  · cases hone : visitBucket func n (bucket v.hash.table n).length 0 i v with
    | none =>
      simp only [hone] at hrun
      cases hrun
    | some p =>
      simp only [hone] at hrun
      exact Or.inr ⟨p.1, p.2, rfl, hrun⟩
  · exact Or.inl (Option.some.inj hrun).symm

/-- `svz_hash_foreach` for a function that may change the table. -/
def svzHashVisit (func : Func σ V) (closure : σ) (hash : SvzHash V) : Option (Visit σ V) :=
  visitBuckets func hash.buckets 0 0 ⟨closure, hash, []⟩

/-- What a walk promises: no entry is called for twice, a call is for an entry that the table
has at that time, and an entry that is still there at the end has been called for. -/
def VisitsOnce (hash : SvzHash V) (walk : Option (Visit σ V)) : Prop :=
  ∃ v, walk = some v ∧ (v.calls.map Prod.fst).Nodup ∧
    (∀ call ∈ v.calls, ∃ x ∈ call.2.table.flatten, x.key = call.1) ∧
    ∀ x ∈ hash.table.flatten, x ∈ v.hash.table.flatten → x.key ∈ v.calls.map Prod.fst

/-! ## Functions that delete the key they are called with -/

/-- On an entry of a table that represents a map, the function does to the closure what `f`
says, and deletes the entry if `f` says so. -/
def DeletesOwn {c : Callbacks} (hc : c.Lawful) (func : Func σ V)
    (f : σ → SvzHashEntry V → σ × Bool) : Prop :=
  ∀ closure h (m : Map hc V) x, Represents hc h m → x ∈ h.table.flatten →
    func x.key x.value (closure, h) =
      ((f closure x).1, if (f closure x).2 then (svzHashDelete h x.key).1 else h)

/-- The closure after calls for all entries of a list, and the entries that were deleted. -/
def sweep (f : σ → SvzHashEntry V → σ × Bool) : σ → List (SvzHashEntry V) →
    σ × List (SvzHashEntry V)
  | closure, [] => (closure, [])
  | closure, x :: l =>
    let rest := sweep f (f closure x).1 l
    (rest.1, if (f closure x).2 then x :: rest.2 else rest.2)

theorem sweep_append (f : σ → SvzHashEntry V → σ × Bool) (closure : σ)
    (l l' : List (SvzHashEntry V)) :
    sweep f closure (l ++ l') =
      ((sweep f (sweep f closure l).1 l').1,
        (sweep f closure l).2 ++ (sweep f (sweep f closure l).1 l').2) := by
  induction l generalizing closure with
  | nil => rfl
  | cons x l ih =>
    rw [List.cons_append, sweep, sweep, ih]
    cases (f closure x).2 <;> rfl

theorem length_sweep_le (f : σ → SvzHashEntry V → σ × Bool) (closure : σ)
    (l : List (SvzHashEntry V)) : (sweep f closure l).2.length ≤ l.length := by
  induction l generalizing closure with
  | nil => exact Nat.le_refl 0
  | cons x l ih =>
    have hrest := ih (f closure x).1
    rw [sweep]
    cases (f closure x).2 with
    | false =>
      simp only [Bool.false_eq_true, if_false, List.length_cons]
      omega
    | true =>
      simp only [if_true, List.length_cons]
      omega

section Condition

variable (f : σ → SvzHashEntry V → σ × Bool) (closure : σ) (hash : SvzHash V)

/-- The closure when the walk over a table at rest comes to bucket `n`. -/
def closureAt (n : Nat) : σ := (sweep f closure (hash.table.take n).flatten).1

/-- The number of entries deleted by then. -/
def deletedAt (n : Nat) : Nat := (sweep f closure (hash.table.take n).flatten).2.length

/-- Bucket `n` has one entry, which is deleted. -/
def Empties (n : Nat) : Prop :=
  ∃ x, bucket hash.table n = [x] ∧ (f (closureAt f closure hash n) x).2 = true

instance (n : Nat) : Decidable (Empties f closure hash n) :=
  match h : bucket hash.table n with
  | [] => isFalse (by rintro ⟨x, hx, -⟩; rw [h] at hx; cases hx)
  | [x] =>
    if hf : (f (closureAt f closure hash n) x).2 = true then isTrue ⟨x, h, hf⟩
    else isFalse (by rintro ⟨y, hy, hd⟩; rw [h] at hy; cases hy; exact hf hd)
  | _ :: _ :: _ => isFalse (by rintro ⟨x, hx, -⟩; rw [h] at hx; cases hx)

/-- The number of buckets among the first `n` that are emptied. -/
def emptiedAt (n : Nat) : Nat := (List.range n).countP (fun k => Empties f closure hash k)

/-- What the function deletes in bucket `n` and before does not disturb the walk there. -/
structure UndisturbedAt (n : Nat) : Prop where
  /-- Only the last entry of the bucket is deleted. -/
  last : (sweep f (closureAt f closure hash n) (bucket hash.table n).dropLast).2 = []
  /-- The table does not shrink. -/
  keeps : Empties f closure hash n → minSize < hash.buckets →
    hashShrinkLimit hash ≤ (hash.fill - UInt64.ofNat (emptiedAt f closure hash (n + 1))).toNat
  /-- If there are entries from here on, there are more of them than were deleted. -/
  ahead : (hash.table.drop n).flatten ≠ [] →
    deletedAt f closure hash n < (hash.table.drop n).flatten.length

def Undisturbed : Prop := ∀ n < hash.buckets, UndisturbedAt f closure hash n

end Condition

/-! ## The place of an entry -/

theorem lt_of_mem_bucket {α : Type*} {t : List (List α)} {n : Nat} {x : α} (hx : x ∈ bucket t n) :
    n < t.length := by
  by_contra hge
  rw [bucket_of_le (Nat.le_of_not_lt hge)] at hx
  cases hx

section Place

variable {c : Callbacks} {hc : c.Lawful} {h : SvzHash V} {m : Map hc V}

theorem Represents.nodup_keys (hr : Represents hc h m) :
    (h.table.flatten.map (fun x => hc.key x.key)).Nodup := by
  have hm := m.nodupKeys
  rw [hr.entries, Multiset.coe_nodupKeys] at hm
  have hkeys : (h.table.flatten.map (binding hc)).keys =
      h.table.flatten.map (fun x => hc.key x.key) := by
    rw [List.keys, List.map_map]
    rfl
  rw [← hkeys]
  exact hm

theorem Represents.eq_of_key (hr : Represents hc h m) {x y : SvzHashEntry V}
    (hx : x ∈ h.table.flatten) (hy : y ∈ h.table.flatten) (hkey : x.key = y.key) : x = y :=
  List.inj_on_of_nodup_map hr.nodup_keys hx hy (congrArg hc.key hkey)

theorem Represents.nodup (hr : Represents hc h m) : h.table.flatten.Nodup :=
  List.Nodup.of_map _ hr.nodup_keys

theorem Represents.place_unique (hr : Represents hc h m) {n e n' e' : Nat} {x : SvzHashEntry V}
    (hx : (bucket h.table n)[e]? = some x) (hx' : (bucket h.table n')[e']? = some x) :
    n = n' ∧ e = e' := by
  have hn : n = n' := by
    rw [← hr.shape.placed n x (List.mem_of_getElem? hx),
      ← hr.shape.placed n' x (List.mem_of_getElem? hx')]
  subst hn
  refine ⟨rfl, ?_⟩
  have hlt := lt_of_mem_bucket (List.mem_of_getElem? hx)
  have hsub : (bucket h.table n).Sublist h.table.flatten := by
    rw [bucket_eq_getElem hlt]
    exact List.sublist_flatten_of_mem (List.getElem_mem hlt)
  obtain ⟨he, hget⟩ := List.getElem?_eq_some_iff.mp hx
  obtain ⟨he', hget'⟩ := List.getElem?_eq_some_iff.mp hx'
  exact (hr.nodup.sublist hsub).getElem_inj_iff.mp (hget.trans hget'.symm)

theorem Represents.findEntry_at (hr : Represents hc h m) {n e : Nat} {x : SvzHashEntry V}
    (hx : (bucket h.table n)[e]? = some x) :
    hashBucket (h.callbacks.code x.key) h.buckets = n ∧ findEntry h x.key = some (e, x) := by
  have hmem := mem_flatten_of_getElem? hx
  have hslot : hashBucket (h.callbacks.code x.key) h.buckets = n := by
    rw [← hr.code x hmem]
    exact hr.shape.placed n x (List.mem_of_getElem? hx)
  refine ⟨hslot, ?_⟩
  have hself : c.equals x.key x.key = 0 := hc.equivalence.refl x.key
  cases hf : findEntry h x.key with
  | none =>
    obtain ⟨hcode, hin⟩ := hr.mem_bucket hmem hself
    exact absurd ⟨hcode, by rw [hr.callbacks]; exact hself⟩ (findEntry_none hf x hin)
  | some p =>
    obtain ⟨hp, -, heq⟩ := findEntry_some (e := p.1) (x := p.2) hf
    rw [hslot] at hp
    rw [hr.callbacks] at heq
    have hsame : p.2 = x := List.inj_on_of_nodup_map hr.nodup_keys (mem_flatten_of_getElem? hp)
      hmem ((key_eq_iff hc).mpr heq)
    rw [hsame] at hp
    obtain ⟨-, he⟩ := hr.place_unique hp hx
    rw [Option.some_inj, Prod.ext_iff]
    exact ⟨he, hsame⟩

theorem Represents.svzHashGet_at (hr : Represents hc h m) {x : SvzHashEntry V}
    (hx : x ∈ h.table.flatten) : svzHashGet h x.key = x.value := by
  obtain ⟨n, hn⟩ := mem_flatten_iff_bucket.mp hx
  obtain ⟨e, he⟩ := List.mem_iff_getElem?.mp hn
  unfold svzHashGet
  rw [(hr.findEntry_at he).2]

theorem Represents.svzHashDelete_at (hr : Represents hc h m) {n e : Nat} {x : SvzHashEntry V}
    (hx : (bucket h.table n)[e]? = some x) :
    (svzHashDelete h x.key).1 =
      { removeEntry h n e with keys := (removeEntry h n e).keys - 1 } := by
  obtain ⟨hslot, hfind⟩ := hr.findEntry_at hx
  rw [svzHashDelete_of_some hfind, hslot]

/-- The delete of the entry at `e` of bucket `n` shrinks the table. -/
def ShrinksAt (h : SvzHash V) (n : Nat) : Prop :=
  (bucket h.table n).length = 1 ∧ minSize < h.buckets ∧
    (h.fill - 1).toNat < hashShrinkLimit h

theorem removeEntry_of_not_shrinks {n e : Nat} (he : e < (bucket h.table n).length)
    (hnot : ¬ ShrinksAt h n) : removeEntry h n e = dropEntry h n e := by
  unfold removeEntry
  by_cases hone : (bucket h.table n).length - 1 = 0
  · by_cases hmin : minSize < h.buckets
    · have hfill : (dropEntry h n e).fill = h.fill - 1 := if_pos hone
      have hlimit : hashShrinkLimit (dropEntry h n e) = hashShrinkLimit h := rfl
      rw [if_neg]
      rintro ⟨-, hlt⟩
      rw [hfill, hlimit] at hlt
      exact hnot ⟨by omega, hmin, hlt⟩
    · split
      · exact rehash_shrink_of_le hmin
      · rfl
  · rw [if_neg (fun hall => hone hall.1)]

theorem removeEntry_buckets_of_shrinks (hs : Shape h) {n e : Nat} (hshrink : ShrinksAt h n)
    (he : e < (bucket h.table n).length) : (removeEntry h n e).buckets ≠ h.buckets := by
  obtain ⟨hone, hmin, hlt⟩ := hshrink
  have hzero : (bucket h.table n).length - 1 = 0 := by omega
  have hfill : (dropEntry h n e).fill = h.fill - 1 := if_pos hzero
  have hlimit : hashShrinkLimit (dropEntry h n e) = hashShrinkLimit h := rfl
  unfold removeEntry
  rw [if_pos ⟨hzero, by rw [hfill, hlimit]; exact hlt⟩]
  have hd := shape_dropEntry hs he
  obtain ⟨j, -, hk⟩ := hd.exists_half (h := dropEntry h n e) hmin
  obtain ⟨hb, -⟩ := shrink_spec hk hmin (hd.length.trans hk) (hk ▸ hd.placed)
  rw [hb]
  intro heq
  have hold : h.buckets = 2 ^ (j + 1) := hk
  rw [hold, Nat.pow_succ] at heq
  have := Nat.two_pow_pos j
  omega

end Place

end Serveez.Hash
