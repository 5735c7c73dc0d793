import Serveez.Hash.Shape
import Mathlib.Data.Nat.Log

/-!
# The size of a new table

`svz_hash_create` takes a `size_t` and rounds it down to a power of two by shifts. The loop is here
on machine words; `svz_malloc` ends the process when it cannot give as many bytes as it is asked
for, or is asked for none.

* `createRound_iterate`: the rounds, and what they make of the count.
* `svzHashCreate_buckets`: the plain numbers of `svzHashCreate` are those words.
* `rounded_iff`: the loop ends just for the sizes other than zero.
-/

namespace Serveez.Hash

/-- A round of the loop. -/
def createRound (s : UInt64 × UInt64) : UInt64 × UInt64 := (s.1 >>> 1, s.2 <<< 1)

/-- The loop, for at most `rounds` rounds. -/
def createLoop : Nat → UInt64 × UInt64 → Option UInt64
  | 0, _ => none
  | rounds + 1, s => if s.1 = 1 then some s.2 else createLoop rounds (createRound s)

/-- The number of buckets. -/
def bucketCount (rounds : Nat) (size : UInt64) : Option UInt64 :=
  (createLoop rounds (size, 1)).map fun count => if count < 4 then 4 else count

/-- The buckets that the block for a table has room for, `sizeof (svz_hash_bucket_t)` bytes each. -/
def tableRoom (memory : Nat) (buckets : UInt64) : Option Nat :=
  let bytes := 16 * buckets
  if bytes = 0 ∨ memory < bytes.toNat then none else some (bytes.toNat / 16)

/-- The count is the largest power of two that is not greater than the size, or the least number of
buckets; it has been doubled without an overflow, and a block for the buckets has room for them.
There is no block for `2 ^ 60` buckets or more: the number of its bytes becomes 0. -/
structure Rounded (size buckets : UInt64) : Prop where
  count : ∃ e, 2 ^ e ≤ size.toNat ∧ size.toNat < 2 ^ (e + 1) ∧
    buckets.toNat = max (2 ^ e) minSize ∧
    ∀ k, k ≤ e → (createRound^[k] (size, 1)).2.toNat = 2 ^ k
  room : ∀ memory room, tableRoom memory buckets = some room → room = buckets.toNat

theorem createRound_iterate {size : UInt64} {e : Nat} (he : 2 ^ e ≤ size.toNat) (k : Nat)
    (hk : k ≤ e) :
    (createRound^[k] (size, 1)).1.toNat = size.toNat / 2 ^ k ∧
      (createRound^[k] (size, 1)).2.toNat = 2 ^ k := by
  induction k with
  | zero =>
    refine ⟨?_, rfl⟩
    rw [Nat.pow_zero, Nat.div_one]
    rfl
  | succ k ih =>
    obtain ⟨hsize, hcount⟩ := ih (by omega)
    rw [Function.iterate_succ_apply']
    generalize createRound^[k] (size, 1) = s at hsize hcount
    constructor
    · show (s.1 >>> 1).toNat = _
      rw [UInt64.toNat_shiftRight, hsize, Nat.pow_succ, ← Nat.div_div_eq_div_mul]
      exact Nat.shiftRight_eq_div_pow _ 1
    · show (s.2 <<< 1).toNat = _
      -- the doubled count is not greater than the size
      have hle : 2 ^ (k + 1) ≤ size.toNat :=
        Nat.le_trans (Nat.pow_le_pow_right (by omega) hk) he
      have hlt := Nat.lt_of_le_of_lt hle size.toNat_lt
      rw [UInt64.toNat_shiftLeft, hcount]
      have hshift : (2 ^ k) <<< ((1 : UInt64).toNat % 64) = 2 ^ (k + 1) := by
        rw [Nat.shiftLeft_eq, Nat.pow_succ]
        rfl
      rw [hshift]
      exact Nat.mod_eq_of_lt hlt

theorem createLoop_iterate (e : Nat) (s : UInt64 × UInt64) (hend : (createRound^[e] s).1 = 1)
    (hgo : ∀ k, k < e → (createRound^[k] s).1 ≠ 1) :
    createLoop (e + 1) s = some (createRound^[e] s).2 := by
  induction e generalizing s with
  | zero => exact if_pos hend
  | succ e ih =>
    have hfirst : s.1 ≠ 1 := hgo 0 (Nat.succ_pos e)
    rw [createLoop, if_neg hfirst, Function.iterate_succ_apply]
    apply ih
    · exact hend
    · exact fun k hk => hgo (k + 1) (Nat.succ_lt_succ hk)

theorem createLoop_eq {size : UInt64} {e : Nat} (he : 2 ^ e ≤ size.toNat)
    (hlt : size.toNat < 2 ^ (e + 1)) :
    createLoop (e + 1) (size, 1) = some (createRound^[e] (size, 1)).2 := by
  apply createLoop_iterate
  · apply UInt64.toNat_inj.mp
    rw [(createRound_iterate he e (Nat.le_refl e)).1]
    refine Nat.div_eq_of_lt_le ?_ ?_
    · rw [UInt64.toNat_one, Nat.one_mul]
      exact he
    · rw [UInt64.toNat_one, ← Nat.pow_succ']
      exact hlt
  · intro k hk hone
    have hdiv := (createRound_iterate he k (Nat.le_of_lt hk)).1
    rw [hone, UInt64.toNat_one] at hdiv
    -- at least two are left before the last round
    have hle : 2 * 2 ^ k ≤ size.toNat := by
      rw [← Nat.pow_succ']
      exact Nat.le_trans (Nat.pow_le_pow_right (by omega) hk) he
    have htwo := (Nat.le_div_iff_mul_le (Nat.two_pow_pos k)).mpr hle
    omega

theorem createLoop_zero (rounds : Nat) (count : UInt64) : createLoop rounds (0, count) = none := by
  induction rounds generalizing count with
  | zero => rfl
  | succ rounds ih =>
    have hzero : (0 : UInt64) >>> 1 = 0 := by decide
    have hround : createRound (0, count) = ((0 : UInt64), count <<< 1) := Prod.ext hzero rfl
    have hnot : (0 : UInt64) ≠ 1 := by decide
    rw [createLoop, if_neg hnot, hround]
    exact ih (count <<< 1)

/-- With fuel for its rounds, the loop on plain numbers multiplies by the power of two. -/
theorem binarySize_eq {e fuel n count : Nat} (he : 2 ^ e ≤ n) (hlt : n < 2 ^ (e + 1))
    (hfuel : e < fuel) : binarySize fuel n count = some (count * 2 ^ e) := by
  induction e generalizing fuel n count with
  | zero =>
    obtain ⟨fuel, rfl⟩ := Nat.exists_eq_succ_of_ne_zero (Nat.ne_of_gt hfuel)
    rw [binarySize, if_pos (by omega), Nat.pow_zero, Nat.mul_one]
  | succ e ih =>
    obtain ⟨fuel, rfl⟩ := Nat.exists_eq_succ_of_ne_zero (Nat.ne_of_gt (Nat.lt_of_le_of_lt
      (Nat.zero_le _) hfuel))
    have hhalf : n >>> 1 = n / 2 := Nat.shiftRight_eq_div_pow n 1
    have hone := Nat.one_lt_two_pow (Nat.succ_ne_zero e)
    rw [binarySize, if_neg (by omega), hhalf, Nat.shiftLeft_eq, Nat.pow_one]
    rw [Nat.pow_succ] at he hlt
    rw [ih (by omega) (by omega) (by omega), Nat.pow_succ', Nat.mul_assoc]

theorem bucketCount_eq {size : UInt64} {e : Nat} (he : 2 ^ e ≤ size.toNat)
    (hlt : size.toNat < 2 ^ (e + 1)) :
    ∃ buckets, bucketCount (e + 1) size = some buckets ∧
      buckets.toNat = max (2 ^ e) minSize := by
  have hcount := (createRound_iterate he e (Nat.le_refl e)).2
  unfold bucketCount
  rw [createLoop_eq he hlt, Option.map_some]
  refine ⟨_, rfl, ?_⟩
  generalize (createRound^[e] (size, 1)).2 = count at hcount
  unfold minSize
  split
  · next hsmall =>
    have hfour : (4 : UInt64).toNat = 4 := rfl
    have hless := UInt64.lt_iff_toNat_lt.mp hsmall
    rw [hfour] at hless ⊢
    omega
  · next hlarge =>
    have hfour : (4 : UInt64).toNat = 4 := rfl
    have hless := mt UInt64.lt_iff_toNat_lt.mpr hlarge
    rw [hfour] at hless
    omega

/-- The table that `svzHashCreate` makes has that many buckets. -/
theorem svzHashCreate_buckets {V : Type} {size : UInt64} (hsize : size ≠ 0) :
    ∃ rounds buckets, bucketCount rounds size = some buckets ∧
      (svzHashCreate size.toNat : Option (SvzHash V)).map (fun hash => hash.buckets) =
        some buckets.toNat := by
  have hne : size.toNat ≠ 0 := fun h => hsize (UInt64.toNat_inj.mp h)
  have he := Nat.pow_log_le_self 2 hne
  have hlt := Nat.lt_pow_succ_log_self (by omega : 1 < 2) size.toNat
  obtain ⟨buckets, hbuckets, hcount⟩ := bucketCount_eq he hlt
  refine ⟨_, buckets, hbuckets, ?_⟩
  have hfuel : Nat.log 2 size.toNat < size.toNat :=
    Nat.lt_of_lt_of_le (Nat.lt_two_pow_self) he
  unfold svzHashCreate
  rw [binarySize_eq he hlt hfuel, hcount, Nat.one_mul]
  show some (if _ < minSize then minSize else _) = _
  congr 1
  split <;> omega

/-- The bytes of a table that can be allocated have not overflowed. -/
theorem tableRoom_eq {memory room e : Nat} {buckets : UInt64}
    (hbuckets : buckets.toNat = 2 ^ e) (hroom : tableRoom memory buckets = some room) :
    room = buckets.toNat := by
  unfold tableRoom at hroom
  dsimp only at hroom
  split_ifs at hroom with hnone
  obtain rfl := Option.some.inj hroom
  obtain ⟨hbytes, -⟩ := not_or.mp hnone
  have hsixteen : (16 : UInt64).toNat = 2 ^ 4 := rfl
  have hmod : (16 * buckets).toNat = 2 ^ (4 + e) % 2 ^ 64 := by
    rw [UInt64.toNat_mul, hbuckets, hsixteen, ← Nat.pow_add]
  by_cases hsmall : 4 + e < 64
  · rw [hmod, Nat.mod_eq_of_lt (Nat.pow_lt_pow_right (by omega) hsmall), hbuckets, Nat.pow_add]
    exact Nat.mul_div_cancel_left _ (by decide)
  · -- a power that is not below the size of a word vanishes
    obtain ⟨d, hd⟩ := Nat.exists_eq_add_of_le (Nat.not_lt.mp hsmall)
    rw [hd, Nat.pow_add, Nat.mul_mod_right] at hmod
    exact absurd (UInt64.toNat_inj.mp hmod) hbytes

/-- `svz_hash_create` ends, with the right number of buckets, exactly for sizes other than zero. -/
theorem rounded_iff (size : UInt64) :
    (∃ rounds buckets, bucketCount rounds size = some buckets ∧ Rounded size buckets) ↔
      size ≠ 0 := by
  constructor
  · rintro ⟨rounds, buckets, hbuckets, -⟩ rfl
    unfold bucketCount at hbuckets
    rw [createLoop_zero] at hbuckets
    exact absurd hbuckets.symm (Option.some_ne_none _)
  · intro hsize
    have hne : size.toNat ≠ 0 := fun h => hsize (UInt64.toNat_inj.mp h)
    have he := Nat.pow_log_le_self 2 hne
    have hlt := Nat.lt_pow_succ_log_self (by omega : 1 < 2) size.toNat
    obtain ⟨buckets, hbuckets, hcount⟩ := bucketCount_eq he hlt
    refine ⟨_, buckets, hbuckets, ⟨_, he, hlt, hcount, fun k hk => (createRound_iterate he k hk).2⟩,
      fun memory room hroom => ?_⟩
    generalize Nat.log 2 size.toNat = e at hcount
    -- the number of buckets is a power of two again
    by_cases hsmall : e < 2
    · have hle : 2 ^ e ≤ minSize :=
        Nat.le_trans (Nat.pow_le_pow_right (by omega) (Nat.le_of_lt_succ hsmall)) (by decide)
      have hleast : buckets.toNat = 2 ^ 2 := hcount.trans (Nat.max_eq_right hle)
      exact tableRoom_eq hleast hroom
    · have hfour : minSize = 2 ^ 2 := rfl
      have hle : minSize ≤ 2 ^ e :=
        hfour ▸ Nat.pow_le_pow_right (by omega) (Nat.not_lt.mp hsmall)
      have hpower : buckets.toNat = 2 ^ e := hcount.trans (Nat.max_eq_left hle)
      exact tableRoom_eq hpower hroom

/-- A table of size zero is never made. -/
theorem sizeZero_not_rounded :
    ¬ ∀ size : UInt64, ∃ rounds buckets,
        bucketCount rounds size = some buckets ∧ Rounded size buckets := by
  intro hall
  obtain ⟨rounds, buckets, hbuckets, -⟩ := hall 0
  unfold bucketCount at hbuckets
  rw [createLoop_zero] at hbuckets
  exact absurd hbuckets.symm (Option.some_ne_none _)

end Serveez.Hash
