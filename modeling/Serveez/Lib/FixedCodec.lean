import Mathlib.Data.List.Induction
import Mathlib.Data.List.TakeDrop
import Serveez.Lib.ByteOrder

/-!
# Codecs of fixed size

A structure that is copied field by field into a fixed number of bytes, and out of them again.
`Inverse` is the law of such a pair; it holds of a sequence of fields if it holds of each
(`Inverse.seq`). The writing functions keep their result in a static buffer (`overwrite`), which
`afterCalls` follows over all calls made before.
-/

namespace Serveez.Lib

variable {α β : Type}

/-- What `put` writes is `size` bytes, and `get` and `put` undo each other. -/
structure Inverse (size : Nat) (get : List UInt8 → α) (put : α → List UInt8) : Prop where
  length_put : ∀ x, (put x).length = size
  get_put : ∀ x rest, get (put x ++ rest) = x
  put_get : ∀ data, size ≤ data.length → put (get data) = data.take size

/-- One field, and behind it another. -/
theorem Inverse.seq {m n : Nat} {get : List UInt8 → α} {put : α → List UInt8}
    {get' : List UInt8 → β} {put' : β → List UInt8} (h : Inverse m get put)
    (h' : Inverse n get' put') :
    Inverse (m + n) (fun data => (get data, get' (data.drop m)))
      (fun x => put x.1 ++ put' x.2) where
  length_put := by
    intro x
    rw [List.length_append, h.length_put, h'.length_put]
  get_put := by
    intro x rest
    have hdrop : (put x.1 ++ put' x.2 ++ rest).drop m = put' x.2 ++ rest := by
      rw [List.append_assoc, List.drop_left' (h.length_put x.1)]
    rw [hdrop, h'.get_put, List.append_assoc, h.get_put]
  put_get := by
    intro data hdata
    have hrest : n ≤ (data.drop m).length := by
      rw [List.length_drop]
      omega
    rw [h.put_get data (by omega), h'.put_get _ hrest, List.take_add]

/-- The same bytes for another type. -/
theorem Inverse.map {n : Nat} {get : List UInt8 → α} {put : α → List UInt8}
    (h : Inverse n get put) (f : α → β) (g : β → α) (hfg : ∀ b, f (g b) = b)
    (hgf : ∀ a, g (f a) = a) :
    Inverse n (fun data => f (get data)) (fun b => put (g b)) where
  length_put := fun b => h.length_put (g b)
  get_put := by
    intro b rest
    rw [h.get_put, hfg]
  put_get := by
    intro data hdata
    rw [hgf, h.put_get data hdata]

/-! ## Single fields -/

theorem inverse_byte : Inverse 1 (fun data => data.getD 0 0) (fun b => [b]) where
  length_put := fun _ => rfl
  get_put := fun _ _ => rfl
  put_get := by
    intro data hdata
    cases data with
    | nil => simp at hdata
    | cons b data => simp

theorem inverse_load16 (order : ByteOrder) :
    Inverse 2 (fun data => UInt16.ofNat (order.load (data.take 2)))
      (fun x => order.store 2 x.toNat) where
  length_put := fun x => length_store order 2 x.toNat
  get_put := by
    intro x rest
    rw [List.take_left' (length_store order 2 x.toNat), load_store order x.toNat_lt,
      UInt16.ofNat_toNat]
  put_get := by
    intro data hdata
    have hlen : (data.take 2).length = 2 := List.length_take_of_le hdata
    have hlt : order.load (data.take 2) < 2 ^ 16 := load_lt order hlen
    rw [UInt16.toNat_ofNat_of_lt' hlt, store_load order hlen]

theorem inverse_load32 (order : ByteOrder) :
    Inverse 4 (fun data => UInt32.ofNat (order.load (data.take 4)))
      (fun x => order.store 4 x.toNat) where
  length_put := fun x => length_store order 4 x.toNat
  get_put := by
    intro x rest
    rw [List.take_left' (length_store order 4 x.toNat), load_store order x.toNat_lt,
      UInt32.ofNat_toNat]
  put_get := by
    intro data hdata
    have hlen : (data.take 4).length = 4 := List.length_take_of_le hdata
    have hlt : order.load (data.take 4) < 2 ^ 32 := load_lt order hlen
    rw [UInt32.toNat_ofNat_of_lt' hlt, store_load order hlen]

/-- An array of `n` bytes. -/
def takeBytes (n : Nat) (data : List UInt8) : { bytes : List UInt8 // bytes.length = n } :=
  ⟨data.takeD n 0, List.takeD_length n data 0⟩

theorem inverse_bytes (n : Nat) : Inverse n (takeBytes n) (fun x => x.val) where
  length_put := fun x => x.property
  get_put := by
    intro x rest
    apply Subtype.ext
    exact List.takeD_left' x.property
  put_get := fun _ hdata => List.takeD_eq_take 0 hdata

/-! ## The static buffer -/

/-- `bytes` are copied to the start of `buffer`. -/
def overwrite (buffer bytes : List UInt8) : List UInt8 := bytes ++ buffer.drop bytes.length

/-- The buffer of a function after some calls; in the beginning it is zero. -/
def afterCalls (size : Nat) (put : List UInt8 → α → List UInt8) (calls : List α) : List UInt8 :=
  calls.foldl put (List.replicate size 0)

/-- The bytes behind those that are written stay zero. -/
theorem afterCalls_overwrite {n padding : Nat} {put : α → List UInt8}
    (hput : ∀ x, (put x).length = n) (calls : List α) (x : α) :
    overwrite (afterCalls (n + padding) (fun buffer x => overwrite buffer (put x)) calls) (put x) =
      put x ++ List.replicate padding 0 := by
  have hafter : ∃ bytes : List UInt8, bytes.length = n ∧
      afterCalls (n + padding) (fun buffer x => overwrite buffer (put x)) calls =
        bytes ++ List.replicate padding 0 := by
    unfold afterCalls
    induction calls using List.reverseRecOn with
    | nil => exact ⟨List.replicate n 0, by simp, List.replicate_append_replicate.symm⟩
    | append_singleton calls y ih =>
      obtain ⟨bytes, hlen, heq⟩ := ih
      refine ⟨put y, hput y, ?_⟩
      rw [List.foldl_append, heq]
      simp only [List.foldl_cons, List.foldl_nil, overwrite]
      rw [List.drop_left' (hlen.trans (hput y).symm)]
  obtain ⟨bytes, hlen, heq⟩ := hafter
  rw [heq, overwrite, List.drop_left' (hlen.trans (hput x).symm)]

end Serveez.Lib
