import Mathlib.Data.List.Basic

/-!
# Reading with a trace

A computation on a buffer with the offsets that it reads, in order.

* `within_bind`: a computation reads inside a bound if and only if all its parts do.
-/

namespace Serveez.Lib

variable {α β : Type}

structure Traced (α : Type) where
  value : α
  /-- The offsets that were read. -/
  reads : List Nat

namespace Traced

instance : Monad Traced where
  pure a := ⟨a, []⟩
  bind x f := ⟨(f x.value).value, x.reads ++ (f x.value).reads⟩

/-- One element of a buffer; behind its end there is `default`. -/
def readAt (default : α) (data : List α) (i : Nat) : Traced α := ⟨data.getD i default, [i]⟩

/-- All reads are below `n`. -/
def Within (x : Traced α) (n : Nat) : Prop := ∀ i ∈ x.reads, i < n

@[simp] theorem value_pure (a : α) : (pure a : Traced α).value = a := rfl

@[simp] theorem value_bind (x : Traced α) (f : α → Traced β) :
    (x >>= f).value = (f x.value).value := rfl

@[simp] theorem value_readAt (default : α) (data : List α) (i : Nat) :
    (readAt default data i).value = data.getD i default := rfl

@[simp] theorem within_pure (a : α) (n : Nat) : (pure a : Traced α).Within n :=
  fun _ hmem => absurd hmem List.not_mem_nil

@[simp] theorem within_bind (x : Traced α) (f : α → Traced β) (n : Nat) :
    (x >>= f).Within n ↔ x.Within n ∧ (f x.value).Within n :=
  List.forall_mem_append

@[simp] theorem within_readAt (default : α) (data : List α) (i n : Nat) :
    (readAt default data i).Within n ↔ i < n :=
  List.forall_mem_singleton

end Traced

end Serveez.Lib
