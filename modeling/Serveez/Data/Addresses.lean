import Serveez.Lib.Filling

/-!
# Address objects

An address object is a family and a union of the bits of all families. The object is made in a block
of `svz_malloc`, and what is not copied to the union is what the block had before.

With `IPV6_OK` the text of `svz_address_same` has a call that is not closed, and is no C. So every
library is built without it: the union has the bits of an IPv4 address only, and the functions do
not know `AF_INET6`.

* `svzAddressMake_ipv4`, `svzAddressMake_ipv6`: the objects of the two families.
* `addressesKnown`: objects stand for the addresses of the family that is known.
-/

namespace Serveez.Data.Addresses

open Lib

/-- `AF_UNSPEC`, the family that the functions know, and all others. -/
inductive Family
  | unspec
  | inet
  | other (family : Nat)
  deriving DecidableEq

/-- `AF_INET6` -/
def inet6 : Family := .other 10

/-- `sizeof (in_addr_t)` -/
def in4Size : Nat := 4

/-- `sizeof (struct in6_addr)` -/
def in6Size : Nat := 16

variable {n : Nat}

structure SvzAddress where
  family : Family
  u : Block UInt8 in4Size

/-- Without a result if it leaves one of the two. -/
def memcpy (dest : Block UInt8 n) (src : List UInt8) (size : Nat) : Option (Block UInt8 n) :=
  if h : size ≤ src.length ∧ size ≤ n then
    some ⟨src.take size ++ dest.cells.drop size, by
      rw [List.length_append, List.length_take, List.length_drop, dest.size]
      omega⟩
  else none

/-- `svz_address_make`, with the bytes of the block where the union will be. -/
def svzAddressMake (block : Block UInt8 in4Size) (family : Family) (bits : Option (List UInt8)) :
    Option (Option SvzAddress) :=
  match bits with
  | none => some none
  | some bits =>
    match family with
    | .inet => (memcpy block bits in4Size).map fun u => some ⟨.inet, u⟩
    | _ => some (some ⟨.unspec, block⟩)

/-- `svz_address_to` -/
def svzAddressTo (dest : Option (Block UInt8 n)) (addr : Option SvzAddress) :
    Option (Int × Option (Block UInt8 n)) :=
  match dest, addr with
  | some dest, some addr =>
    match addr.family with
    | .inet => (memcpy dest addr.u.cells in4Size).map fun dest => (0, some dest)
    | _ => some (-1, some dest)
  | dest, _ => some (-1, dest)

/-- `svz_address_same`, which compares no bytes of an address whose family is not known. -/
def svzAddressSame (a b : SvzAddress) : Bool :=
  let size := if a.family = .inet then in4Size else 0
  decide (a.family = b.family ∧ a.u.cells.take size = b.u.cells.take size)

/-- `svz_address_copy` -/
def svzAddressCopy (block : Block UInt8 in4Size) (addr : SvzAddress) :
    Option (Option SvzAddress) :=
  svzAddressMake block addr.family (some addr.u.cells)

/-! ## What is meant -/

inductive IpAddress
  | ipv4 (bits : Block UInt8 in4Size)
  | ipv6 (bits : Block UInt8 in6Size)

def IpAddress.family : IpAddress → Family
  | ipv4 _ => .inet
  | ipv6 _ => inet6

def IpAddress.bits : IpAddress → List UInt8
  | ipv4 bits => bits.cells
  | ipv6 bits => bits.cells

/-- The address, if its family is known. -/
def IpAddress.known : IpAddress → Option (Block UInt8 in4Size)
  | ipv4 bits => some bits
  | ipv6 _ => none

/-- Objects for two addresses and a copy of the first, in blocks of `svz_malloc`. -/
structure Objects (x y : IpAddress) (block block' blockCopy : Block UInt8 in4Size)
    (a b copy : SvzAddress) : Prop where
  first : svzAddressMake block x.family (some x.bits) = some (some a)
  second : svzAddressMake block' y.family (some y.bits) = some (some b)
  copied : svzAddressCopy blockCopy a = some (some copy)

/-- Each object gives its address back, the two are the same if the addresses are, and the copy is
the same. -/
def AddressesRight (x y : IpAddress) (block block' blockCopy : Block UInt8 in4Size) : Prop :=
  ∃ a b copy : SvzAddress, Objects x y block block' blockCopy a b copy ∧
    (∀ dest : Block UInt8 x.bits.length,
      svzAddressTo (some dest) (some a) = some (0, some ⟨x.bits, rfl⟩)) ∧
    (∀ dest : Block UInt8 y.bits.length,
      svzAddressTo (some dest) (some b) = some (0, some ⟨y.bits, rfl⟩)) ∧
    (svzAddressSame a b = true ↔ x.family = y.family ∧ x.bits = y.bits) ∧
    svzAddressSame copy a = true

/-- What `svz_address_to` does with the object of an address: without its bits, the destination is
as before. -/
def GivesBack (x : IpAddress) (a : SvzAddress) : Prop :=
  ∀ dest : Block UInt8 in4Size, svzAddressTo (some dest) (some a) =
    some (if x.known.isSome then 0 else -1, some (x.known.getD dest))

/-! ## What is copied -/

/-- As much as all of the source. -/
theorem memcpy_all (dest src : Block UInt8 n) : memcpy dest src.cells n = some src := by
  have hsize : n ≤ src.cells.length ∧ n ≤ n := ⟨Nat.le_of_eq src.size.symm, Nat.le_refl n⟩
  rw [memcpy, dif_pos hsize]
  apply congrArg some
  apply Block.eq_of_cells
  dsimp only
  rw [List.take_of_length_le (Nat.le_of_eq src.size), List.drop_eq_nil_of_le, List.append_nil]
  exact Nat.le_of_eq dest.size

theorem svzAddressMake_ipv4 (block bits : Block UInt8 in4Size) :
    svzAddressMake block .inet (some bits.cells) = some (some ⟨.inet, bits⟩) := by
  simp only [svzAddressMake, memcpy_all, Option.map_some]

/-- Nothing is copied, and the object has no address. -/
theorem svzAddressMake_ipv6 (block : Block UInt8 in4Size) (bits : List UInt8) :
    svzAddressMake block inet6 (some bits) = some (some ⟨.unspec, block⟩) := rfl

/-- What an object for an address is. -/
def objectOf (block : Block UInt8 in4Size) (x : IpAddress) : SvzAddress :=
  x.known.elim ⟨.unspec, block⟩ fun bits => ⟨.inet, bits⟩

theorem svzAddressMake_eq (block : Block UInt8 in4Size) (x : IpAddress) :
    svzAddressMake block x.family (some x.bits) = some (some (objectOf block x)) := by
  cases x with
  | ipv4 bits => exact svzAddressMake_ipv4 block bits
  | ipv6 bits => exact svzAddressMake_ipv6 block bits.cells

theorem svzAddressCopy_eq (block blockCopy : Block UInt8 in4Size) (x : IpAddress) :
    svzAddressCopy blockCopy (objectOf block x) = some (some (objectOf blockCopy x)) := by
  cases x with
  | ipv4 bits => exact svzAddressMake_ipv4 blockCopy bits
  | ipv6 bits => rfl

theorem objectOf_givesBack (block : Block UInt8 in4Size) (x : IpAddress) :
    GivesBack x (objectOf block x) := by
  intro dest
  cases x with
  | ipv4 bits =>
    show (memcpy dest bits.cells in4Size).map _ = _
    rw [memcpy_all]
    rfl
  | ipv6 bits => rfl

theorem svzAddressSame_iff (block block' : Block UInt8 in4Size) (x y : IpAddress) :
    svzAddressSame (objectOf block x) (objectOf block' y) = true ↔ x.known = y.known := by
  have hall (bits : Block UInt8 in4Size) : bits.cells.take in4Size = bits.cells :=
    List.take_of_length_le (Nat.le_of_eq bits.size)
  cases x with
  | ipv4 bits =>
    cases y with
    | ipv4 bits' =>
      simp only [svzAddressSame, objectOf, IpAddress.known, Option.elim_some, if_true, hall,
        true_and, decide_eq_true_eq, Option.some_inj]
      exact ⟨Block.eq_of_cells, congrArg Block.cells⟩
    | ipv6 bits' => simp [svzAddressSame, objectOf, IpAddress.known]
  | ipv6 bits =>
    cases y with
    | ipv4 bits' => simp [svzAddressSame, objectOf, IpAddress.known]
    | ipv6 bits' => simp [svzAddressSame, objectOf, IpAddress.known]

/-- The object of an IPv4 address gives its bits back, that of an IPv6 address none, whatever the
blocks had. Two are the same if what they know of their addresses is, and a copy is the same. -/
theorem addressesKnown (x y : IpAddress) (block block' blockCopy : Block UInt8 in4Size) :
    ∃ a b copy : SvzAddress, Objects x y block block' blockCopy a b copy ∧
      GivesBack x a ∧ GivesBack y b ∧ (svzAddressSame a b = true ↔ x.known = y.known) ∧
      svzAddressSame copy a = true := by
  refine ⟨objectOf block x, objectOf block' y, objectOf blockCopy x, ?_,
    objectOf_givesBack block x, objectOf_givesBack block' y, svzAddressSame_iff block block' x y,
    (svzAddressSame_iff blockCopy block x x).mpr rfl⟩
  exact ⟨svzAddressMake_eq block x, svzAddressMake_eq block' y, svzAddressCopy_eq block blockCopy x⟩

/-- The loopback address of IPv6. -/
theorem addressesRight_not_loopback : ¬ ∀ (x y : IpAddress)
    (block block' blockCopy : Block UInt8 in4Size), AddressesRight x y block block' blockCopy := by
  intro h
  let loopback : Block UInt8 in6Size := ⟨List.replicate 15 0 ++ [1], rfl⟩
  let zeros : Block UInt8 in4Size := Block.replicate _ 0
  obtain ⟨a, b, copy, hobjects, hto, -⟩ := h (.ipv6 loopback) (.ipv6 loopback) zeros zeros zeros
  have hfirst := hobjects.first.symm.trans (svzAddressMake_ipv6 zeros loopback.cells)
  obtain rfl := Option.some.inj (Option.some.inj hfirst)
  have hresult := congrArg (Option.map Prod.fst) (hto (Block.replicate _ 7))
  exact absurd hresult (by decide)

end Serveez.Data.Addresses
