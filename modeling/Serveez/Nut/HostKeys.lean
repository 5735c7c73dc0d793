import Serveez.Lib.ByteOrder
import Serveez.Nut.Download

/-!
# The keys of hosts

The tables `cfg->conn` and `cfg->net` are indexed by a text with the address and the port of a
host (`nut_client_key`), and `nut_parse_addr` reads such a text. Addresses and ports are in the
order of the network; what number that is depends on the byte order of the host that the code
runs on. `inet_addr` is a function of the system.
-/

namespace Serveez.Nut

open Lib

/-- `htons`, and `ntohs` -/
def htons (order : ByteOrder) (x : UInt16) : UInt16 :=
  match order with
  | .little => bswap16 x
  | .big => x

/-- `svz_inet_ntoa`: the four bytes of an address in memory. -/
def svzInetNtoa (order : ByteOrder) (ip : UInt32) : List UInt8 :=
  [46].intercalate ((order.store 4 ip.toNat).map (fun b => decimalBytes b.toNat))

/-- `"%s:%u"` -/
def nutClientKey (order : ByteOrder) (ip : UInt32) (port : UInt16) : List UInt8 :=
  svzInetNtoa order ip ++ 58 :: decimalBytes (htons order port).toNat

def nutPort : UInt16 := 6346

/-- A digit or a dot. -/
def isAddrByte (c : UInt8) : Bool := (48 ≤ c && c ≤ 57) || c == 46

/-- `nut_parse_addr`; nothing for `-1`. -/
def nutParseAddr (order : ByteOrder) (inetAddr : List UInt8 → UInt32) (addr : List UInt8) :
    Option (UInt32 × UInt16) :=
  let host := cString addr
  if host = [] then none
  else
    let p := host.dropWhile isAddrByte
    if p ≠ [] ∧ isAddrByte (p.headD 0) = false ∧ p.headD 0 ≠ 58 then none
    else
      let colon := p.dropWhile (· ≠ 58)
      match colon with
      | [] => some (inetAddr host, htons order nutPort)
      | _ :: port =>
        some (inetAddr (host.take (host.length - colon.length)),
          htons order (UInt16.ofNat (svzAtoi port)))

/-! ## The texts -/

@[simp] theorem htons_htons (order : ByteOrder) (x : UInt16) : htons order (htons order x) = x := by
  cases order with
  | little => exact bswap16_bswap16 x
  | big => rfl

theorem mem_intercalate {sep c : UInt8} {parts : List (List UInt8)}
    (h : c ∈ [sep].intercalate parts) : c = sep ∨ ∃ part ∈ parts, c ∈ part := by
  induction parts with
  | nil => simp at h
  | cons part parts ih =>
    cases parts with
    | nil =>
      refine Or.inr ⟨part, by simp, ?_⟩
      simpa using h
    | cons next parts =>
      rw [List.intercalate_cons_cons, List.mem_append, List.mem_append] at h
      rcases h with (h | h) | h
      · exact Or.inr ⟨part, by simp, h⟩
      · exact Or.inl (by simpa using h)
      · rcases ih h with hsep | ⟨other, hother, hc⟩
        · exact Or.inl hsep
        · exact Or.inr ⟨other, by simp [hother], hc⟩

theorem isAddrByte_of_mem {order : ByteOrder} {ip : UInt32} {c : UInt8}
    (hc : c ∈ svzInetNtoa order ip) : isAddrByte c = true := by
  rcases mem_intercalate hc with rfl | ⟨part, hpart, hmem⟩
  · rfl
  · obtain ⟨b, -, rfl⟩ := List.mem_map.mp hpart
    have hdigit := isDigitByte_of_mem hmem
    unfold isAddrByte
    simp [hdigit.1, hdigit.2]

theorem zero_notMem_nutClientKey (order : ByteOrder) (ip : UInt32) (port : UInt16) :
    0 ∉ nutClientKey order ip port := by
  have haddr : (0 : UInt8) ∉ svzInetNtoa order ip := fun h =>
    absurd (isAddrByte_of_mem h) (by decide)
  have hport : (0 : UInt8) ∉ decimalBytes (htons order port).toNat :=
    notMem_decimalBytes (by decide)
  unfold nutClientKey
  simp [haddr, hport]

theorem length_intercalate_le {sep : UInt8} {k : Nat} (parts : List (List UInt8))
    (h : ∀ part ∈ parts, part.length ≤ k) :
    ([sep].intercalate parts).length ≤ parts.length * (k + 1) := by
  induction parts with
  | nil => simp
  | cons part parts ih =>
    have hpart := h part (by simp)
    have hrest := ih (fun other hother => h other (by simp [hother]))
    cases parts with
    | nil =>
      simp
      omega
    | cons next parts =>
      rw [List.intercalate_cons_cons, List.length_append, List.length_append]
      simp only [List.length_cons, List.length_nil] at hrest ⊢
      rw [Nat.succ_mul (parts.length + 1)]
      omega

/-- The keys fit into the buffer of `nut_client_key`. -/
theorem length_nutClientKey_lt (order : ByteOrder) (ip : UInt32) (port : UInt16) :
    (nutClientKey order ip port).length < 32 := by
  have hparts : ∀ part ∈ (order.store 4 ip.toNat).map (fun b => decimalBytes b.toNat),
      part.length ≤ 3 := by
    intro part hpart
    obtain ⟨b, -, rfl⟩ := List.mem_map.mp hpart
    have hb := b.toNat_lt
    exact length_decimalBytes_le (by omega) (by omega)
  have haddr := @length_intercalate_le 46 3 _ hparts
  rw [List.length_map, length_store] at haddr
  have hport : (decimalBytes (htons order port).toNat).length ≤ 5 := by
    have hlt := (htons order port).toNat_lt
    exact length_decimalBytes_le (by omega) (by omega)
  unfold nutClientKey svzInetNtoa
  rw [List.length_append, List.length_cons]
  omega

/-! ## Reading a key back -/

theorem nutParseAddr_nutClientKey {order : ByteOrder} {inetAddr : List UInt8 → UInt32}
    {ip : UInt32} (hinet : inetAddr (svzInetNtoa order ip) = ip) (port : UInt16) :
    nutParseAddr order inetAddr (nutClientKey order ip port) = some (ip, port) := by
  have hstring := cString_eq_self (zero_notMem_nutClientKey order ip port)
  have hne : nutClientKey order ip port ≠ [] := by
    unfold nutClientKey
    simp
  have hp : (nutClientKey order ip port).dropWhile isAddrByte =
      58 :: decimalBytes (htons order port).toNat := by
    unfold nutClientKey
    rw [List.dropWhile_append_of_pos (fun c hc => isAddrByte_of_mem hc)]
    rfl
  have hcolon : (58 :: decimalBytes (htons order port).toNat).dropWhile (· ≠ 58) =
      58 :: decimalBytes (htons order port).toNat := by
    simp
  have hhost : (nutClientKey order ip port).take ((nutClientKey order ip port).length -
      (58 :: decimalBytes (htons order port).toNat).length) = svzInetNtoa order ip := by
    unfold nutClientKey
    rw [List.length_append, Nat.add_sub_cancel, List.take_left]
  have hport : UInt16.ofNat (svzAtoi (decimalBytes (htons order port).toNat)) =
      htons order port := by
    have hlt := (htons order port).toNat_lt
    have hread := svzAtoi_decimalBytes (n := (htons order port).toNat) (by omega)
      (show ∀ c ∈ ([] : List UInt8).head?, ¬ IsDigitByte c by simp)
    rw [List.append_nil] at hread
    rw [hread, UInt16.ofNat_toNat]
  unfold nutParseAddr
  simp only [hstring, hne, hp, hcolon, hhost, hport, hinet, htons_htons]
  simp

/-- A key is read back as the address and the port that it was made of, and so two hosts have
different keys, if `inet_addr` reads what `svz_inet_ntoa` prints. -/
theorem nutClientKey_faithful (order : ByteOrder) (inetAddr : List UInt8 → UInt32)
    (hinet : ∀ ip, inetAddr (svzInetNtoa order ip) = ip) :
    (∀ ip port, nutParseAddr order inetAddr (nutClientKey order ip port) = some (ip, port)) ∧
      ∀ ip port ip' port', nutClientKey order ip port = nutClientKey order ip' port' →
        ip = ip' ∧ port = port' := by
  have hread : ∀ ip port,
      nutParseAddr order inetAddr (nutClientKey order ip port) = some (ip, port) :=
    fun ip port => nutParseAddr_nutClientKey (hinet ip) port
  refine ⟨hread, ?_⟩
  intro ip port ip' port' hkey
  have h := hread ip port
  rw [hkey, hread ip' port'] at h
  have hpair := Option.some.inj h
  exact ⟨congrArg Prod.fst hpair.symm, congrArg Prod.snd hpair.symm⟩

/-- The address in a text of four decimal numbers. -/
def quadAddr (order : ByteOrder) (text : List UInt8) : UInt32 :=
  UInt32.ofNat (order.load ((text.splitOn 46).map (fun part => UInt8.ofNat (readDigits part))))

theorem quadAddr_svzInetNtoa (order : ByteOrder) (ip : UInt32) :
    quadAddr order (svzInetNtoa order ip) = ip := by
  have hdots : ∀ part ∈ (order.store 4 ip.toNat).map (fun b => decimalBytes b.toNat),
      46 ∉ part := by
    intro part hpart
    obtain ⟨b, -, rfl⟩ := List.mem_map.mp hpart
    exact notMem_decimalBytes (by decide)
  have hne : (order.store 4 ip.toNat).map (fun b => decimalBytes b.toNat) ≠ [] := by
    have hlen := length_store order 4 ip.toNat
    intro h
    rw [List.map_eq_nil_iff] at h
    rw [h] at hlen
    simp at hlen
  have hbytes : ((order.store 4 ip.toNat).map (fun b => decimalBytes b.toNat)).map
      (fun part => UInt8.ofNat (readDigits part)) = order.store 4 ip.toNat := by
    rw [List.map_map]
    calc
      _ = (order.store 4 ip.toNat).map id := by
        apply List.map_congr_left
        intro b _
        simp
      _ = _ := List.map_id _
  unfold quadAddr svzInetNtoa
  rw [List.splitOn_intercalate _ hdots hne, hbytes, load_store order ip.toNat_lt,
    UInt32.ofNat_toNat]

theorem nutClientKey_faithful_quad :
    (∀ ip port, nutParseAddr .little (quadAddr .little) (nutClientKey .little ip port) =
        some (ip, port)) ∧
      ∀ ip port ip' port', nutClientKey .little ip port = nutClientKey .little ip' port' →
        ip = ip' ∧ port = port' :=
  nutClientKey_faithful .little (quadAddr .little) (quadAddr_svzInetNtoa .little)

end Serveez.Nut
