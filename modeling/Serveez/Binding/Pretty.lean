import Serveez.Binding.Listeners
import Serveez.Lib.Block
import Serveez.Lib.Decimal

/-!
# Port configurations and bindings as texts

`svz_pp_portcfg` prints a port configuration into a buffer and returns what `snprintf` returned,
the length of the whole text. `svz_pp_server_bindings` prints the bindings of a server one after
the other into a buffer of 128 bytes, and copies as many bytes out of it as were returned.

* `svzPpPortcfg_iff`: the length returned is that of the string just when the text fits.
* `ppLoop_sound`, `ppLoop_unsound`: the loop lists bindings as long as their texts fit into the
  buffer in between.
* `bounded_iff`: when each of the functions stays in its bounds.
-/

namespace Serveez.Binding

open Lib

abbrev Text := List Char

def nul : Char := '\x00'

/-- The characters of a C string. -/
def cText (s : String) : Text := stringOf nul s.toList

/-- `%d`, and `svz_itoa` -/
def decimal (i : Nat) : Text := printLoop 31 i []

/-- `svz_inet_ntoa`, for an address in the order of the network. -/
def svzInetNtoa (addr : UInt32) : Text :=
  decimal (addr.toNat % 256) ++ '.' :: decimal (addr.toNat / 256 % 256) ++ '.' ::
    decimal (addr.toNat / 65536 % 256) ++ '.' :: decimal (addr.toNat / 16777216)

def ntohs (port : UInt16) : Nat := port.toNat % 256 * 256 + port.toNat / 256

/-- `text_from_addr`; without a device `NULL` is printed. -/
def textFromAddr (port : PortCfg) : Text :=
  if port.device then (port.deviceName.map cText).getD "(null)".toList
  else if port.any then ['*']
  else svzInetNtoa port.addr

/-- What `svz_pp_portcfg` prints of a configuration with a protocol. -/
def prettyText (port : PortCfg) : Text :=
  match port.proto with
  | .tcp => "TCP:[".toList ++ textFromAddr port ++ ':' :: decimal (ntohs port.port) ++ [']']
  | .udp => "UDP:[".toList ++ textFromAddr port ++ ':' :: decimal (ntohs port.port) ++ [']']
  | .raw => "RAW:[".toList ++ textFromAddr port ++ [']']
  | .icmp =>
    "ICMP:[".toList ++ textFromAddr port ++ '/' :: decimal port.icmpType.toNat ++ [']']
  | .pipe => "PIPE:[".toList ++ cText port.recv ++ "]-[".toList ++ cText port.send ++ [']']

variable {n : Nat}

/-- Nothing is printed of a configuration that has none of the protocols. -/
def printedText (port : Option PortCfg) : Text := (port.map prettyText).getD []

/-- The buffer, and the length that is returned. -/
def svzPpPortcfg (buf : Block Char n) (port : Option PortCfg) : Block Char n × Nat :=
  (buf.snprintf nul (printedText port), (printedText port).length)

/-! ## The bindings of a server -/

def fromServer (server : Nat) (bindings : List Bound) : List PortCfg :=
  (bindings.filter (·.server = server)).map (·.port.cfg)

/-- What has been written to the buffer, the room that is left, and the buffer in between. -/
structure PpState where
  w : Text
  size : Nat
  firstp : Bool
  pretty : Block Char 128

/-- The space before a binding, none before the first. -/
def PpState.space (s : PpState) : Text := if s.firstp then [] else [' ']

/-- The loop over the bindings of a listener, and whether it was left early. There is no result
when bytes behind the buffer in between are copied. -/
def ppLoop : List PortCfg → PpState → Option (PpState × Bool)
  | [], s => some (s, false)
  | port :: ports, s =>
    let printed := svzPpPortcfg s.pretty (some port)
    let len := printed.2
    if s.size ≤ len + s.space.length then some ({ s with pretty := printed.1 }, true)
    else if 128 < len then none
    else
      ppLoop ports
        { w := s.w ++ s.space ++ printed.1.cells.take len
          size := s.size - s.space.length - len
          firstp := false
          pretty := printed.1 }

/-- The loop over the listeners, each with its bindings. -/
def earsLoop (server : Nat) : List (List Bound) → PpState → Option PpState
  | [], s => some s
  | bindings :: ears, s =>
    (ppLoop (fromServer server bindings) s).bind fun r =>
    if r.2 then some r.1 else earsLoop server ears r.1

/-- The buffer, and the length that is returned. -/
def svzPpServerBindings (buf : Block Char n) (pretty : Block Char 128) (ears : List (List Bound))
    (server : Nat) : Option (Block Char n × Nat) :=
  (earsLoop server ears ⟨[], n, true, pretty⟩).bind fun s =>
  (buf.strcpy nul s.w).map fun buf => (buf, s.w.length)

/-! ## What the texts should be -/

/-- A string has been printed, and its length returned, which leaves room for the terminator. -/
structure Printed (result : Block Char n × Nat) : Prop where
  terminated : result.1.Terminated nul
  length : result.2 = (result.1.string nul).length
  bound : result.2 ≤ n - 1

/-- Texts with spaces between them. -/
def spaced : List Text → Text
  | [] => []
  | text :: texts => text ++ texts.flatMap (' ' :: ·)

/-- All bindings of a server. -/
def serverPorts (server : Nat) (ears : List (List Bound)) : List PortCfg :=
  ears.flatMap (fromServer server)

/-- A list of the first bindings has been printed. -/
def PrintedBindings (ports : List PortCfg) (result : Option (Block Char n × Nat)) : Prop :=
  ∃ printed, result = some printed ∧ Printed printed ∧
    ∃ shown, shown <+: ports ∧ printed.1.string nul = spaced (shown.map prettyText)

/-- The bindings whose texts fit into the buffer also fit into the one in between, each alone. -/
def Fitting (n : Nat) (ports : List PortCfg) : Prop :=
  ∀ shown, shown <+: ports → (spaced (shown.map prettyText)).length < n →
    ∀ port ∈ shown, (prettyText port).length < 128

/-! ## One port configuration -/

theorem nul_notMem_decimal (i : Nat) : nul ∉ decimal i := by
  intro hmem
  have hdigit : IsDigit nul :=
    isDigit_of_mem_printLoop (fun _ h => absurd h List.not_mem_nil) nul hmem
  exact absurd hdigit (by decide)

theorem nul_notMem_cText (s : String) : nul ∉ cText s := nul_notMem_stringOf nul s.toList

theorem nul_notMem_svzInetNtoa (addr : UInt32) : nul ∉ svzInetNtoa addr := by
  have hdot : nul ≠ '.' := by decide
  unfold svzInetNtoa
  simp [nul_notMem_decimal, hdot]

theorem nul_notMem_textFromAddr (port : PortCfg) : nul ∉ textFromAddr port := by
  unfold textFromAddr
  split_ifs
  · cases port.deviceName with
    | none => decide
    | some name => exact nul_notMem_cText name
  · decide
  · exact nul_notMem_svzInetNtoa port.addr

theorem nul_notMem_prettyText (port : PortCfg) : nul ∉ prettyText port := by
  have hends : nul ∉ [']'] := by decide
  have hcolon : nul ≠ ':' := by decide
  have hslash : nul ≠ '/' := by decide
  have htcp : nul ∉ "TCP:[".toList := by decide
  have hudp : nul ∉ "UDP:[".toList := by decide
  have hraw : nul ∉ "RAW:[".toList := by decide
  have hicmp : nul ∉ "ICMP:[".toList := by decide
  have hpipe : nul ∉ "PIPE:[".toList := by decide
  have hbetween : nul ∉ "]-[".toList := by decide
  unfold prettyText
  cases port.proto <;>
    simp only [List.mem_append, List.mem_cons, nul_notMem_textFromAddr, nul_notMem_decimal,
      nul_notMem_cText, hends, hcolon, hslash, htcp, hudp, hraw, hicmp, hpipe, hbetween, or_self,
      not_false_eq_true]

theorem nul_notMem_printedText (port : Option PortCfg) : nul ∉ printedText port := by
  cases port with
  | none => exact List.not_mem_nil
  | some port => exact nul_notMem_prettyText port

theorem svzPpPortcfg_iff (buf : Block Char (n + 1)) (port : Option PortCfg) :
    Printed (svzPpPortcfg buf port) ↔ (printedText port).length < n + 1 := by
  constructor
  · exact fun h => Nat.lt_succ_of_le h.bound
  · intro hfits
    refine ⟨Block.terminated_snprintf (Nat.succ_pos n) buf _, ?_, Nat.le_of_lt_succ hfits⟩
    have hstring : (svzPpPortcfg buf port).1.string nul = (printedText port).take n :=
      Block.string_snprintf (Nat.succ_pos n) (nul_notMem_printedText port) buf
    rw [hstring, List.take_of_length_le (Nat.le_of_lt_succ hfits)]
    rfl

theorem svzPpPortcfg_some (buf : Block Char n) (port : PortCfg) : svzPpPortcfg buf (some port) =
    (buf.snprintf nul (prettyText port), (prettyText port).length) := rfl

/-! ## The loop -/

theorem spaced_concat (texts : List Text) (text : Text) :
    spaced (texts ++ [text]) =
      spaced texts ++ (if texts = [] then [] else [' ']) ++ text := by
  cases texts with
  | nil => simp [spaced]
  | cons first texts => simp [spaced]

theorem spaced_length_le {texts texts' : List Text} (h : texts <+: texts') :
    (spaced texts).length ≤ (spaced texts').length := by
  obtain ⟨rest, rfl⟩ := h
  cases texts with
  | nil => exact Nat.zero_le _
  | cons text texts => simp [spaced]

theorem nul_notMem_spaced (ports : List PortCfg) : nul ∉ spaced (ports.map prettyText) := by
  have hspace : nul ≠ ' ' := by decide
  cases ports with
  | nil => exact List.not_mem_nil
  | cons port ports =>
    simp [spaced, nul_notMem_prettyText, hspace]

/-- The bindings of `shown` have been written. -/
structure Shown (n : Nat) (shown : List PortCfg) (s : PpState) : Prop where
  written : s.w = spaced (shown.map prettyText)
  first : s.firstp = true ↔ shown = []
  room : s.w.length + s.size = n
  ends : 0 < s.size

variable {shown ports : List PortCfg} {port : PortCfg} {s : PpState}

theorem Shown.space (h : Shown n shown s) :
    s.space = if shown.map prettyText = [] then [] else [' '] := by
  unfold PpState.space
  by_cases hfirst : s.firstp = true
  · rw [if_pos hfirst, if_pos (List.map_eq_nil_iff.mpr (h.first.mp hfirst))]
  · rw [if_neg hfirst, if_neg fun hnil => hfirst (h.first.mpr (List.map_eq_nil_iff.mp hnil))]

theorem Shown.concat (h : Shown n shown s) (port : PortCfg) :
    spaced ((shown ++ [port]).map prettyText) = s.w ++ s.space ++ prettyText port := by
  rw [List.map_append, List.map_singleton, spaced_concat, ← h.space, ← h.written]

theorem Shown.length_concat (h : Shown n shown s) (port : PortCfg) :
    (spaced ((shown ++ [port]).map prettyText)).length =
      s.w.length + s.space.length + (prettyText port).length := by
  rw [h.concat, List.length_append, List.length_append]

/-- A binding that fits is written, if its text is in the buffer in between. -/
theorem Shown.next (h : Shown n shown s)
    (hfits : (prettyText port).length + s.space.length < s.size)
    (hshort : (prettyText port).length < 128) :
    Shown n (shown ++ [port])
      { w := s.w ++ s.space ++
          (svzPpPortcfg s.pretty (some port)).1.cells.take (prettyText port).length
        size := s.size - s.space.length - (prettyText port).length
        firstp := false
        pretty := (svzPpPortcfg s.pretty (some port)).1 } := by
  have hroom := h.room
  have hcopied : (svzPpPortcfg s.pretty (some port)).1.cells.take (prettyText port).length =
      prettyText port := by
    obtain ⟨hlt, heq⟩ := Block.snprintf_eq nul (by decide : 0 < 128) s.pretty
      (prettyText port)
    have hall : (prettyText port).take (128 - 1) = prettyText port :=
      List.take_of_length_le (by omega)
    rw [svzPpPortcfg_some, heq]
    unfold Block.write
    dsimp only
    rw [hall, List.take_left]
  refine ⟨?_, iff_of_false Bool.false_ne_true (List.append_ne_nil_of_right_ne_nil _
    (List.cons_ne_nil _ _)), ?_, ?_⟩
  · rw [hcopied, h.concat]
  · rw [hcopied, List.length_append, List.length_append]
    dsimp only
    omega
  · dsimp only
    omega

/-- Where all that fits is short enough, the loop lists the bindings up to one. -/
theorem ppLoop_sound (h : Shown n shown s)
    (hfitting : ∀ more, more <+: ports →
      (spaced ((shown ++ more).map prettyText)).length < n →
        ∀ port ∈ more, (prettyText port).length < 128) :
    ∃ s' lose more, ppLoop ports s = some (s', lose) ∧ more <+: ports ∧
      Shown n (shown ++ more) s' := by
  induction ports generalizing shown s with
  | nil => exact ⟨s, false, [], rfl, List.prefix_refl _, (List.append_nil shown).symm ▸ h⟩
  | cons port ports ih =>
    rw [ppLoop]
    split
    · refine ⟨_, true, [], rfl, List.nil_prefix, ?_⟩
      rw [List.append_nil]
      exact ⟨h.written, h.first, h.room, h.ends⟩
    next hfits =>
    have hfits := Nat.not_le.mp hfits
    have hroom := h.room
    have hlength := h.length_concat port
    have hshort : (prettyText port).length < 128 := by
      refine hfitting [port] (List.cons_prefix_cons.mpr ⟨rfl, List.nil_prefix⟩) ?_ port
        List.mem_cons_self
      rw [hlength]
      rw [svzPpPortcfg_some] at hfits
      omega
    have hcopied : ¬ 128 < (svzPpPortcfg s.pretty (some port)).2 := Nat.not_lt.mpr hshort.le
    rw [if_neg hcopied]
    obtain ⟨s', lose, more, hloop, hmore, hshown⟩ := ih (h.next hfits hshort) (by
      intro more hmore hlt
      rw [List.append_assoc, List.singleton_append] at hlt
      exact fun other hother => hfitting (port :: more) (List.cons_prefix_cons.mpr ⟨rfl, hmore⟩)
        hlt other (List.mem_cons_of_mem _ hother))
    refine ⟨s', lose, port :: more, hloop, List.cons_prefix_cons.mpr ⟨rfl, hmore⟩, ?_⟩
    rw [List.append_assoc, List.singleton_append] at hshown
    exact hshown

/-- What has been written stays in front. -/
theorem ppLoop_begins {s' : PpState} {lose : Bool} (hloop : ppLoop ports s = some (s', lose)) :
    s.w <+: s'.w := by
  induction ports generalizing s with
  | nil =>
    obtain ⟨rfl, -⟩ := Prod.mk.inj (Option.some.inj hloop)
    exact List.prefix_refl _
  | cons port ports ih =>
    rw [ppLoop] at hloop
    split at hloop
    · obtain ⟨rfl, -⟩ := Prod.mk.inj (Option.some.inj hloop)
      exact List.prefix_refl _
    split at hloop
    · exact absurd hloop.symm (Option.some_ne_none _)
    · refine List.IsPrefix.trans ?_ (ih hloop)
      rw [List.append_assoc]
      exact List.prefix_append _ _

/-- Where a binding fits that is too long for the buffer in between, bytes behind it are copied,
or the terminator is. -/
theorem ppLoop_unsound (h : Shown n shown s) {more : List PortCfg} (hmore : more <+: ports)
    (hlt : (spaced ((shown ++ more).map prettyText)).length < n) (hport : port ∈ more)
    (hlong : 128 ≤ (prettyText port).length) {s' : PpState} {lose : Bool}
    (hloop : ppLoop ports s = some (s', lose)) : nul ∈ s'.w := by
  induction ports generalizing shown s more with
  | nil =>
    rw [List.prefix_nil.mp hmore] at hport
    exact absurd hport List.not_mem_nil
  | cons first ports ih =>
    obtain ⟨more, rfl, hrest⟩ : ∃ rest, more = first :: rest ∧ rest <+: ports := by
      cases more with
      | nil => exact absurd hport List.not_mem_nil
      | cons other rest =>
        obtain ⟨rfl, hrest⟩ := List.cons_prefix_cons.mp hmore
        exact ⟨rest, rfl, hrest⟩
    have hroom := h.room
    have hone : (spaced ((shown ++ [first]).map prettyText)).length < n := by
      refine Nat.lt_of_le_of_lt (spaced_length_le ?_) hlt
      refine List.IsPrefix.map _ ?_
      rw [List.prefix_append_right_inj]
      exact List.cons_prefix_cons.mpr ⟨rfl, List.nil_prefix⟩
    rw [h.length_concat] at hone
    have hfits : (svzPpPortcfg s.pretty (some first)).2 + s.space.length < s.size := by
      rw [svzPpPortcfg_some]
      omega
    rw [ppLoop] at hloop
    rw [if_neg (Nat.not_le.mpr hfits)] at hloop
    split at hloop
    · exact absurd hloop.symm (Option.some_ne_none _)
    next hshort =>
    by_cases hfirst : (prettyText first).length < 128
    · rcases List.mem_cons.mp hport with rfl | hport
      · exact absurd hlong (Nat.not_le.mpr hfirst)
      · refine ih (h.next hfits hfirst) hrest ?_ hport hloop
        rw [List.append_assoc, List.singleton_append]
        exact hlt
    · -- the text is as long as the buffer
      have hexact : (prettyText first).length = 128 := by
        rw [svzPpPortcfg_some] at hshort
        omega
      refine (ppLoop_begins hloop).subset (List.mem_append_right _ ?_)
      have hall : (svzPpPortcfg s.pretty (some first)).1.cells.take
            (svzPpPortcfg s.pretty (some first)).2 =
          (svzPpPortcfg s.pretty (some first)).1.cells := by
        refine List.take_of_length_le ?_
        rw [Block.size]
        exact hexact.ge
      rw [hall]
      exact Block.terminated_snprintf (by decide) s.pretty (prettyText first)

/-! ## The bindings of a server -/

theorem ppLoop_append (ports ports' : List PortCfg) (s : PpState) :
    ppLoop (ports ++ ports') s = (ppLoop ports s).bind fun r =>
      if r.2 then some r else ppLoop ports' r.1 := by
  induction ports generalizing s with
  | nil => rfl
  | cons port ports ih =>
    rw [List.cons_append, ppLoop, ppLoop]
    split
    · rfl
    split
    · rfl
    · exact ih _

theorem earsLoop_eq (server : Nat) (ears : List (List Bound)) (s : PpState) :
    earsLoop server ears s = (ppLoop (serverPorts server ears) s).map Prod.fst := by
  induction ears generalizing s with
  | nil => rfl
  | cons bindings ears ih =>
    have hports : serverPorts server (bindings :: ears) =
        fromServer server bindings ++ serverPorts server ears := rfl
    rw [earsLoop, hports, ppLoop_append]
    cases ppLoop (fromServer server bindings) s with
    | none => rfl
    | some r =>
      obtain ⟨s', lose⟩ := r
      cases lose with
      | true => rfl
      | false => exact ih s'

theorem shown_nil (n : Nat) (pretty : Block Char 128) :
    Shown (n + 1) [] ⟨[], n + 1, true, pretty⟩ :=
  ⟨rfl, iff_of_true rfl rfl, Nat.zero_add _, Nat.succ_pos n⟩

theorem svzPpServerBindings_iff (buf : Block Char (n + 1)) (pretty : Block Char 128)
    (ears : List (List Bound)) (server : Nat) :
    PrintedBindings (serverPorts server ears) (svzPpServerBindings buf pretty ears server) ↔
      Fitting (n + 1) (serverPorts server ears) := by
  have hstart := shown_nil n pretty
  unfold svzPpServerBindings
  rw [earsLoop_eq]
  constructor
  · rintro ⟨printed, hprinted, hright, -⟩
    obtain ⟨s, hs, hcopy⟩ := Option.bind_eq_some_iff.mp hprinted
    obtain ⟨⟨s₁, lose⟩, hloop, rfl⟩ := Option.map_eq_some_iff.mp hs
    obtain ⟨buf', hbuf', rfl⟩ := Option.map_eq_some_iff.mp hcopy
    intro shown hshown hlt port hport
    by_contra hlong
    have hnul : nul ∈ s₁.w :=
      ppLoop_unsound hstart hshown hlt hport (Nat.not_lt.mp hlong) hloop
    -- the string is shorter than what was written
    have hstring : (buf'.string nul).length < s₁.w.length := by
      unfold Block.strcpy at hbuf'
      split at hbuf'
      · obtain rfl := Option.some.inj hbuf'
        unfold Block.string Block.write
        exact stringOf_length_lt hnul _
      · exact absurd hbuf'.symm (Option.some_ne_none _)
    exact absurd hright.length (Nat.ne_of_gt hstring)
  · intro hfitting
    obtain ⟨s, lose, shown, hloop, hshown, hwritten⟩ := ppLoop_sound hstart hfitting
    have hroom := hwritten.room
    have hends := hwritten.ends
    have hlt : s.w.length < n + 1 := by omega
    have hnul : nul ∉ s.w := hwritten.written ▸ nul_notMem_spaced _
    rw [hloop]
    refine ⟨(buf.write nul s.w hlt, s.w.length), ?_, ⟨?_, ?_, Nat.le_of_lt_succ hlt⟩,
      shown, hshown, ?_⟩
    · show (buf.strcpy nul s.w).map _ = _
      unfold Block.strcpy
      rw [dif_pos hlt]
      rfl
    · exact Block.terminated_write hlt
    · rw [Block.string_write hnul hlt]
    · rw [Block.string_write hnul hlt]
      exact hwritten.written

/-- A port configuration is printed as it should be exactly if its text fits, and the bindings of a
server are exactly if those that fit are short enough; each into a buffer of its own size. -/
theorem bounded_iff {m : Nat} (buf : Block Char (n + 1)) (port : Option PortCfg)
    (list : Block Char (m + 1)) (pretty : Block Char 128) (ears : List (List Bound))
    (server : Nat) :
    (Printed (svzPpPortcfg buf port) ↔ (printedText port).length < n + 1) ∧
    (PrintedBindings (serverPorts server ears) (svzPpServerBindings list pretty ears server) ↔
      Fitting (m + 1) (serverPorts server ears)) :=
  ⟨svzPpPortcfg_iff buf port, svzPpServerBindings_iff list pretty ears server⟩

/-- A buffer of eight bytes is too small for the ten of a port. -/
theorem smallBuffer_not_bounded :
    ¬ ∀ (n m : Nat) (buf : Block Char (n + 1)) (port : Option PortCfg) (list : Block Char (m + 1))
      (pretty : Block Char 128) (ears : List (List Bound)) (server : Nat),
      Printed (svzPpPortcfg buf port) ∧ PrintedBindings (serverPorts server ears)
        (svzPpServerBindings list pretty ears server) := by
  intro hall
  let port : PortCfg := ⟨.tcp, 0, 0x5000, true, false, false, none, 0, "", "", rfl⟩
  let buf : Block Char 8 := ⟨List.replicate 8 nul, List.length_replicate⟩
  let pretty : Block Char 128 := ⟨List.replicate 128 nul, List.length_replicate⟩
  have htext : printedText (some port) = "TCP:[*:80]".toList := by decide +kernel
  have hfits := (svzPpPortcfg_iff buf (some port)).mp (hall 7 7 buf (some port) buf pretty [] 0).1
  rw [htext] at hfits
  exact absurd hfits (by decide)

end Serveez.Binding
