import Serveez.Lib.Runs
import Mathlib.Data.List.Basic

/-!
# The list of network interfaces

`svz_interface_add` appends to the list of interfaces unless the address is listed. The rescan
`svz_interface_check` builds the list anew from the interfaces that are detected and then adds
the old ones that were not detected by itself.

* `svzInterfaceCheck_spec`: what the list is after a rescan.
* `interfaceRun_iff`: in a run the list is the software interfaces and those of the latest
  detection, each once, as long as no rescan misses a software interface that has lost its mark.

The interfaces that the system reports are inputs; they have a name.
-/

namespace Serveez.Port

open Lib

/-- `svz_interface_t`. -/
structure Interface where
  index : Nat
  description : List Char
  addr : UInt32
  /-- Found by the program itself, or a software interface. -/
  detected : Bool

inductive InterfaceFault
  /-- `strlen` of the copy that `svz_strdup` makes of an empty description. -/
  | nullDescription

/-- The variable `interfaces`, `none` for `NULL`. -/
abbrev InterfaceList := Option (List Interface)

/-- What `svz_array_foreach` goes through. -/
def InterfaceList.entries (interfaces : InterfaceList) : List Interface := interfaces.getD []

def InterfaceList.addrs (interfaces : InterfaceList) : List UInt32 :=
  interfaces.entries.map Interface.addr

def isBlank (c : Char) : Bool := c == '\n' || c == '\r' || c == '\t' || c == ' '

/-- Without trailing white space; the first character stays. -/
def trimDescription : List Char → List Char
  | [] => []
  | c :: rest => c :: (rest.reverse.dropWhile isBlank).reverse

def svzInterfaceAdd (interfaces : InterfaceList) (index : Nat) (desc : List Char) (addr : UInt32)
    (detected : Bool) : Except InterfaceFault (InterfaceList × Int) :=
  if addr ∈ interfaces.addrs then .ok (interfaces, -1)
  else if desc = [] then .error .nullDescription
  else
    let ifc := { index, description := trimDescription desc, addr, detected }
    .ok (some (interfaces.entries ++ [ifc]), 0)

/-- `by_address`. -/
def byAddress (interfaces : InterfaceList) (addr : UInt32) : Option Interface :=
  interfaces.entries.find? (·.addr == addr)

/-- An interface that the system reports. -/
structure Found where
  index : Nat
  name : List Char
  addr : UInt32
  name_ne : name ≠ []

/-- The loop of `collect` over what the system reports. -/
def collect : InterfaceList → List Found → Except InterfaceFault InterfaceList
  | interfaces, [] => .ok interfaces
  | interfaces, ifr :: rest =>
    match svzInterfaceAdd interfaces ifr.index ifr.name ifr.addr true with
    | .error fault => .error fault
    | .ok added => collect added.1 rest

/-- What is logged about a change. -/
inductive Notice
  | removed (description : List Char) (addr : UInt32)
  | added (description : List Char) (addr : UInt32)
  | noChanges

/-- The first loop of `svz_interface_check`, over the old list. -/
def reapply : InterfaceList → List Interface →
    Except InterfaceFault (InterfaceList × List Notice)
  | interfaces, [] => .ok (interfaces, [])
  | interfaces, ifc :: rest =>
    if (byAddress interfaces ifc.addr).isSome then reapply interfaces rest
    else if !ifc.detected then
      match svzInterfaceAdd interfaces ifc.index ifc.description ifc.addr ifc.detected with
      | .error fault => .error fault
      | .ok added => reapply added.1 rest
    else
      (reapply interfaces rest).map fun r => (r.1, .removed ifc.description ifc.addr :: r.2)

/-- The second loop, over the new list. -/
def newNotices (interfaces : InterfaceList) (was : List Interface) : List Notice :=
  (interfaces.entries.filter fun ifc => was.all (·.addr != ifc.addr)).map
    fun ifc => .added ifc.description ifc.addr

/-- A message is printed if no changes occurred. -/
def reported (changes : List Notice) : List Notice :=
  if changes = [] then [.noChanges] else changes

def svzInterfaceCheck (interfaces : InterfaceList) (found : List Found) :
    Except InterfaceFault (InterfaceList × List Notice) :=
  match interfaces with
  | none => .ok (none, [.noChanges])
  | some was =>
    match collect none found with
    | .error fault => .error fault
    | .ok detected => (reapply detected was).map fun r =>
      (r.1, reported (r.2 ++ newNotices r.1 was))

/-! ## Runs -/

/-- The list with the addresses that were added as software interfaces, and those that the
latest detection has found. -/
structure Watched where
  interfaces : InterfaceList
  software : List UInt32
  latest : List UInt32

inductive InterfaceOp
  /-- With `detected` set it is part of the latest detection, as at the start of the program. -/
  | add (index : Nat) (desc : List Char) (addr : UInt32) (detected : Bool)
  | check (found : List Found)

def InterfaceOp.apply (w : Watched) : InterfaceOp → Except InterfaceFault Watched
  | .add index desc addr detected =>
    (svzInterfaceAdd w.interfaces index desc addr detected).map fun r =>
      { interfaces := r.1
        software := if detected then w.software else addr :: w.software
        latest := if detected then addr :: w.latest else w.latest }
  | .check found =>
    (svzInterfaceCheck w.interfaces found).map fun r =>
      { w with interfaces := r.1, latest := found.map Found.addr }

def interfaceStep (state : Except InterfaceFault Watched) (op : InterfaceOp) :
    Except InterfaceFault Watched := state.bind fun w => op.apply w

def interfaceRun (ops : List InterfaceOp) : Except InterfaceFault Watched :=
  ops.foldl interfaceStep (.ok { interfaces := none, software := [], latest := [] })

/-! ## One interface more -/

/-- The list has the address marked as a software interface. -/
def Soft (list : List Interface) (a : UInt32) : Prop :=
  ∃ ifc ∈ list, ifc.addr = a ∧ ifc.detected = false

/-- Every interface has a description, and no address is listed twice. -/
structure Proper (interfaces : InterfaceList) : Prop where
  nodup : interfaces.addrs.Nodup
  named : ∀ ifc ∈ interfaces.entries, ifc.description ≠ []

theorem proper_none : Proper none := ⟨List.nodup_nil, fun _ hmem => absurd hmem List.not_mem_nil⟩

theorem trimDescription_ne {desc : List Char} (h : desc ≠ []) : trimDescription desc ≠ [] := by
  cases desc with
  | nil => exact absurd rfl h
  | cons c rest => exact List.cons_ne_nil _ _

theorem soft_append {list more : List Interface} {a : UInt32} :
    Soft (list ++ more) a ↔ Soft list a ∨ Soft more a := by
  unfold Soft
  simp only [List.mem_append, or_and_right, exists_or]

theorem soft_cons {ifc : Interface} {list : List Interface} {a : UInt32} :
    Soft (ifc :: list) a ↔ (ifc.addr = a ∧ ifc.detected = false) ∨ Soft list a := by
  unfold Soft
  simp only [List.mem_cons, or_and_right, exists_or, exists_eq_left]

theorem not_soft_nil (a : UInt32) : ¬ Soft [] a := fun ⟨_, hmem, _⟩ => List.not_mem_nil hmem

/-- The address is listed afterwards, and marked if it was marked before or is new. -/
structure Adds (interfaces : InterfaceList) (addr : UInt32) (detected : Bool)
    (result : InterfaceList) : Prop where
  proper : Proper result
  mem_addrs : ∀ a, a ∈ result.addrs ↔ a ∈ interfaces.addrs ∨ a = addr
  soft : ∀ a, Soft result.entries a → Soft interfaces.entries a ∨ (a = addr ∧ detected = false)

section Add

variable {interfaces : InterfaceList} (index : Nat) {desc : List Char} {addr : UInt32}
  (detected : Bool)

theorem svzInterfaceAdd_listed (hmem : addr ∈ interfaces.addrs) :
    svzInterfaceAdd interfaces index desc addr detected = .ok (interfaces, -1) := if_pos hmem

theorem svzInterfaceAdd_error (hmem : addr ∉ interfaces.addrs) (hdesc : desc = []) :
    svzInterfaceAdd interfaces index desc addr detected = .error .nullDescription := by
  rw [svzInterfaceAdd, if_neg hmem, if_pos hdesc]

theorem svzInterfaceAdd_new (hmem : addr ∉ interfaces.addrs) (hdesc : desc ≠ []) :
    svzInterfaceAdd interfaces index desc addr detected =
      .ok (some (interfaces.entries ++ [⟨index, trimDescription desc, addr, detected⟩]), 0) := by
  rw [svzInterfaceAdd, if_neg hmem, if_neg hdesc]

theorem svzInterfaceAdd_adds (addr : UInt32) (hproper : Proper interfaces)
    (hdesc : desc ≠ [] ∨ addr ∈ interfaces.addrs) :
    ∃ result ret, svzInterfaceAdd interfaces index desc addr detected = .ok (result, ret) ∧
      Adds interfaces addr detected result := by
  by_cases hmem : addr ∈ interfaces.addrs
  · refine ⟨interfaces, -1, svzInterfaceAdd_listed index detected hmem, hproper, fun a => ?_,
      fun a => .inl⟩
    exact ⟨.inl, fun h => h.elim id fun heq => heq ▸ hmem⟩
  · have hne := hdesc.resolve_right hmem
    let ifc : Interface := ⟨index, trimDescription desc, addr, detected⟩
    have haddrs : InterfaceList.addrs (some (interfaces.entries ++ [ifc])) =
        interfaces.addrs ++ [addr] := List.map_append
    refine ⟨_, 0, svzInterfaceAdd_new index detected hmem hne, ⟨?_, ?_⟩, fun a => ?_, fun a => ?_⟩
    · rw [haddrs, List.nodup_append]
      refine ⟨hproper.nodup, List.pairwise_singleton _ addr, fun a ha b hb hab => ?_⟩
      rw [List.mem_singleton.mp hb] at hab
      exact hmem (hab ▸ ha)
    · intro other hother
      rcases List.mem_append.mp hother with hold | hnew
      · exact hproper.named other hold
      · rw [List.mem_singleton.mp hnew]
        exact trimDescription_ne hne
    · rw [haddrs, List.mem_append, List.mem_singleton]
    · intro hsoft
      rcases soft_append.mp hsoft with hold | hnew
      · exact .inl hold
      · rcases soft_cons.mp hnew with ⟨haddr, hflag⟩ | hnone
        · exact .inr ⟨haddr.symm, hflag⟩
        · exact absurd hnone (not_soft_nil a)

end Add

/-! ## The rescan -/

variable {interfaces : InterfaceList}

/-- The interfaces that are detected are added without a mark. -/
theorem collect_spec (found : List Found) (hproper : Proper interfaces) :
    ∃ result, collect interfaces found = .ok result ∧ Proper result ∧
      (∀ a, a ∈ result.addrs ↔ a ∈ interfaces.addrs ∨ a ∈ found.map Found.addr) ∧
      ∀ a, Soft result.entries a → Soft interfaces.entries a := by
  induction found generalizing interfaces with
  | nil =>
    exact ⟨interfaces, rfl, hproper, fun a => (or_iff_left List.not_mem_nil).symm, fun _ => id⟩
  | cons ifr rest ih =>
    obtain ⟨added, ret, hadd, hadds⟩ :=
      svzInterfaceAdd_adds ifr.index true ifr.addr hproper (.inl ifr.name_ne)
    obtain ⟨result, hcollect, hres, haddrs, hsoft⟩ := ih hadds.proper
    refine ⟨result, ?_, hres, fun a => ?_, fun a h => ?_⟩
    · rw [collect, hadd]
      exact hcollect
    · rw [haddrs, hadds.mem_addrs, List.map_cons, List.mem_cons, or_assoc]
    · rcases hadds.soft a (hsoft a h) with hold | ⟨-, hflag⟩
      · exact hold
      · exact absurd hflag (by decide)

theorem byAddress_isSome (a : UInt32) :
    (byAddress interfaces a).isSome = true ↔ a ∈ interfaces.addrs := by
  unfold byAddress
  rw [List.find?_isSome]
  simp only [beq_iff_eq, InterfaceList.addrs, List.mem_map]

/-- The old software interfaces are added, the other old ones are not. -/
theorem reapply_spec (was : List Interface) (hproper : Proper interfaces)
    (hnamed : ∀ ifc ∈ was, ifc.description ≠ []) :
    ∃ result notices, reapply interfaces was = .ok (result, notices) ∧ Proper result ∧
      (∀ a, a ∈ result.addrs ↔ a ∈ interfaces.addrs ∨ Soft was a) ∧
      ∀ a, Soft result.entries a → Soft interfaces.entries a ∨ Soft was a := by
  induction was generalizing interfaces with
  | nil =>
    exact ⟨interfaces, [], rfl, hproper, fun a => (or_iff_left (not_soft_nil a)).symm,
      fun _ => .inl⟩
  | cons ifc rest ih =>
    have hrest : ∀ other ∈ rest, other.description ≠ [] :=
      fun other hmem => hnamed other (List.mem_cons_of_mem _ hmem)
    by_cases hlisted : ifc.addr ∈ interfaces.addrs
    · obtain ⟨result, notices, hreapply, hres, haddrs, hsoft⟩ := ih hproper hrest
      refine ⟨result, notices, ?_, hres, fun a => ?_, fun a h => ?_⟩
      · rw [reapply, if_pos ((byAddress_isSome _).mpr hlisted), hreapply]
      · rw [haddrs, soft_cons]
        constructor
        · exact fun h => h.imp_right .inr
        · rintro (hold | ⟨rfl, -⟩ | hmarked)
          · exact .inl hold
          · exact .inl hlisted
          · exact .inr hmarked
      · exact (hsoft a h).imp_right fun hmarked => soft_cons.mpr (.inr hmarked)
    · have hnew : ¬ (byAddress interfaces ifc.addr).isSome = true :=
        fun h => hlisted ((byAddress_isSome _).mp h)
      cases hflag : ifc.detected with
      | true =>
        obtain ⟨result, notices, hreapply, hres, haddrs, hsoft⟩ := ih hproper hrest
        have hsame (a : UInt32) : Soft (ifc :: rest) a ↔ Soft rest a := by
          rw [soft_cons, hflag]
          exact or_iff_right fun h => absurd h.2 (by decide)
        refine ⟨result, .removed ifc.description ifc.addr :: notices, ?_, hres, fun a => ?_,
          fun a h => ?_⟩
        · rw [reapply, if_neg hnew, hflag, if_neg (by decide), hreapply]
          rfl
        · rw [haddrs, hsame]
        · rw [hsame]
          exact hsoft a h
      | false =>
        obtain ⟨added, ret, hadd, hadds⟩ := svzInterfaceAdd_adds ifc.index false ifc.addr
          hproper (.inl (hnamed ifc List.mem_cons_self))
        obtain ⟨result, notices, hreapply, hres, haddrs, hsoft⟩ := ih hadds.proper hrest
        refine ⟨result, notices, ?_, hres, fun a => ?_, fun a h => ?_⟩
        · rw [reapply, if_neg hnew, hflag, if_pos (by decide), hadd]
          exact hreapply
        · rw [haddrs, hadds.mem_addrs, soft_cons, hflag, or_assoc, eq_comm]
          simp only [and_true]
        · rw [soft_cons]
          rcases hsoft a h with hold | hmarked
          · rcases hadds.soft a hold with hbefore | ⟨haddr, -⟩
            · exact .inl hbefore
            · exact .inr (.inl ⟨haddr.symm, hflag⟩)
          · exact .inr (.inr hmarked)

/-- The new list has the addresses found and the marked ones of the old list. -/
theorem svzInterfaceCheck_spec {was : List Interface} (hproper : Proper (some was))
    (found : List Found) :
    ∃ result notices, svzInterfaceCheck (some was) found = .ok (result, notices) ∧
      Proper result ∧ (∀ a, a ∈ result.addrs ↔ a ∈ found.map Found.addr ∨ Soft was a) ∧
      ∀ a, Soft result.entries a → Soft was a := by
  obtain ⟨detected, hcollect, hdetected, haddrs, hnone⟩ := collect_spec found proper_none
  obtain ⟨result, notices, hreapply, hres, hmem, hsoft⟩ :=
    reapply_spec was hdetected hproper.named
  refine ⟨result, reported (notices ++ newNotices result was), ?_, hres, fun a => ?_,
    fun a h => ?_⟩
  · rw [svzInterfaceCheck, hcollect]
    simp only [hreapply]
    rfl
  · rw [hmem, haddrs]
    exact or_congr_left (or_iff_right List.not_mem_nil)
  · exact (hsoft a h).resolve_left fun hold => not_soft_nil a (hnone a hold)

/-! ## Every run -/

/-- Each address once, and the addresses are those of the software interfaces and those of the
latest detection. -/
structure Listed (w : Watched) : Prop where
  nodup : w.interfaces.addrs.Nodup
  mem_iff : ∀ a, a ∈ w.interfaces.addrs ↔ a ∈ w.software ∨ a ∈ w.latest

/-- What holds besides. -/
structure Marks (w : Watched) : Prop where
  proper : Proper w.interfaces
  soft : ∀ a, Soft w.interfaces.entries a → a ∈ w.software

/-- A new interface has a description. A rescan that finds something has a list to look at, and
a software interface that it does not find has its mark. -/
def Keeps (w : Watched) : InterfaceOp → Prop
  | .add _ desc addr _ => desc ≠ [] ∨ addr ∈ w.interfaces.addrs
  | .check found => (w.interfaces = none → found = []) ∧
      ∀ a ∈ w.software, a ∈ found.map Found.addr ∨ Soft w.interfaces.entries a

variable {w : Watched}

theorem add_keeps (hmarks : Marks w) (hlisted : Listed w) (index : Nat) {desc : List Char}
    {addr : UInt32} (detected : Bool) (hdesc : desc ≠ [] ∨ addr ∈ w.interfaces.addrs) :
    ∃ w', (InterfaceOp.add index desc addr detected).apply w = .ok w' ∧ Marks w' ∧
      Listed w' := by
  obtain ⟨result, ret, hadd, hadds⟩ := svzInterfaceAdd_adds index detected addr hmarks.proper hdesc
  refine ⟨_, by rw [InterfaceOp.apply, hadd]; rfl, ⟨hadds.proper, ?_⟩, hadds.proper.nodup, ?_⟩
  · intro a hsoft
    rcases hadds.soft a hsoft with hold | ⟨rfl, rfl⟩
    · have hbefore := hmarks.soft a hold
      cases detected with
      | true => exact hbefore
      | false => exact List.mem_cons_of_mem _ hbefore
    · exact List.mem_cons_self
  · intro a
    rw [hadds.mem_addrs, hlisted.mem_iff]
    cases detected with
    | true =>
      simp only [if_true, List.mem_cons]
      tauto
    | false =>
      simp only [Bool.false_eq_true, if_false, List.mem_cons]
      tauto

/-- The rescan loses exactly the software interfaces that are neither found nor marked. -/
theorem check_listed_iff (hmarks : Marks w) (hlisted : Listed w) (found : List Found) :
    ∃ w', (InterfaceOp.check found).apply w = .ok w' ∧ Marks w' ∧
      (Listed w' ↔ Keeps w (.check found)) := by
  obtain ⟨interfaces, software, latest⟩ := w
  cases interfaces with
  | none =>
    have hempty : software = [] := by
      refine List.eq_nil_iff_forall_not_mem.mpr fun a ha => ?_
      exact List.not_mem_nil ((hlisted.mem_iff a).mpr (.inl ha))
    refine ⟨⟨none, software, found.map Found.addr⟩, rfl, ⟨proper_none, hmarks.soft⟩, ?_⟩
    constructor
    · intro h
      have hfound : found.map Found.addr = [] := by
        refine List.eq_nil_iff_forall_not_mem.mpr fun a ha => ?_
        exact List.not_mem_nil ((h.mem_iff a).mpr (.inr ha))
      refine ⟨fun _ => List.map_eq_nil_iff.mp hfound, fun a ha => ?_⟩
      rw [hempty] at ha
      exact absurd ha List.not_mem_nil
    · rintro ⟨hnone, -⟩
      refine ⟨List.nodup_nil, fun a => ?_⟩
      rw [hempty, hnone rfl]
      exact iff_of_false List.not_mem_nil (fun h => h.elim List.not_mem_nil List.not_mem_nil)
  | some was =>
    obtain ⟨result, notices, hcheck, hproper, haddrs, hsoft⟩ :=
      svzInterfaceCheck_spec hmarks.proper found
    refine ⟨⟨result, software, found.map Found.addr⟩, ?_, ⟨hproper, ?_⟩, ?_⟩
    · simp only [InterfaceOp.apply, hcheck]
      rfl
    · exact fun a h => hmarks.soft a (hsoft a h)
    · constructor
      · intro h
        refine ⟨fun hnone => absurd hnone (Option.some_ne_none _), fun a ha => ?_⟩
        exact (haddrs a).mp ((h.mem_iff a).mpr (.inl ha))
      · rintro ⟨-, hkeep⟩
        refine ⟨hproper.nodup, fun a => ?_⟩
        rw [haddrs]
        constructor
        · exact fun h => h.symm.imp_left (hmarks.soft a)
        · rintro (ha | ha)
          · exact hkeep a ha
          · exact .inl ha

theorem apply_listed_iff (hmarks : Marks w) (hlisted : Listed w) (op : InterfaceOp) :
    (∃ w', op.apply w = .ok w' ∧ Listed w') ↔ Keeps w op := by
  cases op with
  | add index desc addr detected =>
    constructor
    · rintro ⟨w', happly, -⟩
      by_cases hmem : addr ∈ w.interfaces.addrs
      · exact .inr hmem
      · refine .inl fun hdesc => ?_
        rw [InterfaceOp.apply, svzInterfaceAdd_error index detected hmem hdesc] at happly
        cases happly
    · intro hkeeps
      obtain ⟨w', happly, -, hgood⟩ := add_keeps hmarks hlisted index detected hkeeps
      exact ⟨w', happly, hgood⟩
  | check found =>
    obtain ⟨w', happly, -, hiff⟩ := check_listed_iff hmarks hlisted found
    constructor
    · rintro ⟨w'', happly', hgood⟩
      rw [happly] at happly'
      cases happly'
      exact hiff.mp hgood
    · exact fun hkeeps => ⟨w', happly, hiff.mpr hkeeps⟩

theorem apply_marks (hmarks : Marks w) (hlisted : Listed w) {op : InterfaceOp}
    (hkeeps : Keeps w op) : ∀ w', op.apply w = .ok w' → Marks w' := by
  intro w' happly
  cases op with
  | add index desc addr detected =>
    obtain ⟨_, happly', hnext, -⟩ := add_keeps hmarks hlisted index detected hkeeps
    rw [happly] at happly'
    cases happly'
    exact hnext
  | check found =>
    obtain ⟨_, happly', hnext, -⟩ := check_listed_iff hmarks hlisted found
    rw [happly] at happly'
    cases happly'
    exact hnext

/-- In all states of a run the list is what was asked for, if and only if every step of it is
one that keeps it so. -/
theorem interfaceRun_iff (ops : List InterfaceOp) :
    (∀ pre, pre <+: ops → ∃ w, interfaceRun pre = .ok w ∧ Listed w) ↔
      ∀ pre op, pre ++ [op] <+: ops → ∀ w, interfaceRun pre = .ok w → Keeps w op := by
  unfold interfaceRun
  apply forall_prefix_iff_of_aux interfaceStep (fun state => ∀ w, state = .ok w → Marks w)
    (fun state => ∃ w, state = .ok w ∧ Listed w) (fun state op => ∀ w, state = .ok w → Keeps w op)
  · rintro w ⟨⟩
    exact ⟨proper_none, fun a h => absurd h (not_soft_nil a)⟩
  · refine ⟨_, rfl, List.nodup_nil, fun a => ?_⟩
    exact iff_of_false List.not_mem_nil (fun h => h.elim List.not_mem_nil List.not_mem_nil)
  · rintro pre op - hmarks ⟨w, hw, hlisted⟩ hnext w' hw'
    rw [hw] at hw' hnext
    cases hw'
    exact (apply_listed_iff (hmarks w hw) hlisted op).mp hnext
  · rintro pre op - hmarks ⟨w, hw, hlisted⟩ hkeeps
    have hstep : interfaceStep (pre.foldl interfaceStep
        (.ok { interfaces := none, software := [], latest := [] })) op = op.apply w := by
      rw [hw]
      rfl
    rw [hstep]
    exact ⟨apply_marks (hmarks w hw) hlisted (hkeeps w hw),
      (apply_listed_iff (hmarks w hw) hlisted op).mpr (hkeeps w hw)⟩

/-- A software interface that one rescan finds and the next one does not. -/
def vanished : List InterfaceOp :=
  [.add 0 ['e', 't', 'h'] 1 false, .check [⟨2, ['e', 't', 'h'], 1, List.cons_ne_nil _ _⟩],
    .check []]

theorem vanished_lost : ¬ ∃ w, interfaceRun vanished = .ok w ∧ Listed w := by
  rintro ⟨w, hrun, hlisted⟩
  have hlost : interfaceRun vanished = .ok { interfaces := none, software := [1], latest := [] } :=
    rfl
  rw [hlost] at hrun
  cases hrun
  exact List.not_mem_nil ((hlisted.mem_iff 1).mpr (.inl List.mem_cons_self))

end Serveez.Port
