import Serveez.Port.Accept
import Serveez.Hash.Refinement
import Serveez.Data.SvzArray
import Serveez.Tunnel.Isolation
import Mathlib.Data.List.TakeWhile

/-!
# The frequency of connections

`check_frequency` keeps the times of the connections from an address in an array, and the arrays in
a table of the port whose keys are the printed addresses. The array is pruned while it is iterated.
`nr` counts the connections of some seconds in an `int`; it is a number without bound here.

* `checkFrequency_simulates`: the array and the table are the times of the listener.
* `Recorded.pruned`: what is kept for an address, at the time of its last connection.
* `checkFrequency_window`: the answer, after all connections that there have been.
-/

namespace Serveez.Port.Frequency

open Hash Data Tunnel

/-- A connection from an address, with the memory that there is. -/
structure Connect where
  addr : UInt32
  current : Int
  free : Free

abbrev Accepted := SvzHash (SvzArray Int)

/-- `SVZ_NUM2PTR` -/
def num2ptr (n : Int) : Option Int := if n = 0 then none else some n

/-- `SVZ_PTR2NUM` -/
def ptr2num (p : Option Int) : Int := p.getD 0

/-- The address in the buffer, a string. -/
def ip (addr : UInt32) : Bytes := (ppAddress addr).map fun c => UInt8.ofNat c.toNat

/-- The array of an address without the older entries, and the result of the check. -/
def checkTimes (connectFreq : Int) (call : Connect) (times : Option (SvzArray Int)) :
    Except Halt (SvzArray Int × Int) :=
  match times with
  | some times =>
    let older (t : Option Int) : Bool := ptr2num t < call.current - 4
    match foreachDel older (svzArraySize times + 1) 0 times [] with
    | .ok (times, tested) =>
      let nr : Int := tested.countP (!older ·)
      .ok (times, if nr / 4 > connectFreq then -1 else 0)
    | .error halt => .error halt
  | none =>
    match svzArrayCreate call.free 1 with
    | .ok times => .ok (times, 0)
    | .error halt => .error halt

def checkAccepted (connectFreq : Int) (call : Connect) (accepted : Accepted)
    (times : Option (SvzArray Int)) : Except Halt (Accepted × Int) :=
  match checkTimes connectFreq call times with
  | .ok (times, ret) =>
    match svzArrayAdd call.free times (num2ptr call.current) with
    | .ok times => .ok ((svzHashPut accepted (ip call.addr) (some times)).1, ret)
    | .error halt => .error halt
  | .error halt => .error halt

/-- `check_frequency`; there is no table before the first call. -/
def checkFrequency (connectFreq : Int) (accepted : Option Accepted) (call : Connect) :
    Except Halt (Accepted × Int) :=
  match accepted with
  | some accepted =>
    checkAccepted connectFreq call accepted (svzHashGet accepted (ip call.addr))
  | none =>
    match svzHashCreate 4 with
    | some accepted => checkAccepted connectFreq call accepted none
    | none => .error .runsOn

/-- The frequency that `svz_portcfg_prepare` leaves, before there is a listener. -/
def svzPortcfgPrepare (connectFreq : Int) : Int := if connectFreq ≤ 0 then 100 else connectFreq

def frequencyStep (connectFreq : Int) (accepted : Except Halt (Option Accepted)) (call : Connect) :
    Except Halt (Accepted × Int) :=
  match accepted with
  | .ok accepted => checkFrequency connectFreq accepted call
  | .error halt => .error halt

/-- The table after a sequence of calls. -/
def frequencyRun (connectFreq : Int) (calls : List Connect) : Except Halt (Option Accepted) :=
  calls.foldl (fun accepted call =>
    (frequencyStep connectFreq accepted call).map fun result => some result.1) (.ok none)

/-- A call after others. -/
def callAfter (connectFreq : Int) (calls : List Connect) (call : Connect) :
    Except Halt (Accepted × Int) :=
  frequencyStep connectFreq (frequencyRun connectFreq calls) call

/-! ## Windows -/

/-- The times of the connections from an address. -/
def ownTimes (calls : List Connect) (addr : UInt32) : List Int :=
  (calls.filter (·.addr = addr)).map Connect.current

/-- The times that are not older than four seconds. -/
def recent (current : Int) (times : List Int) : List Int := times.filter (current - 4 ≤ ·)

/-- The array that is kept for the address and the answer. -/
structure Windowed (connectFreq : Int) (calls : List Connect) (call : Connect)
    (accepted : Accepted) (ret : Int) : Prop where
  kept : ∃ array, svzHashGet accepted (ip call.addr) = some array ∧
    array.data = (recent call.current (ownTimes (calls ++ [call]) call.addr)).map num2ptr
  rejects : ret =
    if ((recent call.current (ownTimes calls call.addr)).length / 4 : Nat) > connectFreq then -1
    else 0

/-- The time does not go back. -/
def Ordered (calls : List Connect) : Prop := (calls.map Connect.current).Pairwise (· ≤ ·)

/-! ## Printed addresses -/

theorem ppAddress_injective {addr addr' : UInt32} (h : ppAddress addr = ppAddress addr') :
    addr = addr' := by
  have hsame : tnlAddr ⟨addr, 0⟩ = tnlAddr ⟨addr', 0⟩ := by
    unfold tnlAddr
    rw [h]
  exact congrArg Udp.Dest.addr (tnlAddr_injective hsame)

/-- The characters that are printed. -/
theorem mem_ppAddress {addr : UInt32} {c : Char} (hc : c ∈ ppAddress addr) :
    46 ≤ c.toNat ∧ c.toNat ≤ 57 := by
  have hdigits : ∀ n, c ∈ printDecimal n → 46 ≤ c.toNat ∧ c.toNat ≤ 57 := by
    intro n hmem
    obtain ⟨hlow, hhigh⟩ :=
      Lib.isDigit_of_mem_printLoop (fun c hc => absurd hc List.not_mem_nil) c hmem
    have hlow' : 48 ≤ c.toNat := hlow
    exact ⟨by omega, hhigh⟩
  unfold ppAddress at hc
  simp only [List.mem_append, List.mem_cons] at hc
  rcases hc with ((hc | rfl | hc) | rfl | hc) | rfl | hc
  all_goals first | exact hdigits _ hc | decide

theorem ip_injective {addr addr' : UInt32} (h : ip addr = ip addr') : addr = addr' := by
  have hback (addr : UInt32) : (ip addr).map (fun b => Char.ofNat b.toNat) = ppAddress addr := by
    unfold ip
    rw [List.map_map]
    refine (List.map_congr_left fun c hc => ?_).trans (List.map_id _)
    have hle := mem_ppAddress hc
    show Char.ofNat (UInt8.ofNat c.toNat).toNat = c
    rw [UInt8.toNat_ofNat', Nat.mod_eq_of_lt (by omega), Char.ofNat_toNat]
  refine ppAddress_injective ?_
  rw [← hback addr, ← hback addr', h]

theorem cString_ip (addr : UInt32) : cString (ip addr) = ip addr := by
  unfold cString
  rw [List.takeWhile_eq_self_iff]
  intro b hb
  obtain ⟨c, hc, rfl⟩ := List.mem_map.mp hb
  have hle := mem_ppAddress hc
  have hne : UInt8.ofNat c.toNat ≠ 0 := by
    intro hzero
    have hnat := congrArg UInt8.toNat hzero
    rw [UInt8.toNat_ofNat', Nat.mod_eq_of_lt (by omega)] at hnat
    have : c.toNat = 0 := hnat
    omega
  rw [decide_eq_false hne]
  rfl

theorem key_ip_iff {addr addr' : UInt32} :
    defaultCallbacks_lawful.key (ip addr) = defaultCallbacks_lawful.key (ip addr') ↔
      addr = addr' := by
  constructor
  · intro h
    have hstring := (hashEqual_eq_zero_iff _ _).mp ((key_eq_iff defaultCallbacks_lawful).mp h)
    rw [cString_ip, cString_ip] at hstring
    exact ip_injective hstring
  · rintro rfl
    rfl

/-! ## Arrays and times -/

theorem ptr2num_num2ptr (n : Int) : ptr2num (num2ptr n) = n := by
  unfold num2ptr
  split_ifs with h
  · exact h.symm
  · rfl

/-- The array of an address has the times that the listener has. -/
def Keeps (array : Option (SvzArray Int)) (times : Option (List Int)) : Prop :=
  match array with
  | none => times = none
  | some array => Roomy array ∧ ∃ kept, times = some kept ∧ array.data = kept.map num2ptr

/-- The name of an address in the listener. -/
def remote (addr : UInt32) : String := String.ofList (ppAddress addr)

theorem remote_injective {addr addr' : UInt32} (h : remote addr = remote addr') : addr = addr' :=
  ppAddress_injective (String.ofList_inj.mp h)

/-- What the listener keeps after a call, and its answer. -/
def keptTimes (current : Int) (times : Option (List Int)) : List Int :=
  ((times.getD []).filter fun t => !decide (t < current - 4)) ++ [current]

def answer (connectFreq current : Int) (times : Option (List Int)) : Int :=
  if times.isSome && decide
    ((((times.getD []).filter fun t => !decide (t < current - 4)).length : Int) / 4 > connectFreq)
    then -1 else 0

variable {connectFreq : Int} {call : Connect} {array : Option (SvzArray Int)}
  {times : Option (List Int)}

/-- What the loop comes to. -/
theorem checkTimes_spec (connectFreq : Int) (call : Connect) (h : Keeps array times) :
    match checkTimes connectFreq call array with
    | .ok (array', ret) => Roomy array' ∧
        array'.data = ((times.getD []).filter fun t => !decide (t < call.current - 4)).map num2ptr ∧
        ret = answer connectFreq call.current times
    | .error halt => halt = .noMemory := by
  cases array with
  | none =>
    obtain rfl : times = none := h
    have hcreate : Does (svzArrayCreate call.free 1 : Except Halt (SvzArray Int)) [] :=
      svzArrayCreate_does call.free (by omega)
    unfold checkTimes
    dsimp only
    cases heq : (svzArrayCreate call.free 1 : Except Halt (SvzArray Int)) with
    | error halt =>
      rw [heq] at hcreate
      exact hcreate
    | ok array =>
      rw [heq] at hcreate
      exact ⟨hcreate.1, hcreate.2, rfl⟩
  | some array =>
    obtain ⟨hroomy, kept, rfl, hdata⟩ := h
    have hword : array.data.length < 2 ^ 64 := by
      have hfits : array.data.length ≤ array.capacity := hroomy.fits
      have hbytes := hroomy.bytes
      omega
    -- the pointers that stay are those of the times that stay
    have hstay : ∀ t : Int, (!decide (ptr2num (num2ptr t) < call.current - 4)) =
        !decide (t < call.current - 4) := fun t => by rw [ptr2num_num2ptr]
    have hfilter : (array.data.filter fun t => !decide (ptr2num t < call.current - 4)) =
        (kept.filter fun t => !decide (t < call.current - 4)).map num2ptr := by
      rw [hdata, List.filter_map]
      exact congrArg (List.map num2ptr) (List.filter_congr fun t _ => hstay t)
    unfold checkTimes
    dsimp only
    rw [foreachDel_eq hword]
    refine ⟨hroomy.data (List.length_filter_le _ _), hfilter, ?_⟩
    unfold answer
    rw [List.countP_eq_length_filter, hfilter, List.length_map, Option.getD_some,
      Option.isSome_some, Bool.true_and]
    by_cases hfreq : ((kept.filter fun t => !decide (t < call.current - 4)).length : Int) / 4 >
        connectFreq
    · rw [if_pos hfreq, if_pos (decide_eq_true hfreq)]
    · rw [if_neg hfreq, if_neg (by rw [decide_eq_false hfreq]; exact Bool.false_ne_true)]

theorem checkAccepted_spec (connectFreq : Int) (call : Connect) (accepted : Accepted)
    (h : Keeps array times) :
    match checkAccepted connectFreq call accepted array with
    | .ok (accepted', ret) =>
      ∃ array', accepted' = (svzHashPut accepted (ip call.addr) (some array')).1 ∧
        Keeps (some array') (some (keptTimes call.current times)) ∧
        ret = answer connectFreq call.current times
    | .error halt => halt = .noMemory := by
  have htimes := checkTimes_spec connectFreq call h
  unfold checkAccepted
  cases hcheck : checkTimes connectFreq call array with
  | error halt =>
    rw [hcheck] at htimes
    exact htimes
  | ok result =>
    rw [hcheck] at htimes
    obtain ⟨hroomy, hdata, hret⟩ := htimes
    have hadd := svzArrayAdd_does call.free hroomy (num2ptr call.current)
    dsimp only
    cases heq : svzArrayAdd call.free result.1 (num2ptr call.current) with
    | error halt =>
      rw [heq] at hadd
      exact hadd
    | ok array' =>
      rw [heq] at hadd
      refine ⟨array', rfl, ⟨hadd.1, _, rfl, ?_⟩, hret⟩
      unfold keptTimes
      rw [hadd.2, hdata, List.map_append, List.map_singleton]

/-! ## Tables and listeners -/

/-- The listener with the times of an address. -/
def keep (listener : Listener) (addr : UInt32) (kept : List Int) : Listener :=
  { listener with accepted := Function.update listener.accepted (remote addr) (some kept) }

/-- The table has an array for each address that the listener knows. -/
def Simulates (accepted : Option Accepted) (listener : Listener) : Prop :=
  match accepted with
  | none => ∀ addr, listener.accepted (remote addr) = none
  | some accepted => (∃ m : Map defaultCallbacks_lawful (SvzArray Int),
      Represents defaultCallbacks_lawful accepted m) ∧
      ∀ addr, Keeps (svzHashGet accepted (ip addr)) (listener.accepted (remote addr))

variable {accepted : Option Accepted} {listener : Listener}

theorem listener_eq (listener : Listener) (addr : UInt32) (current : Int) :
    Port.checkFrequency listener (remote addr) current =
      (keep listener addr (keptTimes current (listener.accepted (remote addr))),
        answer listener.port.connectFreq current (listener.accepted (remote addr))) :=
  rfl

theorem simulates_put {accepted : Accepted} {array : SvzArray Int} {kept : List Int} {addr : UInt32}
    {m : Map defaultCallbacks_lawful (SvzArray Int)}
    (hr : Represents defaultCallbacks_lawful accepted m)
    (hget : ∀ addr, Keeps (svzHashGet accepted (ip addr)) (listener.accepted (remote addr)))
    (hkeeps : Keeps (some array) (some kept)) :
    Simulates (some (svzHashPut accepted (ip addr) (some array)).1) (keep listener addr kept) := by
  have hput := (represents_put hr (ip addr) (some array)).1
  refine ⟨⟨_, hput⟩, fun other => ?_⟩
  rw [svzHashGet_eq_lookup hput]
  by_cases hsame : other = addr
  · subst hsame
    rw [Finmap.lookup_insert]
    show Keeps (some array) (Function.update listener.accepted (remote other) (some kept)
      (remote other))
    rw [Function.update_self]
    exact hkeeps
  · rw [Finmap.lookup_insert_of_ne _ fun h => hsame (key_ip_iff.mp h), ← svzHashGet_eq_lookup hr]
    show Keeps _ (Function.update listener.accepted (remote addr) (some kept) (remote other))
    rw [Function.update_of_ne fun h => hsame (remote_injective h)]
    exact hget other

/-- **A call is one of the listener**, or there is not enough memory. -/
theorem checkFrequency_simulates (h : Simulates accepted listener) (call : Connect) :
    match checkFrequency listener.port.connectFreq accepted call with
    | .ok (accepted', ret) =>
      Simulates (some accepted')
        (Port.checkFrequency listener (remote call.addr) call.current).1 ∧
        ret = (Port.checkFrequency listener (remote call.addr) call.current).2
    | .error halt => halt = .noMemory := by
  rw [listener_eq]
  -- the table that there is, or a new one
  obtain ⟨table, array, m, hcheck, hr, hget, harray⟩ : ∃ (table : Accepted)
      (array : Option (SvzArray Int)) (m : Map defaultCallbacks_lawful (SvzArray Int)),
      checkFrequency listener.port.connectFreq accepted call =
        checkAccepted listener.port.connectFreq call table array ∧
      Represents defaultCallbacks_lawful table m ∧
      (∀ addr, Keeps (svzHashGet table (ip addr)) (listener.accepted (remote addr))) ∧
      Keeps array (listener.accepted (remote call.addr)) := by
    cases accepted with
    | some table =>
      obtain ⟨⟨m, hr⟩, hget⟩ := h
      exact ⟨table, _, m, rfl, hr, hget, hget call.addr⟩
    | none =>
      obtain ⟨k, hk, hcreate⟩ := svzHashCreate_eq (V := SvzArray Int) (by decide : 1 ≤ 4)
      have hr : Represents defaultCallbacks_lawful _ (∅ : Map defaultCallbacks_lawful
        (SvzArray Int)) := represents_empty hk
      refine ⟨_, none, ∅, ?_, hr, fun addr => ?_, h call.addr⟩
      · unfold checkFrequency
        dsimp only
        rw [hcreate]
      · rw [svzHashGet_eq_lookup hr, Finmap.lookup_empty]
        exact h addr
  rw [hcheck]
  have hspec := checkAccepted_spec listener.port.connectFreq call table harray
  cases heq : checkAccepted listener.port.connectFreq call table array with
  | error halt =>
    rw [heq] at hspec
    exact hspec
  | ok result =>
    rw [heq] at hspec
    obtain ⟨array', hput, hkeeps, hret⟩ := hspec
    refine ⟨?_, hret⟩
    show Simulates (some result.1) _
    rw [hput]
    exact simulates_put hr hget hkeeps

/-! ## Runs -/

/-- The listener has what was recent at the last connection from an address. -/
def Recorded (calls : List Connect) (listener : Listener) : Prop :=
  ∀ addr, listener.accepted (remote addr) =
    (ownTimes calls addr).getLast?.map fun last => recent last (ownTimes calls addr)

variable {calls : List Connect}

theorem ownTimes_append (calls : List Connect) (call : Connect) (addr : UInt32) :
    ownTimes (calls ++ [call]) addr =
      ownTimes calls addr ++ if call.addr = addr then [call.current] else [] := by
  unfold ownTimes
  rw [List.filter_append, List.map_append, List.filter_cons]
  by_cases haddr : call.addr = addr
  · rw [if_pos haddr, if_pos (decide_eq_true haddr)]
    rfl
  · rw [if_neg haddr, if_neg (fun h => haddr (of_decide_eq_true h))]
    rfl

theorem Ordered.le (h : Ordered (calls ++ [call])) {addr : UInt32} :
    ∀ t ∈ ownTimes calls addr, t ≤ call.current := by
  intro t ht
  unfold Ordered at h
  rw [List.map_append, List.pairwise_append] at h
  obtain ⟨call', hcall, rfl⟩ := List.mem_map.mp ht
  exact h.2.2 _ (List.mem_map_of_mem (List.mem_of_mem_filter hcall)) _ List.mem_cons_self

theorem Ordered.before (h : Ordered (calls ++ [call])) : Ordered calls := by
  unfold Ordered at h ⊢
  rw [List.map_append, List.pairwise_append] at h
  exact h.1

/-- What is older than a window is older than a later one. -/
theorem recent_recent {current last : Int} (times : List Int) (hlast : last ≤ current) :
    (recent last times).filter (fun t => !decide (t < current - 4)) = recent current times := by
  unfold recent
  rw [List.filter_filter]
  refine List.filter_congr fun t _ => ?_
  by_cases hold : t < current - 4
  · rw [decide_eq_true hold, decide_eq_false (by omega : ¬ current - 4 ≤ t)]
    rfl
  · rw [decide_eq_false hold, decide_eq_true (by omega : current - 4 ≤ t),
      decide_eq_true (by omega : last - 4 ≤ t)]
    rfl

theorem Recorded.pruned (h : Recorded calls listener) (hordered : Ordered (calls ++ [call])) :
    ((listener.accepted (remote call.addr)).getD []).filter
      (fun t => !decide (t < call.current - 4)) =
        recent call.current (ownTimes calls call.addr) := by
  rw [h]
  cases hlast : (ownTimes calls call.addr).getLast? with
  | none =>
    rw [List.getLast?_eq_none_iff.mp hlast]
    rfl
  | some last =>
    exact recent_recent _ (hordered.le last (List.mem_of_getLast? hlast))

theorem Recorded.step (h : Recorded calls listener) (hordered : Ordered (calls ++ [call])) :
    Recorded (calls ++ [call])
      (Port.checkFrequency listener (remote call.addr) call.current).1 := by
  intro addr
  rw [listener_eq, ownTimes_append]
  show Function.update listener.accepted (remote call.addr) _ (remote addr) = _
  by_cases haddr : call.addr = addr
  · subst haddr
    rw [Function.update_self, if_pos rfl, List.getLast?_concat, Option.map_some]
    unfold keptTimes
    rw [h.pruned hordered]
    unfold recent
    have hnow : call.current - 4 ≤ call.current := by omega
    rw [List.filter_append, List.filter_cons, if_pos (decide_eq_true hnow), List.filter_nil]
  · rw [Function.update_of_ne fun heq => haddr (remote_injective heq).symm, if_neg haddr,
      List.append_nil]
    exact h addr

theorem Recorded.answer_eq (h : Recorded calls listener) (hordered : Ordered (calls ++ [call]))
    (hfreq : 0 < listener.port.connectFreq) :
    (Port.checkFrequency listener (remote call.addr) call.current).2 =
      if ((recent call.current (ownTimes calls call.addr)).length / 4 : Nat) >
        listener.port.connectFreq then -1 else 0 := by
  rw [listener_eq]
  show answer _ _ _ = _
  unfold answer
  rw [h.pruned hordered, Int.natCast_ediv]
  cases hsome : (listener.accepted (remote call.addr)).isSome with
  | false =>
    -- there is no earlier connection, and the frequency is positive
    have hnone := h call.addr
    rw [Option.isSome_eq_false_iff, Option.isNone_iff_eq_none] at hsome
    rw [hsome] at hnone
    have hown : ownTimes calls call.addr = [] :=
      List.getLast?_eq_none_iff.mp (Option.map_eq_none_iff.mp hnone.symm)
    rw [hown, Bool.false_and, if_neg Bool.false_ne_true, if_neg]
    have hzero : (recent call.current []).length = 0 := rfl
    rw [hzero]
    omega
  | true =>
    rw [Bool.true_and]
    by_cases hgreater : ((recent call.current (ownTimes calls call.addr)).length : Int) /
        (4 : Nat) > listener.port.connectFreq
    · rw [if_pos hgreater]
      exact if_pos (decide_eq_true hgreater)
    · rw [if_neg hgreater]
      exact if_neg fun h => hgreater (of_decide_eq_true h)

/-- The calls that there have been are those of a listener. -/
def Follows (connectFreq : Int) (calls : List Connect) : Prop :=
  match frequencyRun connectFreq calls with
  | .ok accepted => ∃ listener : Listener, listener.port.connectFreq = connectFreq ∧
      Simulates accepted listener ∧ Recorded calls listener
  | .error halt => halt = .noMemory

theorem callAfter_spec {connectFreq : Int} (h : Follows connectFreq calls) (call : Connect) :
    match callAfter connectFreq calls call with
    | .ok (accepted, ret) => ∃ listener : Listener, listener.port.connectFreq = connectFreq ∧
        Recorded calls listener ∧
        Simulates (some accepted)
          (Port.checkFrequency listener (remote call.addr) call.current).1 ∧
        ret = (Port.checkFrequency listener (remote call.addr) call.current).2
    | .error halt => halt = .noMemory := by
  unfold Follows at h
  unfold callAfter frequencyStep
  cases hsofar : frequencyRun connectFreq calls with
  | error halt =>
    rw [hsofar] at h
    exact h
  | ok accepted =>
    rw [hsofar] at h
    obtain ⟨listener, rfl, hsimulates, hrecorded⟩ := h
    have hcall := checkFrequency_simulates hsimulates call
    dsimp only
    cases hcheck : checkFrequency listener.port.connectFreq accepted call with
    | error halt =>
      rw [hcheck] at hcall
      exact hcall
    | ok result =>
      rw [hcheck] at hcall
      exact ⟨listener, rfl, hrecorded, hcall⟩

theorem follows_of_ordered (connectFreq : Int) (hordered : Ordered calls) :
    Follows connectFreq calls := by
  induction calls using List.reverseRecOn with
  | nil =>
    exact ⟨⟨⟨none, none, connectFreq, 0, 0, 0, false, false⟩, fun _ => none, none, .null, false⟩,
      rfl, fun _ => rfl, fun _ => rfl⟩
  | append_singleton calls call ih =>
    have hrun : frequencyRun connectFreq (calls ++ [call]) =
        (callAfter connectFreq calls call).map fun result => some result.1 := by
      unfold frequencyRun
      rw [List.foldl_append]
      rfl
    have hcall := callAfter_spec (ih hordered.before) call
    unfold Follows
    rw [hrun]
    cases hcheck : callAfter connectFreq calls call with
    | error halt =>
      rw [hcheck] at hcall
      exact hcall
    | ok result =>
      rw [hcheck] at hcall
      obtain ⟨listener, rfl, hrecorded, hsimulates, -⟩ := hcall
      exact ⟨(Port.checkFrequency listener (remote call.addr) call.current).1, rfl, hsimulates,
        hrecorded.step hordered⟩

/-- **The window**: what is kept and answered after any calls, and that the calls from other
addresses do not matter. -/
theorem checkFrequency_window (connectFreq : Int) (calls : List Connect) (call : Connect)
    (hordered : Ordered (calls ++ [call])) :
    match callAfter (svzPortcfgPrepare connectFreq) calls call with
    | .ok (accepted, ret) => Windowed (svzPortcfgPrepare connectFreq) calls call accepted ret ∧
        ∀ others, Ordered (others ++ [call]) →
          ownTimes others call.addr = ownTimes calls call.addr →
          ∀ result, callAfter (svzPortcfgPrepare connectFreq) others call = .ok result →
            result.2 = ret
    | .error halt => halt = .noMemory := by
  have hpositive : 0 < svzPortcfgPrepare connectFreq := by
    unfold svzPortcfgPrepare
    split <;> omega
  have hspec (before : List Connect) (hbefore : Ordered (before ++ [call])) :
      match callAfter (svzPortcfgPrepare connectFreq) before call with
      | .ok (accepted, ret) => Windowed (svzPortcfgPrepare connectFreq) before call accepted ret
      | .error halt => halt = .noMemory := by
    have hcall := callAfter_spec (follows_of_ordered (svzPortcfgPrepare connectFreq) hbefore.before)
      call
    cases hcheck : callAfter (svzPortcfgPrepare connectFreq) before call with
    | error halt =>
      rw [hcheck] at hcall
      exact hcall
    | ok result =>
      rw [hcheck] at hcall
      obtain ⟨listener, hfreq, hrecorded, hsimulates, hret⟩ := hcall
      constructor
      · have hkept := hrecorded.step hbefore call.addr
        have hkeeps := hsimulates.2 call.addr
        rw [hkept, ownTimes_append, if_pos rfl, List.getLast?_concat, Option.map_some] at hkeeps
        rw [ownTimes_append, if_pos rfl]
        show ∃ array, svzHashGet result.1 (ip call.addr) = some array ∧ _
        cases harray : svzHashGet result.1 (ip call.addr) with
        | none =>
          rw [harray] at hkeeps
          cases hkeeps
        | some array =>
          rw [harray] at hkeeps
          obtain ⟨-, kept, hsome, hdata⟩ := hkeeps
          obtain rfl := Option.some.inj hsome
          exact ⟨array, rfl, hdata⟩
      · show result.2 = _
        rw [hret, ← hfreq]
        exact hrecorded.answer_eq hbefore (hfreq ▸ hpositive)
  have hcall := hspec calls hordered
  cases hcheck : callAfter (svzPortcfgPrepare connectFreq) calls call with
  | error halt =>
    rw [hcheck] at hcall
    exact hcall
  | ok result =>
    rw [hcheck] at hcall
    refine ⟨hcall, fun others hothers hsame result' hcheck' => ?_⟩
    have hcall' := hspec others hothers
    rw [hcheck'] at hcall'
    have hother := hcall'.rejects
    rw [hsame] at hother
    exact hother.trans hcall.rejects.symm

theorem checkFrequency_window_fifth : ∃ accepted array, callAfter (svzPortcfgPrepare 0)
    [⟨1, 0, 1000⟩, ⟨2, 3, 1000⟩, ⟨1, 3, 1000⟩] ⟨1, 5, 1000⟩ = .ok (accepted, 0) ∧
    svzHashGet accepted (ip 1) = some array ∧ array.data = [some 3, some 5] := by
  have hwindow := checkFrequency_window 0 [⟨1, 0, 1000⟩, ⟨2, 3, 1000⟩, ⟨1, 3, 1000⟩]
    ⟨1, 5, 1000⟩ (by unfold Ordered; decide)
  have hok : (callAfter (svzPortcfgPrepare 0) [⟨1, 0, 1000⟩, ⟨2, 3, 1000⟩, ⟨1, 3, 1000⟩]
      ⟨1, 5, 1000⟩).isOk = true := by decide +kernel
  cases hcall : callAfter (svzPortcfgPrepare 0) [⟨1, 0, 1000⟩, ⟨2, 3, 1000⟩, ⟨1, 3, 1000⟩]
      ⟨1, 5, 1000⟩ with
  | error halt =>
    rw [hcall] at hok
    cases hok
  | ok result =>
    rw [hcall] at hwindow
    obtain ⟨array, harray, hdata⟩ := hwindow.1.kept
    exact ⟨result.1, array, congrArg Except.ok (Prod.ext rfl hwindow.1.rejects), harray, hdata⟩

end Serveez.Port.Frequency
