import Mathlib.Data.List.Basic

/-!
# Comparing port configurations

What `svz_server_bind` reads of a port configuration: the protocol, the address and the flags
that `svz_portcfg_mkaddr` derives from it. The `any` address listens everywhere with one
socket, `*` stands for all interfaces and is expanded to one configuration for each. What
`svz_portcfg_prepare` fills in (sizes and limits) is not read and left out.

* `exactlyEqual_iff`: two configurations are equal exactly if they have the same `key`.
-/

namespace Serveez.Binding

inductive Proto
  | tcp
  | udp
  | icmp
  | raw
  | pipe
deriving DecidableEq

structure PortCfg where
  proto : Proto
  /-- `sin_addr` and `sin_port` of the address. -/
  addr : UInt32
  port : UInt16
  /-- `PORTCFG_FLAG_ANY` -/
  any : Bool
  /-- `PORTCFG_FLAG_ALL` -/
  all : Bool
  /-- `PORTCFG_FLAG_DEVICE` -/
  device : Bool
  deviceName : Option String
  icmpType : UInt8
  /-- The names of the two pipes. -/
  recv : String
  send : String
  /-- `svz_portcfg_mkaddr` sets one of the two at most. -/
  exclusive : (any && all) = false
deriving DecidableEq

inductive Comparison
  | noMatch
  | equal
  | match
  | conflict
deriving DecidableEq

def sameDevices (a b : PortCfg) : Bool := a.deviceName.getD "" == b.deviceName.getD ""

/-- The comparison of two network addresses; the protocols differ in how they take two
devices. -/
def compareAddr (a b : PortCfg) (otherDevice : Comparison) : Comparison :=
  if a.device || b.device then
    if a.device && b.device then
      if sameDevices a b then .equal else otherDevice
    else .conflict
  else if a.addr = b.addr then .equal
  else if a.any || b.any then .match
  else .noMatch

def svzPortcfgEqual (a b : PortCfg) : Comparison :=
  if a.proto = b.proto then
    match a.proto with
    | .tcp | .udp => if a.port = b.port then compareAddr a b .noMatch else .noMatch
    | .icmp => if a.icmpType = b.icmpType then compareAddr a b .conflict else .noMatch
    | .raw => compareAddr a b .conflict
    | .pipe => if a.recv = b.recv ∧ a.send = b.send then .equal else .noMatch
  else .noMatch

/-- `portcfg_exactly_equal` -/
def exactlyEqual (a b : PortCfg) : Bool := svzPortcfgEqual a b == .equal

/-- `portcfg_matching_or_equal` -/
def matchingOrEqual (a b : PortCfg) : Bool :=
  svzPortcfgEqual a b == .equal || svzPortcfgEqual a b == .match

/-- `svz_portcfg_expand` with the addresses of the interfaces. -/
def svzPortcfgExpand (interfaces : List UInt32) (this : PortCfg) : List PortCfg :=
  if this.proto ≠ .pipe ∧ this.all = true ∧ this.device = false then
    interfaces.map fun addr => { this with addr := addr }
  else [this]

/-- The configuration after `svz_server_create`, which puts in the port that the system has
chosen and takes the address out for a device. -/
def serverCreated (port : PortCfg) (chosen : UInt16) : PortCfg :=
  if port.proto = .pipe then port
  else { port with
    addr := if port.deviceName.isSome then 0 else port.addr
    port := if (port.proto = .tcp ∨ port.proto = .udp) ∧ port.port = 0 then chosen
      else port.port }

/-! ## Equality -/

/-- Where a configuration listens. -/
def place (a : PortCfg) : UInt32 ⊕ String :=
  if a.device then .inr (a.deviceName.getD "") else .inl a.addr

def key (a : PortCfg) : Proto × (UInt16 × UInt8) × (UInt32 ⊕ String) × (String × String) :=
  match a.proto with
  | .tcp | .udp => (a.proto, (a.port, 0), place a, ("", ""))
  | .icmp => (a.proto, (0, a.icmpType), place a, ("", ""))
  | .raw => (a.proto, (0, 0), place a, ("", ""))
  | .pipe => (a.proto, (0, 0), .inl 0, (a.recv, a.send))

theorem compareAddr_eq_equal_iff {a b : PortCfg} {otherDevice : Comparison}
    (h : otherDevice ≠ .equal) : compareAddr a b otherDevice = .equal ↔ place a = place b := by
  unfold compareAddr place sameDevices
  cases a.device <;> cases b.device
  · by_cases haddr : a.addr = b.addr
    · simp [haddr]
    · cases a.any <;> cases b.any <;> simp [haddr]
  · simp
  · simp
  · by_cases hname : a.deviceName.getD "" = b.deviceName.getD "" <;> simp [hname, h]

theorem exactlyEqual_iff {a b : PortCfg} : exactlyEqual a b = true ↔ key a = key b := by
  unfold exactlyEqual svzPortcfgEqual
  rw [beq_iff_eq]
  by_cases hproto : a.proto = b.proto
  · rw [if_pos hproto]
    unfold key
    rw [← hproto]
    cases a.proto with
    | tcp =>
      by_cases hport : a.port = b.port
      · simp [hport, compareAddr_eq_equal_iff]
      · simp [hport]
    | udp =>
      by_cases hport : a.port = b.port
      · simp [hport, compareAddr_eq_equal_iff]
      · simp [hport]
    | icmp =>
      by_cases htype : a.icmpType = b.icmpType
      · simp [htype, compareAddr_eq_equal_iff]
      · simp [htype]
    | raw => simp [compareAddr_eq_equal_iff]
    | pipe => simp
  · have hkey : ∀ c : PortCfg, (key c).1 = c.proto := by
      intro c
      unfold key
      cases c.proto <;> rfl
    rw [if_neg hproto]
    refine iff_of_false (by simp) fun he => hproto ?_
    rw [← hkey a, ← hkey b, he]

theorem exactlyEqual_refl (a : PortCfg) : exactlyEqual a a = true := exactlyEqual_iff.mpr rfl

theorem exactlyEqual_trans {a b c : PortCfg} (hab : exactlyEqual a b = true)
    (hbc : exactlyEqual b c = true) : exactlyEqual a c = true :=
  exactlyEqual_iff.mpr ((exactlyEqual_iff.mp hab).trans (exactlyEqual_iff.mp hbc))

end Serveez.Binding
