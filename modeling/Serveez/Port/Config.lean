import Mathlib.Data.List.Basic

/-!
# Port configurations and bindings

What a listener knows: whom to let in (`svz_sock_check_access`), and the servers bound to the
address that a client has reached (`svz_binding_filter`). Addresses of clients are texts, as
`SVZ_PP_ADDR` prints them. Pipes are left out.
-/

namespace Serveez.Port

structure PortCfg where
  deny : Option (List String)
  allow : Option (List String)
  connectFreq : Int
  detectionFill : Int
  /-- `sin_addr` and `sin_port` of the configured address. -/
  addr : UInt32
  port : UInt16
  /-- `PORTCFG_FLAG_ANY` or `PORTCFG_FLAG_DEVICE`. -/
  anyOrDevice : Bool
  /-- `SVZ_PROTO_RAW` or `SVZ_PROTO_ICMP`. -/
  rawOrIcmp : Bool
deriving DecidableEq

/-- A server, with the callbacks that it has set. -/
structure Server where
  id : Nat
  detectProto : Bool
  connectSocket : Bool
  handleRequest : Bool
deriving DecidableEq

structure Binding where
  server : Server
  port : PortCfg
deriving DecidableEq

/-- The check of the allowed addresses, which there may be none of. -/
def checkAllow (allow : Option (List String)) (remote : String) : Int :=
  match allow with
  | some allow => if allow.any (· == remote) then 0 else -1
  | none => 0

def svzSockCheckAccess (port : Option PortCfg) (remote : String) : Int :=
  match port with
  | none => 0
  | some port =>
    match port.deny with
    | some deny => if deny.any (· == remote) then -1 else checkAllow port.allow remote
    | none => checkAllow port.allow remote

def filterNet (bindings : List Binding) (addr : UInt32) (port : UInt16) : List Binding :=
  bindings.filter fun binding =>
    (binding.port.addr == addr || binding.port.anyOrDevice) &&
      (binding.port.rawOrIcmp || binding.port.port == port)

/-- `localInfo` is what `getsockname` answers. -/
def svzBindingFilter (bindings : Option (List Binding)) (localInfo : Option (UInt32 × UInt16)) :
    List Binding :=
  match localInfo with
  | some (addr, port) => filterNet (bindings.getD []) addr port
  | none => []

end Serveez.Port
