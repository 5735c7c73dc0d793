import Serveez.Hash.Undisturbed

/-!
# The host catcher

`cfg->net` holds the hosts that were heard of. `nut_server_notify` walks over it and connects to
hosts until there are enough connections; a host to which no connection can be opened is deleted
from the table that is walked over.

* `deletesOwn_serverNotifyNetInternal`: the function that is called deletes at most its own host.
* `netWalk_visitsOnce_iff`: exactly when every host that stays is tried once.
-/

namespace Serveez.Nut

open Lib Hash

/-- An entry of the host catcher. -/
structure NutHost where
  ip : UInt32
  port : UInt16
  lastReply : Nat
  deriving DecidableEq

/-- What the string of a host is: an address, a name that has to be looked up, or nothing. -/
inductive Target
  | address
  | name
  | invalid

/-- `nut_parse_addr` takes digits and dots, up to a colon or the end of the string, for an
address; all other strings are names to `nut_parse_host`, if they are not empty. -/
def target (host : Bytes) : Target :=
  let text := cString host
  if text = [] then .invalid
  else
    match text.dropWhile (fun b => (48 ≤ b && b ≤ 57) || b == 46) with
    | [] => .address
    | b :: _ => if b = 58 then .address else .name

/-- `nut_connect_host`; `refused` are the hosts to which no connection can be opened. -/
def nutConnectHost (refused : Bytes → Bool) (net : SvzHash NutHost) (host : Bytes) :
    SvzHash NutHost × Int :=
  match target host with
  | .invalid => (net, -1)
  | .name => (net, 0)
  | .address =>
    if refused host then
      match svzHashGet net host with
      | some _ => ((svzHashDelete net host).1, -1)
      | none => (net, -1)
    else (net, 0)

/-- `server_notify_net_internal`; the closure is the number of connections to open. -/
def serverNotifyNetInternal (refused : Bytes → Bool) (conn : SvzHash Nat) : Func Int NutHost :=
  fun key _ x =>
    if x.1 = 0 then x
    else if (svzHashGet conn key).isSome then x
    else
      let tried := nutConnectHost refused x.2 key
      (if tried.2 ≠ -1 then x.1 - 1 else x.1, tried.1)

/-- The number of connections that `nut_server_notify` wants to open. -/
def missing (connections : Nat) (conn : SvzHash Nat) : Int :=
  (connections : Int) - svzHashSize (some conn)

/-- The walk over the host catcher in `nut_server_notify`. -/
def netWalk (refused : Bytes → Bool) (connections : Nat) (conn : SvzHash Nat)
    (net : SvzHash NutHost) : Option (Visit Int NutHost) :=
  svzHashVisit (serverNotifyNetInternal refused conn) (missing connections conn) net

/-- The host catcher as `nut_init` creates it. -/
def emptyNet : SvzHash NutHost where
  buckets := 4
  fill := 0
  keys := 0
  callbacks := defaultCallbacks
  table := List.replicate 4 []

example : svzHashCreate 4 = some emptyNet := rfl

/-- What a call does to the number of connections to open, and whether it deletes the host. -/
def tryHost (refused : Bytes → Bool) (conn : SvzHash Nat) (connect : Int)
    (x : SvzHashEntry NutHost) : Int × Bool :=
  if connect = 0 then (connect, false)
  else if (svzHashGet conn x.key).isSome then (connect, false)
  else
    match target x.key with
    | .invalid => (connect, false)
    | .name => (connect - 1, false)
    | .address => if refused x.key then (connect, x.value.isSome) else (connect - 1, false)

theorem represents_emptyNet : Represents defaultCallbacks_lawful emptyNet ∅ :=
  represents_empty (V := NutHost) (Nat.le_refl 2)

theorem deletesOwn_serverNotifyNetInternal (refused : Bytes → Bool) (conn : SvzHash Nat) :
    DeletesOwn defaultCallbacks_lawful (serverNotifyNetInternal refused conn)
      (tryHost refused conn) := by
  intro connect net m x hr hx
  have hget := hr.svzHashGet_at hx
  unfold serverNotifyNetInternal tryHost
  dsimp only
  by_cases hzero : connect = 0
  · rw [if_pos hzero, if_pos hzero]
    rfl
  rw [if_neg hzero, if_neg hzero]
  by_cases hconn : (svzHashGet conn x.key).isSome
  · rw [if_pos hconn, if_pos hconn]
    rfl
  rw [if_neg hconn, if_neg hconn]
  unfold nutConnectHost
  cases target x.key with
  | invalid => rfl
  | name => rfl
  | address =>
    dsimp only
    by_cases href : refused x.key
    · rw [if_pos href, if_pos href, hget]
      cases x.value <;> rfl
    · rw [if_neg href, if_neg href]
      rfl

/-- **The walk over the host catcher.** For every content of the table and every set of hosts
that refuse: each host is tried at most once and while it is in the table, and each host that
stays is tried, exactly if the deletes of the hosts that refuse do not disturb the walk. -/
theorem netWalk_visitsOnce_iff (refused : Bytes → Bool) (connections : Nat) (conn : SvzHash Nat)
    (ops : List (Op NutHost)) :
    VisitsOnce (run emptyNet ops) (netWalk refused connections conn (run emptyNet ops)) ↔
      Undisturbed (tryHost refused conn) (missing connections conn) (run emptyNet ops) := by
  obtain ⟨hr, -⟩ := run_refines ops _ _ represents_emptyNet
  exact visitsOnce_iff (deletesOwn_serverNotifyNetInternal refused conn) hr

/-! ## Two hosts in one bucket -/

/-- The table without connections. -/
def noConn : SvzHash Nat where
  buckets := 4
  fill := 0
  keys := 0
  callbacks := defaultCallbacks
  table := List.replicate 4 []

/-- The key of the host `1.2.3.d` with the default port. -/
def hostKey (d : UInt8) : Bytes :=
  [49, 46, 50, 46, 51, 46, d, 58, 54, 51, 52, 54]

/-- `1.2.3.4` and `1.2.3.5` were heard of. -/
def twoHosts : SvzHash NutHost :=
  run emptyNet [.put (hostKey 52) (some ⟨0x04030201, 6346, 0⟩),
    .put (hostKey 53) (some ⟨0x05030201, 6346, 0⟩)]

/-- The first host refuses; the second one is moved to its place and never tried. -/
theorem twoHosts_not_visitsOnce :
    ¬ VisitsOnce twoHosts (netWalk (· == hostKey 52) 4 noConn twoHosts) := by
  rintro ⟨v, hrun, -, -, hall⟩
  have hwalk : (netWalk (· == hostKey 52) 4 noConn twoHosts).map
      (fun v => (v.calls.map Prod.fst, v.hash.table.flatten)) =
      some ([hostKey 52], twoHosts.table.flatten.drop 1) := by decide
  rw [hrun, Option.map_some, Option.some_inj, Prod.mk.injEq] at hwalk
  obtain ⟨hcalls, hleft⟩ := hwalk
  obtain ⟨y, hy, hkey⟩ : ∃ y ∈ twoHosts.table.flatten.drop 1, y.key = hostKey 53 := by decide
  have hcalled := hall y (List.mem_of_mem_drop hy) (by rw [hleft]; exact hy)
  rw [hcalls, hkey] at hcalled
  exact absurd hcalled (by decide)

end Serveez.Nut
