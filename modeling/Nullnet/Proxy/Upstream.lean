import Mathlib.Algebra.Order.Group.Multiset
import Mathlib.Tactic.Abel

/-! # The proxy and the control service

What the proxy asks of the control service for a client: whether the client may reach a service
(`check_ingress`), where the service is reached (`Proxy`), and, once the connection is over, that it is
closed. The control service counts a connection as open when it answers `Proxy`; the proxy owes it one
close for it, which a `ConnectionGuard` sends when it is dropped. An answer whose address or port the
proxy cannot read is an error to it, and a connection to the control service (`lost`). -/

namespace Nullnet.Proxy

/-- The identity under which a connection is counted. -/
structure ConnectionGuard where
  serviceName : String
  clientIp : String
  deriving DecidableEq

inductive UpstreamError
  | unknownService
  | failed
  deriving DecidableEq

/-- What comes of a `Proxy` call. -/
inductive Reply
  | error (e : UpstreamError)
  | response (ip : String) (port : UInt32)
  deriving DecidableEq

/-- What comes of a `check_ingress` call. -/
inductive Answer
  | allow
  | deny
  | error
  deriving DecidableEq

inductive Call
  | checkIngress (g : ConnectionGuard) (answer : Answer)
  | proxy (g : ConnectionGuard) (reply : Reply)
  | proxyConnectionClosed (g : ConnectionGuard)
  deriving DecidableEq

section

variable (isIp : String → Bool)

def readable (ip : String) (port : UInt32) : Bool := isIp ip && port.toNat < 2 ^ 16

def resolveUpstream : Reply → Except UpstreamError (String × UInt16)
  | .error e => .error e
  | .response ip port => if readable isIp ip port then .ok (ip, port.toUInt16) else .error .failed

/-- The connection that a call opens, as the control service counts. -/
def Call.opens : Call → Option ConnectionGuard
  | .proxy g (.response _ _) => some g
  | _ => none

def Call.closes : Call → Option ConnectionGuard
  | .proxyConnectionClosed g => some g
  | _ => none

/-- The connection that a call opens without an address that the proxy can read. -/
def Call.loses : Call → Option ConnectionGuard
  | .proxy g (.response ip port) => if readable isIp ip port then none else some g
  | _ => none

def opened (calls : List Call) : Multiset ConnectionGuard := ↑(calls.filterMap Call.opens)

def closed (calls : List Call) : Multiset ConnectionGuard := ↑(calls.filterMap Call.closes)

def lost (calls : List Call) : Multiset ConnectionGuard := ↑(calls.filterMap (Call.loses isIp))

end

variable {isIp : String → Bool} {calls : List Call} {g : ConnectionGuard}

/-- The books are balanced: what is open is closed, held by a guard or lost. -/
def Balanced (isIp : String → Bool) (calls : List Call) (held : Multiset ConnectionGuard) : Prop :=
  opened calls = closed calls + held + lost isIp calls

section

variable {new : List Call}

theorem opened_append : opened (calls ++ new) = opened calls + opened new := by
  rw [opened, List.filterMap_append, ← Multiset.coe_add, opened, opened]

theorem closed_append : closed (calls ++ new) = closed calls + closed new := by
  rw [closed, List.filterMap_append, ← Multiset.coe_add, closed, closed]

theorem lost_append : lost isIp (calls ++ new) = lost isIp calls + lost isIp new := by
  rw [lost, List.filterMap_append, ← Multiset.coe_add, lost, lost]

variable {held held' : Multiset ConnectionGuard}

theorem Balanced.append (h : Balanced isIp calls held)
    (hnew : opened new + held = closed new + held' + lost isIp new) :
    Balanced isIp (calls ++ new) held' := by
  unfold Balanced at h ⊢
  rw [opened_append, closed_append, lost_append]
  calc opened calls + opened new
      = closed calls + lost isIp calls + (opened new + held) := by rw [h]; abel
    _ = closed calls + closed new + held' + (lost isIp calls + lost isIp new) := by rw [hnew]; abel

theorem Balanced.check (h : Balanced isIp calls held) (answer : Answer) :
    Balanced isIp (calls ++ [.checkIngress g answer]) held :=
  h.append (add_zero (0 + held)).symm

/-- A lookup that gives an address leaves a guard to hold. -/
theorem Balanced.lookup (h : Balanced isIp calls held) (reply : Reply) :
    Balanced isIp (calls ++ [.proxy g reply])
      (if (resolveUpstream isIp reply).isOk then held + {g} else held) := by
  refine h.append ?_
  cases reply with
  | error e => exact (add_zero (0 + held)).symm
  | response ip port =>
    change {g} + held = 0 + _ + _
    cases hr : readable isIp ip port <;>
      simp [resolveUpstream, lost, Call.loses, hr, Except.isOk, Except.toBool, add_comm]

theorem closed_drops (gs : List ConnectionGuard) : closed (gs.map .proxyConnectionClosed) = gs := by
  simp [closed, Call.closes, Function.comp_def]

theorem Balanced.drop {gs : List ConnectionGuard} (h : Balanced isIp calls (held + gs)) :
    Balanced isIp (calls ++ gs.map .proxyConnectionClosed) held := by
  have hopened : opened (gs.map .proxyConnectionClosed) = 0 := by
    simp [opened, Call.opens, Function.comp_def]
  have hlost : lost isIp (gs.map .proxyConnectionClosed) = 0 := by
    simp [lost, Call.loses, Function.comp_def]
  refine h.append ?_
  rw [hopened, closed_drops, hlost]
  abel

end

end Nullnet.Proxy
