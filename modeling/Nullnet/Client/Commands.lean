import Nullnet.Client.Host

/-! # Commands on the rules of the kernel

`commands/egress.rs` and `commands/dnat.rs`: steering a container into an overlay network, forwarding
for a gateway, and the redirection of a trigger port. Each command of the shell is one operation; a
function goes on after one that fails, and says at the end whether all have succeeded. -/

namespace Nullnet.Client

open Nullnet.Lib
open Nullnet.Server (Ipv4Addr Net)

abbrev Agent := Prog HostCall HostReply

/-- An address in a network, with the length of the network's part of it. -/
structure Ipv4Network where
  ip : Ipv4Addr
  bits : ℕ

def Ipv4Network.network (n : Ipv4Network) : Ipv4Addr := n.ip &&& (BitVec.allOnes 32 <<< (32 - n.bits))

structure Parsers where
  ip : String → Option Ipv4Addr
  net : String → Option Ipv4Network

/-- The network of a text, as the kernel prints it. -/
def Parsers.subnet (P : Parsers) (text : String) : Option (Ipv4Addr × ℕ) :=
  (P.net text).map fun n => (n.network, n.bits)

/-! ## Operations as programs -/

abbrev op (c : HostCall) : Agent (HostReply c) := Prog.perform c

def addRule (rule : Rule) : Agent Bool := op (.addRule rule)

def deleteRule (rule : Rule) : Agent Bool := op (.deleteRule rule)

/-- A failed deletion is harmless if the rule is absent (`remove_iptables_rule`). -/
def removeRule (rule : Rule) : Agent Bool := do
  if ← deleteRule rule then return true
  op (.ruleAbsent rule)

def forAll (f : Rule → Agent Bool) : List Rule → Agent Bool
  | [] => return true
  | rule :: rules => do
    let ok ← f rule
    let rest ← forAll f rules
    return ok && rest

/-! ## Steering -/

def MIN_NET_ID : ℕ := 101

def MAX_NET_ID : ℕ := 2097151

/-- `owned_steer_rules`: the rules of a source that steer it into a network. -/
def ownsSteer (netId : ℕ) (containerIp : Ipv4Addr) : Rule → Bool
  | .bypass source range => source = containerIp ∧ range ∈ INTERNAL_RANGES
  | .catchAll source id => source = containerIp ∧ id = netId ∧ MIN_NET_ID ≤ id ∧ id ≤ MAX_NET_ID
  | _ => false

def removeSteer (netId : ℕ) (brDev : String) (snatSrc containerIp : Ipv4Addr) : Agent Bool := do
  match ← op (.listRules .ipRule) with
  | none => return false
  | some rules =>
    let rules := rules.filter (ownsSteer netId containerIp)
    let ok₁ ← forAll deleteRule rules
    let ok₂ ← op (.flushRoutes netId)
    let ok₃ ← removeRule (.snat containerIp brDev snatSrc)
    return ok₁ && ok₂ && ok₃

/-- The rules that steer a container into a network. -/
def steerRules (netId : ℕ) (brDev : String) (proxyGw snatSrc containerIp : Ipv4Addr) : List Rule :=
  INTERNAL_RANGES.map (.bypass containerIp ·) ++
    [.catchAll containerIp netId, .route netId proxyGw brDev, .snat containerIp brDev snatSrc]

def installSteer (netId : ℕ) (brDev : String) (proxyGw snatSrc containerIp : Ipv4Addr) :
    Agent Bool := do
  if !(← removeSteer netId brDev snatSrc containerIp) then return false
  let ok ← forAll addRule (steerRules netId brDev proxyGw snatSrc containerIp)
  if !ok then
    let _ ← removeSteer netId brDev snatSrc containerIp
  return ok

/-! ## Forwarding -/

/-- `forward_rules`, with the tag of a network. -/
def forwardRules (device : Option String) (source : String) (nic : Option String)
    (comment : Option ℕ) : List Rule :=
  [.nat, .out, .back].map fun part => .forward ⟨part, device, source, nic, comment⟩

/-- `remove_forward_rules`: delete the rules that are selected, in both tables. -/
def removeForwardRules (select : Rule → Bool) : Agent Bool := do
  let ok₁ ← match ← op (.listRules .postrouting) with
    | none => pure false
    | some rules => forAll deleteRule (rules.filter select)
  let ok₂ ← match ← op (.listRules .forward) with
    | none => pure false
    | some rules => forAll deleteRule (rules.filter select)
  return ok₁ && ok₂

def ownsLocalForward (netId : ℕ) : Rule → Bool
  | .forward r => r.comment = some netId
  | _ => false

def removeLocalForwards (netId : ℕ) : Agent Bool := removeForwardRules (ownsLocalForward netId)

/-- Same-host egress: rules for each address of the container. -/
def installLocalForward (netId : ℕ) (containerIps : List Ipv4Addr) : Agent Bool := do
  if !(← removeLocalForwards netId) then return false
  let rules := containerIps.flatMap fun ip => forwardRules none ip.text none (some netId)
  if !(← forAll addRule rules) then
    let _ ← removeLocalForwards netId
    return false
  return true

section

variable (P : Parsers)

/-- The rules in whose text the subnet is the source or the bridge is a device. The rules back for a
source without a device have the source as their destination, which is not looked for. -/
def ownsGateway (brDev : String) (subnet : Ipv4Addr × ℕ) : Rule → Bool
  | .forward r =>
    match r.part, r.device with
    | .nat, _ => P.subnet r.source = some subnet ∨ r.nic = some brDev
    | _, some device => device = brDev ∨ r.nic = some brDev
    | .out, none => P.subnet r.source = some subnet ∨ r.nic = some brDev
    | .back, none => r.nic = some brDev
  | .snat source dev _ => dev = brDev ∨ (source, 32) = subnet
  | _ => false

def removeGatewayForward (brDev brNet : String) : Agent Bool :=
  match P.subnet brNet with
  | none => return false
  | some subnet => removeForwardRules (ownsGateway P brDev subnet)

def installGatewayForward (brDev brNet : String) : Agent Bool := do
  if !(← removeGatewayForward P brDev brNet) then return false
  match ← op .defaultRouteIface with
  | none => return false
  | some nic => forAll addRule (forwardRules (some brDev) brNet (some nic) none)

end

/-! ## Redirection -/

/-- The redirections of a port to an overlay address. -/
def dnatRules (port : UInt16) (overlayIp containerIp : Ipv4Addr) : List Rule :=
  PROTOS.map fun proto => .dnat proto port overlayIp containerIp

def installDnat (port : UInt16) (overlayIp containerIp : Ipv4Addr) : Agent Bool :=
  forAll addRule (dnatRules port overlayIp containerIp)

def removeDnat (port : UInt16) (overlayIp containerIp : Ipv4Addr) : Agent Bool :=
  forAll removeRule (dnatRules port overlayIp containerIp)

end Nullnet.Client
