import Nullnet.Lib.Jobs
import Nullnet.Server.Net

/-! # The host of a client

The handlers of the control messages change the host that the client runs on: the rules of the kernel
(policy routing, NAT and forwarding), the files that map names to addresses, links, peers and
containers. What a teardown has to undo is not in its message; the client looks it up in what the setup
recorded (`EgressState`, `HostMappingsState`, `TriggersState`).

`exec` performs one operation. Its `Outcome` is what the environment decides: whether a command or a
write succeeds, whether one that fails has had its effect all the same, and what docker and the routing
table answer. -/

namespace Nullnet.Client

open Nullnet.Lib
open Nullnet.Server (Ipv4Addr Net)

/-! ## Rules of the kernel -/

def INTERNAL_RANGES : List String :=
  ["0.0.0.0/8", "10.0.0.0/8", "100.64.0.0/10", "127.0.0.0/8", "169.254.0.0/16", "172.16.0.0/12",
    "192.168.0.0/16", "224.0.0.0/4", "240.0.0.0/4"]

/-- The protocols of the redirections of a trigger port. -/
def PROTOS : List String := ["tcp", "udp"]

/-- The three rules that let a source out: its translation, and its packets out and back. -/
inductive ForwardPart
  | nat
  | out
  | back
  deriving DecidableEq, Repr

/-- A rule of `forward_rules`, with the tag of the network it is for. -/
structure ForwardRule where
  part : ForwardPart
  device : Option String
  source : String
  nic : Option String
  comment : Option ℕ := none
  deriving DecidableEq

inductive Rule
  /-- Internal destinations of a steered container stay in the main table. -/
  | bypass (source : Ipv4Addr) (range : String)
  /-- Everything else goes to the table of the network. -/
  | catchAll (source : Ipv4Addr) (netId : ℕ)
  /-- The route of that table. -/
  | route (netId : ℕ) (gateway : Ipv4Addr) (dev : String)
  | snat (source : Ipv4Addr) (dev : String) (toSource : Ipv4Addr)
  | forward (rule : ForwardRule)
  | dnat (proto : String) (port : UInt16) (overlayIp containerIp : Ipv4Addr)
  deriving DecidableEq

inductive Chain
  | ipRule
  | table
  | postrouting
  | forward
  | dnat
  deriving DecidableEq

def Rule.chain : Rule → Chain
  | .bypass .. | .catchAll .. => .ipRule
  | .route .. => .table
  | .snat .. => .postrouting
  | .forward r => if r.part = .nat then .postrouting else .forward
  | .dnat .. => .dnat

/-- The rule is a route of the table of a network. -/
def Rule.isRouteOf (netId : ℕ) : Rule → Bool
  | .route id _ _ => id = netId
  | _ => false

/-! ## Files that map names -/

structure HostMapping where
  name : String
  ip : String
  deriving DecidableEq

/-- The lines of a file that are not blank, each one as its words. -/
abbrev HostsFile : Type := List (List String)

/-- The line that the client writes, with its marker. -/
def HostMapping.entry (m : HostMapping) : List String := [m.ip, m.name, "#", "nullnet"]

/-- `upsert_hosts_entry`: lines with the name are replaced. -/
def HostsFile.upsert (file : HostsFile) (m : HostMapping) : HostsFile :=
  if file.any fun line => m.name ∈ line.tail then
    file.map fun line => if m.name ∈ line.tail then m.entry else line
  else file ++ [m.entry]

/-- `remove_hosts_entry`: only a line that has the address, too. Of a file whose only line it is, a blank
line is left. -/
def HostsFile.remove (file : HostsFile) (m : HostMapping) : HostsFile :=
  file.filter fun line => !(line.head? = some m.ip ∧ m.name ∈ line.tail)

/-! ## Records -/

/-- What a setup has installed for an egress edge. -/
inductive EgressRecord
  | localForward
  | steer (brName : String) (snatSrc containerIp : Ipv4Addr)
  | gateway (brName brNet : String)
  deriving DecidableEq

/-- A trigger of a container: the server is asked, or the redirection is installed. -/
inductive Lifecycle
  | pending (containerIp : Ipv4Addr)
  | installed (ready : Bool) (vxlanId : ℕ) (overlayIp containerIp : Ipv4Addr)
  deriving DecidableEq

def EGRESS_TRIGGER_PORT : UInt16 := 0

def Lifecycle.isOf (vxlanId : ℕ) : Lifecycle → Bool
  | .pending _ => false
  | .installed _ id _ _ => id = vxlanId

def Lifecycle.containerIp : Lifecycle → Ipv4Addr
  | .pending ip => ip
  | .installed _ _ _ ip => ip

abbrev TriggersState : Type := Dict (String × UInt16) Lifecycle

namespace TriggersState

def peekContainerIp (t : TriggersState) (container : String) (port : UInt16) : Ipv4Addr :=
  ((t.lookup (container, port)).map Lifecycle.containerIp).getD 0

def markPrepared (t : TriggersState) (container : String) (port : UInt16) (vxlanId : ℕ)
    (overlayIp containerIp : Ipv4Addr) : TriggersState :=
  t.insert (container, port) (.installed false vxlanId overlayIp containerIp)

/-- The first entry of a network. -/
def ofVxlan (t : TriggersState) (vxlanId : ℕ) : Option (String × UInt16) :=
  t.first fun _ l => l.isOf vxlanId

def markReady (t : TriggersState) (vxlanId : ℕ) : TriggersState × Bool :=
  match t.ofVxlan vxlanId with
  | none => (t, false)
  | some key => (t.modify key fun
    | .installed _ id overlayIp containerIp => .installed true id overlayIp containerIp
    | l => l, true)

def removeByVxlan (t : TriggersState) (vxlanId : ℕ) :
    TriggersState × Option (String × UInt16 × Ipv4Addr × Ipv4Addr) :=
  match t.ofVxlan vxlanId with
  | none => (t, none)
  | some key =>
    (t.erase key, (t.lookup key).bind fun
      | .installed _ _ overlayIp containerIp => some (key.1, key.2, overlayIp, containerIp)
      | .pending _ => none)

end TriggersState

/-! ## Operations -/

structure Host where
  rules : List Rule := []
  /-- The files of the host (`none`) and of its containers. -/
  hosts : Option String → HostsFile := fun _ => []
  links : List (Net × ℕ) := []
  peers : Dict (Ipv4Addr × ℕ) Ipv4Addr := ∅
  firewall : Dict (Net × ℕ) Ipv4Addr := ∅
  paused : List String := []
  egressState : Dict ℕ EgressRecord := ∅
  vlanMappings : Dict ℕ HostMapping := ∅
  vxlanMappings : Dict ℕ (HostMapping × Option String) := ∅
  triggers : TriggersState := ∅

inductive HostCall
  | addRule (rule : Rule)
  | deleteRule (rule : Rule)
  /-- The check whether a rule that could not be deleted is absent. -/
  | ruleAbsent (rule : Rule)
  | listRules (chain : Chain)
  | flushRoutes (netId : ℕ)
  | defaultRouteIface
  | containerIpv4 (container : String)
  /-- The addresses of a container that the client has seen. -/
  | bridgeIps (container : String)
  | addHostMapping (mapping : HostMapping) (container : Option String)
  | removeHostMapping (mapping : HostMapping) (container : Option String)
  | setupLink (net : Net) (id : ℕ)
  | removeLink (net : Net) (id : ℕ)
  | readyLink (id : ℕ)
  | setupPolicy (id : ℕ)
  | retirePolicy (nsName : String)
  | readyPolicy (id : ℕ)
  | insertPeer (veth : Ipv4Addr) (vlanId : ℕ) (ip : Ipv4Addr)
  | removePeers (vlanId : ℕ)
  | allowPeer (net : Net) (id : ℕ) (ip : Ipv4Addr)
  | forgetPeer (net : Net) (id : ℕ)
  | recordEgress (id : ℕ) (record : EgressRecord)
  | takeEgress (id : ℕ)
  | recordVlan (id : ℕ) (mapping : HostMapping)
  | takeVlan (id : ℕ)
  | recordVxlan (id : ℕ) (mapping : HostMapping) (container : Option String)
  | takeVxlan (id : ℕ)
  /-- `with_vxlan`: the mapping is written again, while nobody can take its record. -/
  | publishVxlan (id : ℕ)
  | peekContainerIp (container : String) (port : UInt16)
  | markPrepared (container : String) (port : UInt16) (id : ℕ) (overlayIp containerIp : Ipv4Addr)
  | markReady (id : ℕ)
  | removeByVxlan (id : ℕ)
  | pause (container : String)
  | unpause (container : String)
  | containerRunning (container : String)
  | ack (msgId : String)

/-- What an operation returns. -/
@[reducible] def HostReply : HostCall → Type
  | .addRule _ | .deleteRule _ | .ruleAbsent _ | .flushRoutes _ => Bool
  | .listRules _ => Option (List Rule)
  | .defaultRouteIface => Option String
  | .containerIpv4 _ => Option Ipv4Addr
  | .bridgeIps _ => List Ipv4Addr
  | .addHostMapping .. | .removeHostMapping .. | .setupLink .. | .removeLink .. => Bool
  | .readyLink _ | .setupPolicy _ | .retirePolicy _ => Bool
  | .readyPolicy _ => Option Bool
  | .insertPeer .. | .removePeers _ | .allowPeer .. | .forgetPeer .. => Unit
  | .recordEgress .. | .recordVlan .. | .recordVxlan .. | .markPrepared .. => Unit
  | .takeEgress _ => Option EgressRecord
  | .takeVlan _ => Option HostMapping
  | .takeVxlan _ => Option (HostMapping × Option String)
  | .publishVxlan _ | .markReady _ => Bool
  | .peekContainerIp .. => Ipv4Addr
  | .removeByVxlan _ => Option (String × UInt16 × Ipv4Addr × Ipv4Addr)
  | .pause _ | .unpause _ | .containerRunning _ | .ack _ => Bool

/-- What the environment makes of an operation. -/
structure Outcome where
  ok : Bool := true
  /-- It failed, but has had its effect. -/
  partly : Bool := false
  device : Option String := none
  address : Option Ipv4Addr := none
  addresses : List Ipv4Addr := []
  policy : Bool := false

namespace Host

def attempt (h h' : Host) (o : Outcome) : Host × Bool := (if o.ok || o.partly then h' else h, o.ok)

/-- Add a rule; a route replaces the one of its table. -/
def insertRule (h : Host) (rule : Rule) : Host :=
  match rule with
  | .route id _ _ => { h with rules := h.rules.filter (fun r => !r.isRouteOf id) ++ [rule] }
  | _ => { h with rules := h.rules ++ [rule] }

def editHosts (h : Host) (container : Option String) (edit : HostsFile → HostsFile) : Host :=
  { h with hosts := fun c => if c = container then edit (h.hosts c) else h.hosts c }

def exec (h : Host) (_ : ℕ) : (c : HostCall) → Outcome → Host × HostReply c
  | .addRule rule, o => h.attempt (h.insertRule rule) o
  | .deleteRule rule, o =>
    if rule ∈ h.rules then h.attempt { h with rules := h.rules.erase rule } o else (h, false)
  | .ruleAbsent rule, o => (h, o.ok && rule ∉ h.rules)
  | .listRules chain, o => (h, if o.ok then some (h.rules.filter (·.chain = chain)) else none)
  | .flushRoutes id, o => h.attempt { h with rules := h.rules.filter fun r => !r.isRouteOf id } o
  | .defaultRouteIface, o => (h, o.device)
  | .containerIpv4 _, o => (h, o.address)
  | .bridgeIps _, o => (h, o.addresses)
  | .addHostMapping m container, o => h.attempt (h.editHosts container fun f => f.upsert m) o
  | .removeHostMapping m container, o => h.attempt (h.editHosts container fun f => f.remove m) o
  | .setupLink net id, o => h.attempt { h with links := h.links.insert (net, id) } o
  | .removeLink net id, o => h.attempt { h with links := h.links.filter fun l => l ≠ (net, id) } o
  | .readyLink _, o => (h, o.ok)
  | .setupPolicy id, o => h.attempt { h with links := h.links.insert (.vxlan, id) } o
  | .retirePolicy _, o => (h, o.ok)
  | .readyPolicy _, o => (h, if o.ok then some o.policy else none)
  | .insertPeer veth vlanId ip, _ => ({ h with peers := h.peers.insert (veth, vlanId) ip }, ())
  | .removePeers vlanId, _ => ({ h with peers := h.peers.retain fun k _ => k.2 ≠ vlanId }, ())
  | .allowPeer net id ip, _ => ({ h with firewall := h.firewall.insert (net, id) ip }, ())
  | .forgetPeer net id, _ => ({ h with firewall := h.firewall.erase (net, id) }, ())
  | .recordEgress id record, _ => ({ h with egressState := h.egressState.insert id record }, ())
  | .takeEgress id, _ =>
    ({ h with egressState := h.egressState.erase id }, h.egressState.lookup id)
  | .recordVlan id m, _ => ({ h with vlanMappings := h.vlanMappings.insert id m }, ())
  | .takeVlan id, _ =>
    ({ h with vlanMappings := h.vlanMappings.erase id }, h.vlanMappings.lookup id)
  | .recordVxlan id m container, _ =>
    ({ h with vxlanMappings := h.vxlanMappings.insert id (m, container) }, ())
  | .takeVxlan id, _ =>
    ({ h with vxlanMappings := h.vxlanMappings.erase id }, h.vxlanMappings.lookup id)
  | .publishVxlan id, o =>
    match h.vxlanMappings.lookup id with
    | none => (h, true)
    | some (m, container) => h.attempt (h.editHosts container fun f => f.upsert m) o
  | .peekContainerIp container port, _ => (h, h.triggers.peekContainerIp container port)
  | .markPrepared container port id overlayIp containerIp, _ =>
    ({ h with triggers := h.triggers.markPrepared container port id overlayIp containerIp }, ())
  | .markReady id, _ =>
    ({ h with triggers := (h.triggers.markReady id).1 }, (h.triggers.markReady id).2)
  | .removeByVxlan id, _ =>
    ({ h with triggers := (h.triggers.removeByVxlan id).1 }, (h.triggers.removeByVxlan id).2)
  | .pause container, o => h.attempt { h with paused := h.paused.insert container } o
  | .unpause container, o => h.attempt { h with paused := h.paused.filter (· ≠ container) } o
  | .containerRunning container, o => (h, o.ok && container ∉ h.paused)
  | .ack _, o => (h, o.ok)

end Host

end Nullnet.Client
