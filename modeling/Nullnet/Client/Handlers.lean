import Nullnet.Client.Commands

/-! # The handlers of the control messages

`control_channel.rs`: setup and teardown of VLANs and VXLANs, the release of a network that is ready at
both ends, and the pausing of containers. A message starts a job of its own; the messages about one
VXLAN form a lane (`lane`), so that they are handled one after the other.

Events that are only reported to the server are left out. -/

namespace Nullnet.Client

open Nullnet.Lib
open Nullnet.Server (Ipv4Addr Net)

/-! ## Messages -/

structure VlanSetup where
  msgId : Option String
  vlanId : ℕ
  localVeth : String
  remoteIp : String
  remoteVeth : String
  encrypted : Bool := false
  encryptionKey : List UInt8 := []
  hostMapping : Option HostMapping := none

structure VxlanSetup where
  msgId : Option String
  vxlanId : ℕ
  brName : String
  nsNet : String
  brNet : String
  localIp : String
  remoteIp : String
  dstport : ℕ
  encrypted : Bool := false
  encryptionKey : List UInt8 := []
  dockerContainer : Option String := none
  hostMapping : Option HostMapping := none
  dnatPort : Option ℕ := none
  egressSteer : Bool := false
  egressIntercept : Bool := false
  group : Bool := false

structure VxlanTeardown where
  msgId : Option String
  vxlanId : ℕ
  nsName : String
  group : Bool := false

inductive Message
  | vlanSetup (m : VlanSetup)
  | vlanTeardown (vlanId : ℕ) (msgId : Option String)
  | vxlanSetup (m : VxlanSetup)
  | vxlanTeardown (m : VxlanTeardown)
  | netReady (netId : ℕ) (msgId : Option String)
  | containerSuspend (container : String)
  | containerResume (container : String) (msgId : Option String)

/-- The messages that are handled one after the other. -/
def lane : Message → Option ℕ
  | .vxlanSetup m => some m.vxlanId
  | .vxlanTeardown m => some m.vxlanId
  | .netReady netId _ => some netId
  | _ => none

/-- `u16::try_from`. -/
def tryU16 (x : ℕ) : Option UInt16 := if x < 2 ^ 16 then some (.ofNat x) else none

def keyOk (encrypted : Bool) (key : List UInt8) : Bool := !encrypted || key.length = 32

/-- `ack_control`: a message without an id is not acknowledged. -/
def ackControl (msgId : Option String) : Agent Bool :=
  match msgId with
  | none => return false
  | some id => do
    let _ ← op (.ack id)
    return true

section

variable (P : Parsers)

/-! ## VLANs -/

/-- What is checked before a VLAN is set up; the address of the peer, and its address in the VLAN. -/
def VlanSetup.parse (m : VlanSetup) : Option (Ipv4Addr × Ipv4Addr) := do
  guard m.msgId.isSome
  let _ ← P.ip m.localVeth
  let remoteIp ← P.ip m.remoteIp
  let remoteVeth ← P.ip m.remoteVeth
  guard (m.vlanId < 2 ^ 16 ∧ keyOk m.encrypted m.encryptionKey)
  return (remoteIp, remoteVeth)

/-- The result of a handler says whether it acknowledged the message. -/
def handleVlanSetup (m : VlanSetup) : Agent Bool :=
  match m.parse P with
  | none => return false
  | some (remoteIp, remoteVeth) => do
    let _ ← op (.setupLink .vlan m.vlanId)
    op (.insertPeer remoteVeth m.vlanId remoteIp)
    op (.allowPeer .vlan m.vlanId remoteIp)
    if let some mapping := m.hostMapping then
      let _ ← op (.addHostMapping mapping none)
      op (.recordVlan m.vlanId mapping)
    ackControl m.msgId

def handleVlanTeardown (vlanId : ℕ) (msgId : Option String) : Agent Bool := do
  if 2 ^ 16 ≤ vlanId then return false
  let _ ← op (.removeLink .vlan vlanId)
  op (.removePeers vlanId)
  op (.forgetPeer .vlan vlanId)
  if let some mapping ← op (.takeVlan vlanId) then
    let _ ← op (.removeHostMapping mapping none)
  -- acknowledged last: the server frees the id on this
  ackControl msgId

/-! ## The setup of a VXLAN -/

/-- The addresses of a VXLAN: of its bridge, and of its two ends. -/
structure VxlanEnds where
  brIp : Ipv4Addr
  localIp : Ipv4Addr
  remoteIp : Ipv4Addr

def VxlanSetup.parse (m : VxlanSetup) : Option VxlanEnds := do
  guard m.msgId.isSome
  let _ ← P.net m.nsNet
  let brNet ← P.net m.brNet
  let localIp ← P.ip m.localIp
  let remoteIp ← P.ip m.remoteIp
  let _ ← tryU16 m.dstport
  guard (keyOk m.encrypted m.encryptionKey)
  return ⟨brNet.ip, localIp, remoteIp⟩

/-- The address of the container whose traffic is steered. -/
def steeredIp (container : String) (isLocal : Bool) : Agent (Option Ipv4Addr) := do
  if isLocal then
    let source ← op (.peekContainerIp container EGRESS_TRIGGER_PORT)
    return if source = 0 then none else some source
  else op (.containerIpv4 container)

/-- The initiator's end of an egress edge: its container is steered into the network. The record is
made whether or not the rules are complete. -/
def setupSteer (m : VxlanSetup) (ends : VxlanEnds) : Agent Bool := do
  let isLocal := ends.localIp = ends.remoteIp
  match m.hostMapping.bind (fun mapping => P.ip mapping.ip), m.dockerContainer with
  | some gateway, some container =>
    match ← steeredIp container isLocal with
    | none => return false
    | some containerIp =>
      let installed ←
        if isLocal then do
          let ips ← op (.bridgeIps container)
          installLocalForward m.vxlanId (if containerIp ∈ ips then ips else ips ++ [containerIp])
        else installSteer m.vxlanId m.brName gateway ends.brIp containerIp
      op (.recordEgress m.vxlanId
        (if isLocal then .localForward else .steer m.brName ends.brIp containerIp))
      if !installed then return false
      op (.markPrepared container EGRESS_TRIGGER_PORT m.vxlanId gateway containerIp)
      return true
  | _, _ => return false

def setupGateway (m : VxlanSetup) : Agent Bool := do
  op (.recordEgress m.vxlanId (.gateway m.brName m.brNet))
  installGatewayForward P m.brName m.brNet

/-- The client's end of an edge between services: a mapping of the service's name, or the redirection
of a trigger port. -/
def setupMapping (m : VxlanSetup) (mapping : HostMapping) : Agent Bool := do
  match m.dnatPort with
  | none =>
    op (.recordVxlan m.vxlanId mapping m.dockerContainer)
    op (.addHostMapping mapping m.dockerContainer)
  | some dnatPort =>
    match tryU16 dnatPort, P.ip mapping.ip with
    | some port, some overlayIp =>
      let container := m.dockerContainer.getD ""
      let containerIp ← op (.peekContainerIp container port)
      let ok ← installDnat port overlayIp containerIp
      -- also after a failure, for the teardown that follows
      op (.markPrepared container port m.vxlanId overlayIp containerIp)
      return ok
    | _, _ => return false

def setupEdge (m : VxlanSetup) (ends : VxlanEnds) : Agent Bool :=
  if m.egressSteer then setupSteer P m ends
  else if m.egressIntercept ∧ ends.localIp ≠ ends.remoteIp then setupGateway P m
  else if m.group then return true
  else
    match m.hostMapping with
    | none => return true
    | some mapping => setupMapping P m mapping

def handleVxlanSetup (m : VxlanSetup) : Agent Bool :=
  match m.parse P with
  | none => return false
  | some ends => do
    if ends.localIp ≠ ends.remoteIp then op (.allowPeer .vxlan m.vxlanId ends.remoteIp)
    let up ← if m.group then op (.setupPolicy m.vxlanId) else op (.setupLink .vxlan m.vxlanId)
    if !up then return false
    if !(← setupEdge P m ends) then return false
    ackControl m.msgId

/-! ## The teardown of a VXLAN -/

def undoEgress (vxlanId : ℕ) : Agent Bool := do
  match ← op (.takeEgress vxlanId) with
  | none => return true
  | some .localForward => removeLocalForwards vxlanId
  | some (.steer brName snatSrc containerIp) => removeSteer vxlanId brName snatSrc containerIp
  | some (.gateway brName brNet) => removeGatewayForward P brName brNet

/-- Undo the redirection of a trigger port; the entry of an egress edge has none. -/
def undoTrigger (vxlanId : ℕ) : Agent Bool := do
  match ← op (.removeByVxlan vxlanId) with
  | none => return true
  | some (_, port, overlayIp, containerIp) =>
    if port = EGRESS_TRIGGER_PORT then return true
    removeDnat port overlayIp containerIp

def undoMapping (vxlanId : ℕ) : Agent Bool := do
  match ← op (.takeVxlan vxlanId) with
  | none => return true
  | some (mapping, container) => op (.removeHostMapping mapping container)

def handleVxlanTeardown (m : VxlanTeardown) : Agent Bool := do
  let ok₁ ← if m.group then op (.retirePolicy m.nsName) else undoEgress P m.vxlanId
  op (.forgetPeer .vxlan m.vxlanId)
  let ok₂ ← if m.group then pure true else undoTrigger m.vxlanId
  let ok₃ ← undoMapping m.vxlanId
  let down ← if m.group then pure true else op (.removeLink .vxlan m.vxlanId)
  -- acknowledged last: the server frees the id on this
  if ok₁ && ok₂ && ok₃ && down then ackControl m.msgId else return false

def handleNetReady (netId : ℕ) (msgId : Option String) : Agent Bool := do
  match ← op (.readyPolicy netId) with
  | none => return false
  | some policy =>
    if !policy then
      if !(← op (.readyLink netId)) then return false
    if !(← op (.publishVxlan netId)) then return false
    if policy then ackControl msgId
    else if ← op (.markReady netId) then ackControl msgId
    else return false

/-! ## Containers -/

def handleContainerSuspend (container : String) : Agent Bool := do
  let _ ← op (.pause container)
  return false

def handleContainerResume (container : String) (msgId : Option String) : Agent Bool := do
  match msgId with
  | none => return false
  | some id =>
    if !(← op (.unpause container)) then return false
    if !(← op (.containerRunning container)) then return false
    ackControl (some id)

def handler : Message → Agent Bool
  | .vlanSetup m => handleVlanSetup P m
  | .vlanTeardown vlanId msgId => handleVlanTeardown vlanId msgId
  | .vxlanSetup m => handleVxlanSetup P m
  | .vxlanTeardown m => handleVxlanTeardown P m
  | .netReady netId msgId => handleNetReady netId msgId
  | .containerSuspend container => handleContainerSuspend container
  | .containerResume container msgId => handleContainerResume container msgId

def client : Service Host Message HostCall HostReply Bool Outcome := ⟨handler P, Host.exec⟩

end

end Nullnet.Client
