import Nullnet.Server.NetIdPool
import Mathlib.Tactic.IntervalCases

/-! # Setup messages and the addresses in a network

The server tells both sides of an edge to set up their end of a network. The id of the network gives it
a block of 4 (VLAN) or 8 (VXLAN) addresses in `10.0.0.0/8`, and the messages name the addresses in it.

The arithmetic of the source is that of `u32` and `u8`; here each operation checks that it does not
overflow (`u32`, `u8`), so that `none` stands for an overflow. Texts of addresses are written out only
in host mappings. -/

namespace Nullnet.Server

/-! ## Arithmetic -/

def u32 (n : ℕ) : Option ℕ := if n < 2 ^ 32 then some n else none

def u8 (n : ℕ) : Option ℕ := if n < 2 ^ 8 then some n else none

theorem u32_of_lt {n : ℕ} (h : n < 2 ^ 32) : u32 n = some n := if_pos h

theorem u8_of_lt {n : ℕ} (h : n < 2 ^ 8) : u8 n = some n := if_pos h

def Ipv4Addr.new (a b c d : ℕ) : Ipv4Addr := .ofNat 32 (a * 2 ^ 24 + b * 2 ^ 16 + c * 2 ^ 8 + d)

/-! ## Messages -/

/-- A name for an address in the file of hosts. -/
structure HostMapping where
  ip : String
  name : String
  deriving DecidableEq

structure Ipv4Network where
  ip : Ipv4Addr
  bits : ℕ
  deriving DecidableEq

/-- The part of an edge in the forwarding to the internet. -/
inductive EgressRole
  | none
  | steer
  | intercept
  deriving DecidableEq

structure GroupTransport where
  id : ℕ
  encryptionKey : List UInt8
  peerContainer : Bool
  generation : ℕ
  carrierId : ℕ
  deriving DecidableEq

structure VlanSetup where
  msgId : String
  vlanId : ℕ
  localVeth : Ipv4Addr
  remoteVeth : Ipv4Addr
  localIp : IpAddr
  remoteIp : IpAddr
  hostMapping : Option HostMapping
  encryptionKey : List UInt8
  encrypted : Bool
  deriving DecidableEq

structure VxlanSetup where
  msgId : String
  vxlanId : ℕ
  nsName : String
  nsNet : Ipv4Network
  brName : String
  brNet : Ipv4Network
  localIp : IpAddr
  remoteIp : IpAddr
  hostMapping : Option HostMapping
  dockerContainer : Option String
  dnatPort : Option ℕ
  encryptionKey : List UInt8
  dstport : ℕ
  egressSteer : Option Bool
  egressIntercept : Option Bool
  encrypted : Bool
  groupTransport : Option GroupTransport
  xfrmTransportId : Option ℕ
  deriving DecidableEq

/-- `vlan_setup`: the message is for the client if it names the server, and the address is the one of
the side that the message is for. -/
def vlanSetup (msgId : String) (dest : IpAddr) (remoteServerName : Option String) (vlanId : ℕ)
    (remote : IpAddr) (encryptionKey : List UInt8) (encrypted : Bool) :
    Option (Ipv4Addr × VlanSetup) := do
  let offset ← u32 (vlanId * 4)
  let a := offset / 2 ^ 16 % 2 ^ 8
  let b := offset / 2 ^ 8 % 2 ^ 8
  let c := offset % 2 ^ 8
  let serverVeth := Ipv4Addr.new 10 a b (← u8 (c + 1))
  let clientVeth := Ipv4Addr.new 10 a b (← u8 (c + 2))
  let localVeth := if remoteServerName.isSome then clientVeth else serverVeth
  let remoteVeth := if remoteServerName.isSome then serverVeth else clientVeth
  return (localVeth,
    { msgId, vlanId, localVeth, remoteVeth, localIp := dest, remoteIp := remote,
      hostMapping := remoteServerName.map fun name => ⟨serverVeth.text, name⟩,
      encryptionKey, encrypted })

/-- `vxlan_setup`: on each side there is one address for a container and one for the host. -/
def vxlanSetup (msgId : String) (dest : IpAddr) (remoteServerName : Option String) (vxlanId : ℕ)
    (remote : IpAddr) (dockerContainers : Option String × Option String) (dnatPort : Option ℕ)
    (encryptionKey : List UInt8) (xfrmTransportId : Option ℕ) (dstport : ℕ) (encrypted : Bool)
    (egress : EgressRole) (groupTransport : Option GroupTransport) :
    Option (Ipv4Addr × VxlanSetup) := do
  let offset ← u32 (vxlanId * 8)
  let a := offset / 2 ^ 16 % 2 ^ 8
  let b := offset / 2 ^ 8 % 2 ^ 8
  let c := offset % 2 ^ 8
  let isClient := remoteServerName.isSome
  let nsNetServer : Ipv4Network := ⟨.new 10 a b (← u8 (c + 1)), 29⟩
  let brNetServer : Ipv4Network := ⟨.new 10 a b (← u8 (c + 2)), 29⟩
  let nsNet ← if isClient then (u8 (c + 3)).map fun d => ⟨.new 10 a b d, 29⟩ else some nsNetServer
  let brNet ← if isClient then (u8 (c + 4)).map fun d => ⟨.new 10 a b d, 29⟩ else some brNetServer
  let dockerContainer := if isClient then dockerContainers.1 else dockerContainers.2
  let side := if isClient then "c" else "s"
  let serverNetIp := if dockerContainers.2.isSome then nsNetServer.ip else brNetServer.ip
  let localNetIp := if dockerContainer.isSome then nsNet.ip else brNet.ip
  return (localNetIp,
    { msgId, vxlanId, nsNet, brNet, localIp := dest, remoteIp := remote,
      nsName := "ns_" ++ toString vxlanId ++ "_" ++ side
      brName := "br_" ++ toString vxlanId ++ "_" ++ side
      hostMapping := remoteServerName.map fun name => ⟨serverNetIp.text, name⟩
      dockerContainer, dnatPort, encryptionKey, dstport
      egressSteer := if egress = .steer then some true else none
      egressIntercept := if egress = .intercept then some true else none
      encrypted, groupTransport, xfrmTransportId })

/-! ## The two sides of an edge -/

/-- What `setup_edge` knows of an edge when it sends the messages. -/
structure EdgeSetup where
  serverMsgId : String
  clientMsgId : String
  serverEthernet : IpAddr
  clientEthernet : IpAddr
  serverName : String
  serverDocker : Option String
  clientDocker : Option String
  backendEntryPort : Option ℕ := none
  encryptionKey : List UInt8 := []
  xfrmTransportId : Option ℕ := none
  encrypted : Bool := false
  egress : Bool := false
  groupTransport : Option GroupTransport := none

/-- The addresses and the messages for the server and for the client of an edge over a VLAN. -/
def vlanEdge (e : EdgeSetup) (netId : ℕ) : Option ((Ipv4Addr × VlanSetup) × Ipv4Addr × VlanSetup) := do
  let server ← vlanSetup e.serverMsgId e.serverEthernet none netId e.clientEthernet e.encryptionKey
    e.encrypted
  let client ← vlanSetup e.clientMsgId e.clientEthernet (some e.serverName) netId e.serverEthernet
    e.encryptionKey e.encrypted
  return (server, client)

/-- The same for a VXLAN; each side is told whether the other one is a container. -/
def vxlanEdge (e : EdgeSetup) (netId : ℕ) :
    Option ((Ipv4Addr × VxlanSetup) × Ipv4Addr × VxlanSetup) := do
  let serverGroup := e.groupTransport.map fun t => { t with peerContainer := e.clientDocker.isSome }
  let clientGroup := e.groupTransport.map fun t => { t with peerContainer := e.serverDocker.isSome }
  let server ← vxlanSetup e.serverMsgId e.serverEthernet none netId e.clientEthernet
    (e.clientDocker, e.serverDocker) none e.encryptionKey e.xfrmTransportId DEFAULT_VXLAN_DSTPORT
    e.encrypted (if e.egress then .intercept else .none) serverGroup
  let client ← vxlanSetup e.clientMsgId e.clientEthernet (some e.serverName) netId e.serverEthernet
    (e.clientDocker, e.serverDocker) e.backendEntryPort e.encryptionKey e.xfrmTransportId
    DEFAULT_VXLAN_DSTPORT e.encrypted (if e.egress then .steer else .none) clientGroup
  return (server, client)

end Nullnet.Server
