import Mathlib.Tactic.NormNum

/-! # Addresses, kinds of network and teardown messages

The server builds its networks as VLANs or VXLANs. This file has the data that the rest of the model
shares: addresses, the addresses inside a network, and the messages that tell an endpoint to
dismantle one. -/

namespace Nullnet.Server

abbrev Ipv4Addr := BitVec 32

def Ipv4Addr.text (a : Ipv4Addr) : String :=
  let part (i : ℕ) : String := toString (a.toNat / 256 ^ i % 256)
  part 3 ++ "." ++ part 2 ++ "." ++ part 1 ++ "." ++ part 0

inductive IpAddr
  | v4 (bits : BitVec 32)
  | v6 (bits : BitVec 128)
  deriving DecidableEq, Repr

/-- The kind of network that the server builds (`NET_TYPE`). -/
inductive Net
  | vlan
  | vxlan
  deriving DecidableEq, Repr

def DEFAULT_VXLAN_DSTPORT : ℕ := 47890

/-- The teardown messages; `M` is the type of message ids. -/
inductive NetMessage (M : Type)
  | vlanTeardown (vlanId : ℕ) (msgId : M)
  | vxlanTeardown (vxlanId : ℕ) (nsName brName : String) (dockerContainer : Option String)
      (localIp remoteIp : IpAddr) (dstport : ℕ) (msgId : M) (group : Bool)
  deriving DecidableEq, Repr

/-- The teardown message for one side of a network. -/
def Net.teardown {M : Type} (net : Net) (netId : ℕ) (side : String)
    (dockerContainer : Option String) (localIp remoteIp : IpAddr) (dstport : Option ℕ) (msgId : M)
    (group : Bool) : NetMessage M :=
  match net with
  | .vlan => .vlanTeardown netId msgId
  | .vxlan =>
    .vxlanTeardown netId ("ns_" ++ toString netId ++ "_" ++ side)
      ("br_" ++ toString netId ++ "_" ++ side) dockerContainer localIp remoteIp
      (dstport.getD DEFAULT_VXLAN_DSTPORT) msgId group

/-- The overlay address that one side of a network reports: an id has a block of 4 (VLAN) or 8
(VXLAN) addresses in `10.0.0.0/8`, and a VXLAN has one address for a container and one for the
host on each side. -/
def Net.localIp (net : Net) (netId : ℕ) (isClient : Bool) (docker : Option String) : Ipv4Addr :=
  match net with
  | .vlan => BitVec.ofNat 32 (10 * 2 ^ 24 + netId * 4 % 2 ^ 24 + if isClient then 2 else 1)
  | .vxlan => BitVec.ofNat 32 (10 * 2 ^ 24 + netId * 8 % 2 ^ 24 +
      ((if isClient then 2 else 0) + if docker.isSome then 1 else 2))

/-- How long an edge is taken to be under construction by whoever reserved it, in milliseconds. -/
def EDGE_CLAIM_TIMEOUT : ℕ := 90000

end Nullnet.Server
