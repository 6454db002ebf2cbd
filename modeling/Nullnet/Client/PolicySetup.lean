import Nullnet.Ebpf.Policy
import Nullnet.Lib.Checks
import Nullnet.Server.Setup

/-! # Edges of permission groups on a client

`policy::setup` checks a setup message, computes the overlay addresses of both ends from it, and makes
the rule that the forwarding programs look up. The address of the application's namespace and of its
link come from the attachment of the container (`Attachment`); the link of the tunnel is that of the
carrier, and there is none if both ends are on this host. -/

namespace Nullnet.Client.Policy

open Nullnet.Server (Ipv4Addr IpAddr GroupTransport u32)
open Nullnet.Ebpf.Policy
open Nullnet.Lib

/-- The link of a container on the host, and the address of the link inside. -/
structure Attachment where
  outer : BitVec 32
  mac : List UInt8
  deriving DecidableEq

def parseIpv4 : IpAddr → Except String Ipv4Addr
  | .v4 a => .ok a
  | .v6 _ => .error "invalid IPv4 address syntax"

theorem ipv4_of_parse {ip : IpAddr} {a : Ipv4Addr} (h : parseIpv4 ip = .ok a) : ip = .v4 a := by
  cases ip with
  | v4 b => cases h; rfl
  | v6 b => cases h

/-- The checks of `setup`; `ready` is the protection of the host against plaintext. -/
def checkSetup (ready : Bool) (m : Server.VxlanSetup) :
    Except String (GroupTransport × Ipv4Addr × Ipv4Addr) :=
  if !ready then .error "Host plaintext protection is not ready"
  else
    match m.groupTransport with
    | none => .error "Missing group transport"
    | some transport =>
      if transport.generation = 0 ∨ MAX_GENERATION < transport.generation ∨ transport.carrierId = 0 ∨
          MAX_GENERATION < transport.carrierId then
        .error "Group generation exhausted"
      else do
        let localHost ← parseIpv4 m.localIp
        let remoteHost ← parseIpv4 m.remoteIp
        if !m.encrypted || m.egressSteer.getD false || m.egressIntercept.getD false ||
            m.dnatPort.isSome then
          .error "Unsupported group placement"
        else return (transport, localHost, remoteHost)

def isClientSide (m : Server.VxlanSetup) : Bool := "_c".toList.isSuffixOf m.nsName.toList

/-- The overlay addresses of this end and of the other one; `none` stands for an overflow. -/
def overlayAddresses (m : Server.VxlanSetup) (transport : GroupTransport) :
    Option (Ipv4Addr × Ipv4Addr) := do
  let client := isClientSide m
  let offset ← u32 (m.vxlanId * 8)
  let block ← u32 (10 * 2 ^ 24 + offset)
  let localIp ← u32 (block + (if client then 3 else 1) + if m.dockerContainer.isNone then 1 else 0)
  let peerIp ← u32 (block + (if client then 1 else 3) + if transport.peerContainer then 0 else 1)
  return (.ofNat 32 localIp, .ofNat 32 peerIp)

/-- An accepted message with what `setup` has found out for it. -/
structure Placed where
  message : Server.VxlanSetup
  transport : GroupTransport
  localHost : Ipv4Addr
  remoteHost : Ipv4Addr
  localIp : Ipv4Addr
  peerIp : Ipv4Addr
  output : Attachment
  /-- The link of the carrier. -/
  vxlan : BitVec 32

namespace Placed

variable (p : Placed)

def localTransport : Bool := p.localHost = p.remoteHost

def key : OutKey := ⟨p.output.outer, p.peerIp⟩

/-- The rule of an edge; it is enabled later, and a local edge gets its output with its other end. -/
def rule : Ebpf.Policy.Rule :=
  { generation := .ofNat 64 p.transport.generation
    vni := .ofNat 32 p.message.vxlanId
    localIp := p.localIp
    peer := p.peerIp
    underlayLocal := p.localHost
    underlayRemote := p.remoteHost
    transport := p.vxlan
    mark := 0x4e800000#32 ||| .ofNat 32 p.transport.id
    output := if p.localTransport then 0 else p.output.outer
    mac := if p.localTransport then List.replicate 6 0 else p.output.mac }

end Placed

/-- `setup` up to the maps: the checks, the addresses, and the links that it was given. -/
def place (ready : Bool) (m : Server.VxlanSetup) (output : Attachment) (carrier : BitVec 32) :
    Option Placed := do
  let (transport, localHost, remoteHost) ← (checkSetup ready m).toOption
  let (localIp, peerIp) ← overlayAddresses m transport
  let vxlan := if localHost = remoteHost then 0 else carrier
  return ⟨m, transport, localHost, remoteHost, localIp, peerIp, output, vxlan⟩

theorem of_checkSetup {ready : Bool} {m : Server.VxlanSetup} {t : GroupTransport} {a b : Ipv4Addr}
    (h : checkSetup ready m = .ok (t, a, b)) :
    m.groupTransport = some t ∧ t.generation ≠ 0 ∧ t.generation ≤ MAX_GENERATION ∧
      m.localIp = .v4 a ∧ m.remoteIp = .v4 b := by
  unfold checkSetup at h
  split at h
  · cases h
  · rcases ht : m.groupTransport with - | t'
    · rw [ht] at h
      cases h
    · rw [ht] at h
      dsimp only at h
      split at h
      · cases h
      · rename_i hgen
        obtain ⟨a', ha, h⟩ := Checks.bind_eq_ok.mp h
        obtain ⟨b', hb, h⟩ := Checks.bind_eq_ok.mp h
        split_ifs at h
        cases h
        simp only [not_or, not_lt] at hgen
        exact ⟨rfl, hgen.1, hgen.2.1, ipv4_of_parse ha, ipv4_of_parse hb⟩

end Nullnet.Client.Policy
