import Nullnet.Lib.Bytes
import Nullnet.Lib.Dict
import Nullnet.Server.Net

/-! # Forwarding by policy

The edges of a permission group do not have links of their own. A program at the link of an application
(`outgoing`) and one at the end of a tunnel (`incoming`) look up a rule, check that TCP packets belong to
a connection that was opened under the rule, and translate addresses between the application, which
always has the same address, and the overlay.

What the kernel's helpers do is in `Helpers`: they replace checksums, attach the metadata of a tunnel and
store flows, and each may fail. A program that fails drops the packet; the flow that it may have stored
before remains. -/

namespace Nullnet.Ebpf.Policy

open Nullnet.Lib
open Nullnet.Server (Ipv4Addr)

/-! ## Rules -/

/-- The address of every application in its own namespace. -/
def APP_IP : Ipv4Addr := 0xa9fef002#32

def MAX_GENERATION : ℕ := 2 ^ 40 - 1

structure OutKey where
  interface : BitVec 32
  peer : Ipv4Addr
  deriving DecidableEq

structure Rule where
  generation : BitVec 64
  vni : BitVec 32
  localIp : Ipv4Addr
  peer : Ipv4Addr
  underlayLocal : Ipv4Addr
  underlayRemote : Ipv4Addr
  transport : BitVec 32
  mark : BitVec 32
  output : BitVec 32
  enabled : BitVec 32 := 0
  mac : List UInt8
  deriving DecidableEq

/-- A TCP connection of an application; the ports are kept as they are in the packet. -/
structure FlowKey where
  interface : BitVec 32
  peer : Ipv4Addr
  localPort : UInt16
  remotePort : UInt16
  deriving DecidableEq

structure Maps where
  outgoing : Dict OutKey Rule := ∅
  incoming : Dict Ipv4Addr Rule := ∅
  deadline : ℕ := 0
  flows : Dict FlowKey (BitVec 64) := ∅

/-! ## Packets -/

structure TunnelKey where
  tunnelId : BitVec 32
  tunnelTtl : ℕ
  remoteIpv4 : Ipv4Addr
  localIpv4 : Ipv4Addr
  deriving DecidableEq

/-- A packet in the kernel, with the metadata of the tunnel that it came through. -/
structure Skb where
  frame : Bytes
  ifindex : BitVec 32
  mark : BitVec 32 := 0
  tunnel : Option TunnelKey := none
  option : Option (BitVec 32) := none

/-- A packet that is sent on, the metadata of the tunnel that it is to go through, and the link. -/
structure Redirect where
  frame : Bytes
  mark : BitVec 32
  tunnel : Option (TunnelKey × BitVec 32) := none
  target : BitVec 32
  deriving DecidableEq

/-- The helpers of the kernel, as a packet meets them. -/
structure Helpers where
  now : ℕ
  l3CsumReplace : Bytes → ℕ → BitVec 32 → BitVec 32 → Option Bytes
  l4CsumReplace : Bytes → ℕ → BitVec 32 → BitVec 32 → Option Bytes
  setTunnel : Bool
  insertFlow : Bool

/-- `ctx.store` of bytes. -/
def store (frame : Bytes) (offset : ℕ) (bytes : Bytes) : Option Bytes :=
  if offset + bytes.length ≤ frame.length then
    some (frame.take offset ++ bytes ++ frame.drop (offset + bytes.length))
  else none

/-- The length of the IPv4 header and the protocol of a packet that is no fragment. -/
def header (frame : Bytes) : Option (ℕ × UInt8) := do
  let etherType ← frame.be16 12
  guard (etherType = 0x0800)
  let version : UInt8 ← frame[14]?
  let len := (version &&& 15).toNat * 4
  let fragment ← frame.be16 20
  guard (version >>> 4 = 4 ∧ 20 ≤ len ∧ fragment &&& 0x3fff = 0)
  let proto ← frame[23]?
  guard (proto = 6 ∨ proto = 17 ∨ proto = 1)
  return (len, proto)

/-- Replace an address and bring the checksums in line. -/
def translate (k : Helpers) (frame : Bytes) (offset : ℕ) (target : Ipv4Addr) (len : ℕ)
    (proto : UInt8) : Option Bytes := do
  let old ← frame.be32 offset
  let frame ← k.l3CsumReplace frame 24 old target
  let checksum := 14 + len + if proto = 6 then 16 else 6
  let frame ←
    if proto = 6 then k.l4CsumReplace frame checksum old target
    else if proto = 17 then do
      let present ← frame.be16 checksum
      if present ≠ 0 then k.l4CsumReplace frame checksum old target else some frame
    else some frame
  store frame offset (.ofBE32 target)

/-! ## Flows -/

/-- What the check of a flow reads of a TCP packet. -/
structure Segment where
  source : UInt16
  dest : UInt16
  flags : UInt8

def segment (frame : Bytes) (len : ℕ) : Option Segment := do
  let source ← frame.be16 (14 + len)
  let dest ← frame.be16 (16 + len)
  let flags ← frame[27 + len]?
  return ⟨source, dest, flags⟩

def Segment.isSyn (t : Segment) : Bool := t.flags &&& 0x02 ≠ 0

/-- The key of the connection, seen from the application. -/
def flowKey (rule : Rule) (interface : BitVec 32) (t : Segment) (incoming : Bool) : FlowKey :=
  { interface
    peer := rule.peer
    localPort := if incoming then t.dest else t.source
    remotePort := if incoming then t.source else t.dest }

/-- `flow`: a packet that opens a connection enters the generation of its rule, any other one needs
it to be there. -/
def flow (k : Helpers) (flows : Dict FlowKey (BitVec 64)) (rule : Rule) (interface : BitVec 32)
    (frame : Bytes) (len : ℕ) (proto : UInt8) (incoming : Bool) :
    Option (Dict FlowKey (BitVec 64)) :=
  if proto ≠ 6 then some flows
  else do
    let t ← segment frame len
    let key := flowKey rule interface t incoming
    if t.isSyn then
      if k.insertFlow then some (flows.insert key rule.generation) else none
    else if flows.lookup key = some rule.generation then some flows else none

/-- A packet for which a rule was found: its protocol and the length of its header. -/
structure Match where
  rule : Rule
  len : ℕ
  proto : UInt8

/-- Both programs: find a rule, check the flow, and send the packet on. The result is the packet that
is sent on, if any, and the flows afterwards. -/
def checkAndSend (k : Helpers) (flows : Dict FlowKey (BitVec 64)) (frame : Bytes) (found : Option Match)
    (interface : Match → BitVec 32) (incoming : Bool) (send : Match → Option Redirect) :
    Option Redirect × Dict FlowKey (BitVec 64) :=
  match found with
  | none => (none, flows)
  | some x =>
    match flow k flows x.rule (interface x) frame x.len x.proto incoming with
    | none => (none, flows)
    | some flows => (send x, flows)

/-! ## Out of an application -/

/-- The first part of `outgoing`, up to the rule. -/
def matchOutgoing (k : Helpers) (m : Maps) (skb : Skb) : Option Match := do
  guard (k.now < m.deadline)
  let (len, proto) ← header skb.frame
  let source ← skb.frame.be32 26
  guard (source = APP_IP)
  let peer ← skb.frame.be32 30
  let rule ← m.outgoing.lookup ⟨skb.ifindex, peer⟩
  guard (rule.enabled ≠ 0)
  return ⟨rule, len, proto⟩

/-- What a packet carries through the tunnel of a rule. -/
def tunnelOf (rule : Rule) : TunnelKey :=
  { tunnelId := rule.vni, tunnelTtl := 64, remoteIpv4 := rule.underlayRemote,
    localIpv4 := rule.underlayLocal }

/-- The option word: the upper part of the generation and a flag. -/
def optionOf (generation : BitVec 64) : BitVec 32 := (generation >>> 24).setWidth 32 ||| 1#32 <<< 22

/-- The last part of `outgoing`: to the other application on the same host, or through the tunnel. -/
def sendOut (k : Helpers) (skb : Skb) (x : Match) : Option Redirect := do
  let frame ← translate k skb.frame 26 x.rule.localIp x.len x.proto
  if x.rule.underlayLocal = x.rule.underlayRemote then
    let frame ← translate k frame 30 APP_IP x.len x.proto
    let frame ← store frame 0 x.rule.mac
    return { frame, mark := skb.mark, target := x.rule.output }
  else if k.setTunnel then
    return { frame, mark := x.rule.mark, target := x.rule.transport
             tunnel := some (tunnelOf x.rule, optionOf x.rule.generation) }
  else none

def outgoing (k : Helpers) (m : Maps) (skb : Skb) : Option Redirect × Dict FlowKey (BitVec 64) :=
  checkAndSend k m.flows skb.frame (matchOutgoing k m skb) (fun _ => skb.ifindex) false (sendOut k skb)

/-! ## Out of a tunnel -/

/-- The metadata of a packet agree with a rule. -/
def metadataOk (rule : Rule) (skb : Skb) : Bool :=
  skb.mark = rule.mark &&
    match skb.tunnel, skb.option with
    | some tunnel, some option =>
      tunnel.remoteIpv4 = rule.underlayRemote && tunnel.tunnelId = rule.vni &&
        (option &&& 0xffff#32).setWidth 64 = rule.generation >>> 24
    | _, _ => false

/-- The first part of `incoming`, up to the checks of the metadata. -/
def matchIncoming (k : Helpers) (m : Maps) (skb : Skb) : Option Match := do
  guard (k.now < m.deadline)
  let (len, proto) ← header skb.frame
  let localIp ← skb.frame.be32 30
  let rule ← m.incoming.lookup localIp
  let peer ← skb.frame.be32 26
  guard (peer = rule.peer)
  guard (metadataOk rule skb)
  return ⟨rule, len, proto⟩

/-- The last part of `incoming`. -/
def deliver (k : Helpers) (skb : Skb) (x : Match) : Option Redirect := do
  let frame ← translate k skb.frame 30 APP_IP x.len x.proto
  let frame ← store frame 0 x.rule.mac
  return { frame, mark := 0, target := x.rule.output }

def incoming (k : Helpers) (m : Maps) (skb : Skb) : Option Redirect × Dict FlowKey (BitVec 64) :=
  checkAndSend k m.flows skb.frame (matchIncoming k m skb) (·.rule.output) true (deliver k skb)

end Nullnet.Ebpf.Policy
