import Nullnet.Lib.Bytes
import Nullnet.Lib.Runs
import Nullnet.Server.Net
import Mathlib.Data.Sym.Sym2

/-! # The firewall of a host

Two programs of the kernel see each frame that enters or leaves a host. What they let through without
looking further are ARP and ICMP; TCP, UDP and ESP have to be allowed by the tables that the client
fills (`baseAllow`), or belong to a flow that was let through before (`Firewall.ct`). The key of a flow
does not depend on the direction of the packet. The table of flows forgets entries under load. A run
(`step`) keeps a log of the frames with the tables that they met. -/

namespace Nullnet.Ebpf

open Nullnet.Lib
open Nullnet.Server (Ipv4Addr)

/-! ## What is read of a frame -/

def PROTO_TCP : UInt8 := 6
def PROTO_UDP : UInt8 := 17
def PROTO_ESP : UInt8 := 50

/-- A packet as the firewall reads it; ESP has no ports. -/
structure Packet where
  proto : UInt8
  src : Ipv4Addr
  dst : Ipv4Addr
  srcPort : UInt16
  dstPort : UInt16
  deriving DecidableEq

/-- What the headers of a frame say: pass it, drop it, or look at the packet. -/
inductive Headers
  | pass
  | drop
  | tracked (p : Packet)
  deriving DecidableEq

/-- `ptr_at`: there are `len` bytes at the offset. -/
def ptrAt (frame : Bytes) (offset len : ℕ) : Option Unit :=
  if offset + len ≤ frame.length then some () else none

/-- The ports behind an IPv4 header of 20 bytes, in a transport header of `len` bytes. -/
def portsAt (frame : Bytes) (len : ℕ) : Option (UInt16 × UInt16) := do
  ptrAt frame 34 len
  let srcPort ← frame.be16 34
  let dstPort ← frame.be16 36
  return (srcPort, dstPort)

/-- The first part of `try_firewall`. -/
def headers (frame : Bytes) : Option Headers := do
  ptrAt frame 0 14
  let etherType ← frame.be16 12
  if etherType = 0x0806 then return .pass
  if etherType ≠ 0x0800 then return .drop
  ptrAt frame 14 20
  let src ← frame.be32 26
  let dst ← frame.be32 30
  let proto ← frame[23]?
  if proto = PROTO_TCP then
    let (srcPort, dstPort) ← portsAt frame 20
    return .tracked ⟨PROTO_TCP, src, dst, srcPort, dstPort⟩
  if proto = PROTO_UDP then
    let (srcPort, dstPort) ← portsAt frame 8
    return .tracked ⟨PROTO_UDP, src, dst, srcPort, dstPort⟩
  if proto = 1 then return .pass
  if proto = PROTO_ESP then return .tracked ⟨PROTO_ESP, src, dst, 0, 0⟩
  return .drop

/-! ## Flows -/

abbrev Endpoint : Type := Ipv4Addr × UInt16

/-- The two ends of a flow, in no order, and its protocol. -/
abbrev Flow : Type := Sym2 Endpoint × UInt8

def Packet.flow (p : Packet) : Flow := (s((p.src, p.srcPort), (p.dst, p.dstPort)), p.proto)

structure CtKey where
  ipA : Ipv4Addr
  ipB : Ipv4Addr
  portA : UInt16
  portB : UInt16
  proto : UInt8
  deriving DecidableEq

/-- `ct_key`: the smaller end first. -/
def ctKey (p : Packet) : CtKey :=
  if p.src < p.dst ∨ p.src = p.dst ∧ p.srcPort ≤ p.dstPort then
    ⟨p.src, p.dst, p.srcPort, p.dstPort, p.proto⟩
  else ⟨p.dst, p.src, p.dstPort, p.srcPort, p.proto⟩

def CtKey.flow (k : CtKey) : Flow := (s((k.ipA, k.portA), (k.ipB, k.portB)), k.proto)

theorem flow_ctKey (p : Packet) : (ctKey p).flow = p.flow := by
  unfold ctKey
  split_ifs
  · rfl
  · exact Prod.ext Sym2.eq_swap rfl

variable {p q : Packet} {w : Watch}

theorem ctKey_of_flow (h : p.flow = q.flow) : ctKey p = ctKey q := by
  obtain ⟨hends, hproto⟩ := Prod.mk.inj h
  rcases Sym2.eq_iff.mp hends with ⟨hs, hd⟩ | ⟨hs, hd⟩
  · obtain ⟨hsrc, hsport⟩ := Prod.mk.inj hs
    obtain ⟨hdst, hdport⟩ := Prod.mk.inj hd
    unfold ctKey
    rw [hsrc, hsport, hdst, hdport, hproto]
  · -- the packets go in opposite directions: one of them has its ends in the order of the key
    obtain ⟨hsrc, hsport⟩ := Prod.mk.inj hs
    obtain ⟨hdst, hdport⟩ := Prod.mk.inj hd
    unfold ctKey
    rw [hsrc, hsport, hdst, hdport, hproto]
    split_ifs with h1 h2 h2
    · have heq : q.dst = q.src ∧ q.dstPort = q.srcPort := by
        rcases h1 with h1 | ⟨h1, h1'⟩
        · rcases h2 with h2 | ⟨h2, -⟩
          · exact absurd h2 (BitVec.lt_asymm h1)
          · exact absurd h1 (h2 ▸ BitVec.lt_irrefl _)
        · rcases h2 with h2 | ⟨-, h2'⟩
          · exact absurd h2 (h1 ▸ BitVec.lt_irrefl _)
          · exact ⟨h1, UInt16.le_antisymm h1' h2'⟩
      rw [heq.1, heq.2]
    · rfl
    · rfl
    · exfalso
      rcases not_or.mp h1 with ⟨h1, h1'⟩
      rcases not_or.mp h2 with ⟨h2, h2'⟩
      have heq : q.dst = q.src := BitVec.le_antisymm (BitVec.not_lt.mp h2) (BitVec.not_lt.mp h1)
      rcases UInt16.le_total q.dstPort q.srcPort with hle | hle
      · exact h1' ⟨heq, hle⟩
      · exact h2' ⟨heq.symm, hle⟩

theorem ctKey_eq_iff : ctKey p = ctKey q ↔ p.flow = q.flow := by
  refine ⟨fun h => ?_, ctKey_of_flow⟩
  rw [← flow_ctKey p, ← flow_ctKey q, h]

/-! ## Decisions -/

def VXLAN_PORT : UInt16 := 47890
def FORWARD_PORT : UInt16 := 9999

/-- `TC_ACT_OK` and `TC_ACT_SHOT`. -/
inductive Action
  | ok
  | shot
  deriving DecidableEq

/-- What is set when the programs are loaded. -/
structure Globals where
  serverIp : Ipv4Addr
  controlPort : UInt16
  egressGateway : UInt8

/-- The globals and the maps; of the entries of a map only the keys matter. -/
structure Firewall where
  globals : Globals
  peers : Finset Ipv4Addr := ∅
  allowPorts : Finset (BitVec 32) := ∅
  ct : Finset CtKey := ∅

/-- `allow_key`: direction, protocol and port in one number. -/
def allowKey (isEgress : Bool) (proto : UInt8) (port : UInt16) : BitVec 32 :=
  (BitVec.ofBool isEgress).setWidth 32 <<< 24 ||| proto.toBitVec.setWidth 32 <<< 16 |||
    port.toBitVec.setWidth 32

namespace Firewall

variable (fw : Firewall)

def isGateway : Bool := fw.globals.egressGateway ≠ 0

def isPeer (ip : Ipv4Addr) : Bool := ip ∈ fw.peers

def isPortAllowed (isEgress : Bool) (proto : UInt8) (port : UInt16) : Bool :=
  allowKey isEgress proto port ∈ fw.allowPorts

def controlPlane (p : Packet) : Bool :=
  p.dst = fw.globals.serverIp && p.dstPort = fw.globals.controlPort ||
    p.src = fw.globals.serverIp && p.srcPort = fw.globals.controlPort

end Firewall

/-- One of the ports is a port of the data plane. -/
def Packet.onFixedPort (p : Packet) : Bool :=
  p.dstPort = VXLAN_PORT || p.srcPort = VXLAN_PORT || p.dstPort = FORWARD_PORT ||
    p.srcPort = FORWARD_PORT

namespace Firewall

variable (fw : Firewall)

def dataPlane (p : Packet) : Bool := p.onFixedPort && (fw.isPeer p.src || fw.isPeer p.dst)

/-- `base_allow`: the decision without the table of flows. -/
def baseAllow (isEgress : Bool) (p : Packet) : Bool :=
  if p.proto = PROTO_TCP && fw.controlPlane p then true
  else if p.proto = PROTO_UDP && fw.dataPlane p then true
  else if p.proto = PROTO_ESP && (fw.isPeer p.src || fw.isPeer p.dst) then true
  else if fw.isGateway && isEgress then true
  else fw.isPortAllowed isEgress p.proto p.dstPort

def ctHit (p : Packet) : Bool := ctKey p ∈ fw.ct

def ctInsert (p : Packet) : Firewall := { fw with ct := insert (ctKey p) fw.ct }

/-- The decision about a packet; what is let through is entered into the table of flows. -/
def decidePacket (isEgress : Bool) (p : Packet) : Action × Firewall :=
  if fw.ctHit p || fw.baseAllow isEgress p then (.ok, fw.ctInsert p) else (.shot, fw)

/-- `try_firewall`; a frame that cannot be read is dropped. -/
def tryFirewall (isEgress : Bool) (frame : Bytes) : Option (Action × Firewall) :=
  (headers frame).map fun
    | .pass => (.ok, fw)
    | .drop => (.shot, fw)
    | .tracked p => fw.decidePacket isEgress p

/-- `nullnet_fw_ingress` and `nullnet_fw_egress`. -/
def classify (isEgress : Bool) (frame : Bytes) : Action × Firewall :=
  (fw.tryFirewall isEgress frame).getD (.shot, fw)

variable {fw} {isEgress : Bool} {frame : Bytes} {p : Packet}

theorem classify_tracked (h : headers frame = some (.tracked p)) :
    fw.classify isEgress frame = fw.decidePacket isEgress p := by
  unfold classify tryFirewall
  rw [h]
  rfl

theorem decidePacket_ok :
    (fw.decidePacket isEgress p).1 = .ok ↔ fw.ctHit p = true ∨ fw.baseAllow isEgress p = true := by
  unfold decidePacket
  split_ifs with h
  · exact ⟨fun _ => Bool.or_eq_true_iff.mp h, fun _ => rfl⟩
  · refine ⟨fun hok => ?_, fun hor => absurd (Bool.or_eq_true_iff.mpr hor) h⟩
    cases hok

theorem classify_untracked (h : ∀ p, headers frame ≠ some (.tracked p)) :
    (fw.classify isEgress frame).2 = fw := by
  unfold classify tryFirewall
  rcases hh : headers frame with - | hd
  · rfl
  · cases hd with
    | pass => rfl
    | drop => rfl
    | tracked p => exact absurd hh (h p)

theorem decidePacket_snd : (fw.decidePacket isEgress p).2 =
      if (fw.decidePacket isEgress p).1 = .ok then fw.ctInsert p else fw := by
  unfold decidePacket
  generalize (fw.ctHit p || fw.baseAllow isEgress p) = allowed
  cases allowed <;> rfl

/-- A packet that is let through leaves the key of its flow, and nothing else does. -/
theorem ct_classify {k : CtKey} (hk : k ∈ (fw.classify isEgress frame).2.ct) :
    k ∈ fw.ct ∨ ∃ p, headers frame = some (.tracked p) ∧ (fw.classify isEgress frame).1 = .ok ∧
      k = ctKey p := by
  by_cases hh : ∃ p, headers frame = some (.tracked p)
  · obtain ⟨p, hh⟩ := hh
    rw [classify_tracked hh] at hk ⊢
    rw [decidePacket_snd] at hk
    split_ifs at hk with hok
    · rcases Finset.mem_insert.mp hk with rfl | hk
      · exact .inr ⟨p, hh, hok, rfl⟩
      · exact .inl hk
    · exact .inl hk
  · rw [classify_untracked (not_exists.mp hh)] at hk
    exact .inl hk

end Firewall

/-! ## Runs -/

/-- A frame, with the tables that it met and what became of it. -/
structure Event where
  before : Firewall
  isEgress : Bool
  frame : Bytes

namespace Event

def action (e : Event) : Action := (e.before.classify e.isEgress e.frame).1

/-- The frame is a packet that was let through. -/
def Accepts (e : Event) (p : Packet) : Prop :=
  headers e.frame = some (.tracked p) ∧ e.action = .ok

/-- The packet was let through for its own sake. -/
def Allows (e : Event) (p : Packet) : Prop :=
  e.Accepts p ∧ e.before.baseAllow e.isEgress p = true

end Event

/-- The firewall, and the frames that it has seen, the last one first. -/
structure Watch where
  fw : Firewall
  log : List Event

inductive Step
  | frame (isEgress : Bool) (frame : Bytes)
  | update (globals : Globals) (peers : Finset Ipv4Addr) (allowPorts : Finset (BitVec 32))
  | evict (keys : Finset CtKey)

def step (w : Watch) : Step → Option Watch
  | .frame isEgress frame =>
    some ⟨(w.fw.classify isEgress frame).2, ⟨w.fw, isEgress, frame⟩ :: w.log⟩
  | .update globals peers allowPorts =>
    some { w with fw := { w.fw with globals, peers, allowPorts } }
  | .evict keys => some { w with fw := { w.fw with ct := w.fw.ct \ keys } }

/-- The programs are loaded with an empty table of flows. -/
def loaded (globals : Globals) : Watch := ⟨{ globals }, []⟩

/-- One of the frames allowed a packet of the flow. -/
def Vouched (log : List Event) (f : Flow) : Prop := ∃ e ∈ log, ∃ p, e.Allows p ∧ p.flow = f

/-- Every key in the table comes from a packet that was allowed, and so does every packet that was let
through. -/
structure Sound (w : Watch) : Prop where
  table : ∀ k ∈ w.fw.ct, Vouched w.log k.flow
  log : ∀ later e earlier p, w.log = later ++ e :: earlier → e.Accepts p →
    Vouched (e :: earlier) p.flow

theorem Vouched.cons {log : List Event} {f : Flow} (h : Vouched log f) (e : Event) :
    Vouched (e :: log) f := by
  obtain ⟨e', he', hp⟩ := h
  exact ⟨e', .tail e he', hp⟩

theorem vouched_of_accepts (h : Sound w) {e : Event} (he : e.before = w.fw)
    (hp : e.Accepts p) : Vouched (e :: w.log) p.flow := by
  have hok : (e.before.decidePacket e.isEgress p).1 = .ok := by
    rw [← Firewall.classify_tracked hp.1]
    exact hp.2
  rcases Firewall.decidePacket_ok.mp hok with hhit | hallow
  · have hmem : ctKey p ∈ w.fw.ct := he ▸ of_decide_eq_true hhit
    rw [← flow_ctKey]
    exact (h.table _ hmem).cons e
  · exact ⟨e, List.mem_cons_self, p, ⟨hp, hallow⟩, rfl⟩

theorem Sound.step {w' : Watch} (h : Sound w) {a : Step} (hs : step w a = some w') : Sound w' := by
  cases a with
  | update globals peers allowPorts => cases hs; exact ⟨h.table, h.log⟩
  | evict keys =>
    cases hs
    exact ⟨fun k hk => h.table k (Finset.mem_sdiff.mp hk).1, h.log⟩
  | frame isEgress frame =>
    cases hs
    refine ⟨fun k hk => ?_, fun later e earlier p hlog hp => ?_⟩
    · rcases Firewall.ct_classify hk with hk | ⟨p, hh, hok, rfl⟩
      · exact (h.table k hk).cons _
      · rw [flow_ctKey]
        exact vouched_of_accepts h rfl ⟨hh, hok⟩
    · cases later with
      | nil =>
        cases hlog
        exact vouched_of_accepts h rfl hp
      | cons _ later => exact h.log later e earlier p (List.cons.inj hlog).2 hp

/-- **Packets are let through for their flow**: a packet of TCP, UDP or ESP that is let through
belongs to a flow of which this packet or an earlier one was allowed by the tables of its time, and the
table of flows tells flows apart, whatever their direction. -/
theorem flows_vouched :
    (∀ globals w, Reach step anyStep (loaded globals) w → ∀ later e earlier p,
      w.log = later ++ e :: earlier → e.Accepts p → Vouched (e :: earlier) p.flow) ∧
    ∀ p q, ctKey p = ctKey q ↔ p.flow = q.flow := by
  refine ⟨fun globals w h => ?_, fun p q => ctKey_eq_iff⟩
  have hsound : Sound w := h.invariant Sound
    ⟨fun k hk => absurd hk (Finset.notMem_empty k), fun later e earlier p hlog => ?_⟩
    fun _ _ _ hs _ hst => hs.step hst
  · exact hsound.log
  · cases later <;> cases hlog

/-! ## A reply to a peer that has gone -/

/-- An IPv4 frame; `rest` is what follows the 20 bytes of the header that every packet has. -/
def ipv4Frame (ihl : UInt8) (total fragment : UInt16) (proto : UInt8) (src dst : Ipv4Addr)
    (rest : Bytes) : Bytes :=
  [0, 0, 0, 0, 0, 0, 0, 0, 0, 0, 0, 0, 8, 0, 64 + ihl, 0] ++ Bytes.ofBE16 total ++ [0, 0] ++
    Bytes.ofBE16 fragment ++ [64, proto, 0, 0] ++ Bytes.ofBE32 src ++ Bytes.ofBE32 dst ++ rest

example : headers (ipv4Frame 5 28 0 17 0x0a000001#32 0x0a000002#32 [0, 53, 1, 187, 0, 8, 0, 0]) =
    some (.tracked ⟨PROTO_UDP, 0x0a000001#32, 0x0a000002#32, 53, 443⟩) := by decide +kernel

/-- The reply to a packet of the data plane passes although the other host is no peer any more: the
table vouches for it. -/
theorem flows_vouched_reply : ∃ w e earlier p, Reach step anyStep (loaded ⟨0, 0, 0⟩) w ∧
    w.log = [] ++ e :: earlier ∧ e.Accepts p ∧ e.before.baseAllow e.isEgress p = false ∧
      Vouched (e :: earlier) p.flow := by
  let there := ipv4Frame 5 28 0 17 1#32 2#32 [187, 18, 187, 18, 0, 8, 0, 0]
  let back := ipv4Frame 5 28 0 17 2#32 1#32 [187, 18, 187, 18, 0, 8, 0, 0]
  let before : Firewall := { globals := ⟨0, 0, 0⟩, peers := {2#32} }
  let after (x : Bytes) : Firewall :=
    { (before.classify true x).2 with globals := ⟨0, 0, 0⟩, peers := ∅, allowPorts := ∅ }
  -- for any frames, so that none of them is evaluated here
  have hrun : ∀ x y : Bytes, run step (loaded ⟨0, 0, 0⟩) [.update ⟨0, 0, 0⟩ {2#32} ∅, .frame true x,
      .update ⟨0, 0, 0⟩ ∅ ∅, .frame false y] =
    some ⟨((after x).classify false y).2, [⟨after x, false, y⟩, ⟨before, true, x⟩]⟩ := fun _ _ => rfl
  have hp : Event.Accepts ⟨after there, false, back⟩
      ⟨PROTO_UDP, 2#32, 1#32, VXLAN_PORT, VXLAN_PORT⟩ := ⟨by decide +kernel, by decide +kernel⟩
  have hreach := reach_of_run (hrun there back)
  exact ⟨_, _, _, _, hreach, rfl, hp, by decide +kernel, flows_vouched.1 _ _ hreach [] _ _ _ rfl hp⟩

end Nullnet.Ebpf
