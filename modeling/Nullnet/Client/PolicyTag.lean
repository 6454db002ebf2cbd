import Nullnet.Client.PolicySetup

/-! # The generation in the metadata of a tunnel

A packet carries the network id, the mark of its transport and an option word through the tunnel. The
ids are reused, so that it is the generation that tells two edges with one id apart. Of its 40 bits the
option word has the upper 16 (`optionOf`); the other 24 are in none of the fields, and the receiver does
not look for them. -/

namespace Nullnet.Client.Policy

open Nullnet.Server (Ipv4Addr)
open Nullnet.Ebpf.Policy
open Nullnet.Lib

/-! ## Both ends of an edge -/

/-- The packet at the other end of the tunnel, with its metadata intact; what was the local address of
the tunnel is the remote one there. -/
def received (out : Redirect) (frame : Bytes) (ifindex : BitVec 32) : Option Skb :=
  out.tunnel.map fun (key, option) =>
    { frame, ifindex, mark := out.mark
      tunnel := some { key with remoteIpv4 := key.localIpv4, localIpv4 := key.remoteIpv4 }
      option := some option }

/-- Two ends with one network id and one transport. -/
structure Opposite (sender receiver : Placed) : Prop where
  vxlanId : receiver.message.vxlanId = sender.message.vxlanId
  transport : receiver.transport.id = sender.transport.id
  localHost : receiver.localHost = sender.remoteHost
  remoteHost : receiver.remoteHost = sender.localHost

theorem generation_of_place {ready : Bool} {m : Server.VxlanSetup} {output : Attachment} {carrier : BitVec 32}
    {p : Placed} (h : place ready m output carrier = some p) :
    p.transport.generation ≠ 0 ∧ p.transport.generation < 2 ^ 40 := by
  simp only [place, Option.bind_eq_bind, Option.bind_eq_some_iff] at h
  obtain ⟨⟨t, a, b⟩, ht, ⟨x, y⟩, -, hp⟩ := h
  cases hp
  have hok : checkSetup ready m = .ok (t, a, b) := by
    cases hc : checkSetup ready m with
    | error e => rw [hc] at ht; cases ht
    | ok r => rw [hc] at ht; exact congrArg Except.ok (Option.some.inj ht)
  obtain ⟨-, h0, hmax, -⟩ := of_checkSetup hok
  exact ⟨h0, Nat.lt_of_le_of_lt hmax (by decide)⟩

/-! ## The option word -/

variable {g : ℕ} {k : Helpers} {skb : Skb} {out : Redirect}

theorem toNat_shifted (h : g < 2 ^ 40) :
    ((BitVec.ofNat 64 g) >>> 24).toNat = g / 2 ^ 24 := by
  rw [BitVec.toNat_ushiftRight, BitVec.toNat_ofNat, Nat.shiftRight_eq_div_pow,
    Nat.mod_eq_of_lt (Nat.lt_trans h (by decide))]

theorem optionOf_low (h : g < 2 ^ 40) :
    ((optionOf (.ofNat 64 g) &&& 0xffff#32).setWidth 64).toNat = g / 2 ^ 24 := by
  have hhigh : g / 2 ^ 24 < 2 ^ 16 := by omega
  have hflag : (1#32 <<< 22).toNat = 2 ^ 22 := by decide
  have hmask : (0xffff#32).toNat = 2 ^ 16 - 1 := by decide
  rw [optionOf, BitVec.toNat_setWidth, BitVec.toNat_and, BitVec.toNat_or, BitVec.toNat_setWidth,
    toNat_shifted h, hflag, hmask, Nat.and_two_pow_sub_one_eq_mod, Nat.or_mod_two_pow,
    show 2 ^ 22 % 2 ^ 16 = 0 from rfl, Nat.or_zero]
  omega

/-- Only a packet for another host gets metadata, and they are those of the rule. -/
theorem tunnel_of_sendOut {x : Match} {key : TunnelKey}
    {option : BitVec 32} (h : sendOut k skb x = some out) (ht : out.tunnel = some (key, option)) :
    key = tunnelOf x.rule ∧ option = optionOf x.rule.generation ∧ out.mark = x.rule.mark := by
  simp only [sendOut, Option.bind_eq_bind, Option.bind_eq_some_iff] at h
  obtain ⟨frame, -, h⟩ := h
  split_ifs at h
  · simp only [Option.bind_eq_some_iff] at h
    obtain ⟨_, -, _, -, h⟩ := h
    cases h
    cases ht
  · cases h
    cases ht
    exact ⟨rfl, rfl, rfl⟩

theorem metadataOk_iff {sender receiver : Placed} (hopp : Opposite sender receiver)
    (hs : sender.transport.generation < 2 ^ 40) (hr : receiver.transport.generation < 2 ^ 40)
    {enabled : BitVec 32} {len : ℕ} {proto : UInt8}
    (hout : sendOut k skb ⟨{ sender.rule with enabled }, len, proto⟩ = some out) {frame : Bytes}
    {ifindex : BitVec 32} {arrived : Skb} (harrived : received out frame ifindex = some arrived) :
    metadataOk receiver.rule arrived = true ↔
      sender.transport.generation / 2 ^ 24 = receiver.transport.generation / 2 ^ 24 := by
  obtain ⟨⟨key, option⟩, ht, rfl⟩ := Option.map_eq_some_iff.mp harrived
  obtain ⟨rfl, rfl, hmark⟩ := tunnel_of_sendOut hout ht
  have hmark' : out.mark = receiver.rule.mark := by
    rw [hmark]
    simp only [Placed.rule, hopp.transport]
  have hremote : sender.rule.underlayLocal = receiver.rule.underlayRemote := hopp.remoteHost.symm
  have hvni : sender.rule.vni = receiver.rule.vni := by simp only [Placed.rule, hopp.vxlanId]
  have hlow : ((optionOf sender.rule.generation &&& 0xffff#32).setWidth 64).toNat =
      sender.transport.generation / 2 ^ 24 := optionOf_low hs
  have hhigh : (receiver.rule.generation >>> 24).toNat = receiver.transport.generation / 2 ^ 24 :=
    toNat_shifted hr
  simp only [metadataOk, tunnelOf, hmark', hremote, hvni, decide_true, Bool.true_and,
    decide_eq_true_eq]
  rw [← BitVec.toNat_inj, hlow, hhigh]

/-- **The generation tag.** That the metadata of a packet are accepted says that the generations are
the same exactly if they do not differ in the lower 24 bits alone. -/
theorem generation_tag_iff {ready ready' : Bool} {m m' : Server.VxlanSetup} {output output' : Attachment}
    {carrier carrier' : BitVec 32} {sender receiver : Placed}
    (hs : place ready m output carrier = some sender)
    (hr : place ready' m' output' carrier' = some receiver) (hopp : Opposite sender receiver)
    {enabled : BitVec 32} {k : Helpers} {skb : Skb} {len : ℕ} {proto : UInt8} {out : Redirect}
    (hout : sendOut k skb ⟨{ sender.rule with enabled }, len, proto⟩ = some out) {frame : Bytes}
    {ifindex : BitVec 32} {arrived : Skb} (harrived : received out frame ifindex = some arrived) :
    (metadataOk receiver.rule arrived = true →
      receiver.transport.generation = sender.transport.generation) ↔
    (sender.transport.generation / 2 ^ 24 = receiver.transport.generation / 2 ^ 24 →
      sender.transport.generation % 2 ^ 24 = receiver.transport.generation % 2 ^ 24) := by
  rw [metadataOk_iff hopp (generation_of_place hs).2 (generation_of_place hr).2 hout harrived]
  refine forall_congr' fun hhigh => ?_
  omega

/-! ## Generations that are taken for one another -/

/-- The message for an end of network 101 between the hosts 1 and 2. -/
def message (side : String) (a b : Ipv4Addr) (generation : ℕ) : Server.VxlanSetup :=
  { msgId := "", vxlanId := 101, nsName := "ns_101_" ++ side, nsNet := ⟨0, 29⟩, brName := "",
    brNet := ⟨0, 29⟩, localIp := .v4 a, remoteIp := .v4 b, hostMapping := none,
    dockerContainer := none, dnatPort := none, encryptionKey := [], dstport := 4791,
    egressSteer := none, egressIntercept := none, encrypted := true,
    groupTransport := some ⟨0x200065, [], false, generation, 1⟩, xfrmTransportId := none }

/-- The end of the client, and the end of the server. -/
def clientEnd (generation : ℕ) : Placed :=
  ⟨message "c" 1#32 2#32 generation, ⟨0x200065, [], false, generation, 1⟩, 1#32, 2#32, 167772972#32,
    167772970#32, ⟨7, []⟩, 9⟩

def serverEnd (generation : ℕ) : Placed :=
  ⟨message "s" 2#32 1#32 generation, ⟨0x200065, [], false, generation, 1⟩, 2#32, 1#32, 167772970#32,
    167772972#32, ⟨7, []⟩, 9⟩

/-- Helpers that always succeed, and leave checksums alone. -/
def helpers : Helpers := ⟨0, fun frame _ _ _ => some frame, fun frame _ _ _ => some frame, true, true⟩

theorem opposite_ends (g g' : ℕ) : Opposite (clientEnd g) (serverEnd g') := ⟨rfl, rfl, rfl, rfl⟩

/-- A packet sent under generation 1 is accepted under generation 2. -/
theorem generation_taken_for_another : ∃ sender receiver out arrived,
    place true (message "c" 1#32 2#32 1) ⟨7, []⟩ 9 = some sender ∧
    place true (message "s" 2#32 1#32 2) ⟨7, []⟩ 9 = some receiver ∧ Opposite sender receiver ∧
    sendOut helpers { frame := List.replicate 34 0, ifindex := 7 }
      ⟨{ sender.rule with enabled := 1 }, 20, 1⟩ = some out ∧
    received out [] 9 = some arrived ∧ metadataOk receiver.rule arrived = true ∧
    receiver.transport.generation ≠ sender.transport.generation := by
  obtain ⟨out, hout, arrived, harrived, hok⟩ : ∃ out, sendOut helpers
      { frame := List.replicate 34 0, ifindex := 7 } ⟨{ (clientEnd 1).rule with enabled := 1 }, 20, 1⟩ =
        some out ∧ ∃ arrived, received out [] 9 = some arrived ∧
          metadataOk (serverEnd 2).rule arrived = true := by decide +kernel
  exact ⟨clientEnd 1, serverEnd 2, out, arrived, rfl, rfl, opposite_ends 1 2, hout, harrived, hok,
    by decide⟩

/-- Generations that differ in the upper part are told apart. -/
theorem generation_tag_upper : ∃ out arrived,
    sendOut helpers { frame := List.replicate 34 0, ifindex := 7 }
      ⟨{ (clientEnd 1).rule with enabled := 1 }, 20, 1⟩ = some out ∧
    received out [] 9 = some arrived ∧
    (metadataOk (serverEnd (2 ^ 24)).rule arrived = true →
      (serverEnd (2 ^ 24)).transport.generation = (clientEnd 1).transport.generation) := by
  obtain ⟨out, hout, arrived, harrived, -⟩ : ∃ out, sendOut helpers
      { frame := List.replicate 34 0, ifindex := 7 } ⟨{ (clientEnd 1).rule with enabled := 1 }, 20, 1⟩ =
        some out ∧ ∃ arrived, received out [] 9 = some arrived ∧ True := by decide +kernel
  have hclient : place true (message "c" 1#32 2#32 1) ⟨7, []⟩ 9 = some (clientEnd 1) := rfl
  have hserver : place true (message "s" 2#32 1#32 (2 ^ 24)) ⟨7, []⟩ 9 =
      some (serverEnd (2 ^ 24)) := rfl
  refine ⟨out, arrived, hout, harrived,
    (generation_tag_iff hclient hserver (opposite_ends _ _) hout harrived).mpr fun hhigh => ?_⟩
  exact absurd hhigh (by decide)

end Nullnet.Client.Policy
