import Mathlib.Order.CompletePartialOrder
import Nullnet.Client.PolicySetup

/-! # The overlay address plan

An id of the pool has a block of addresses of its own in `10.0.0.0/8` (`block`). The server puts together
the bytes of the addresses, the client adds to the number of the block; both arrive at the same
addresses of the block (`overlayAddr`). -/

namespace Nullnet.Client.Policy

open Nullnet.Server

/-! ## Blocks -/

def blockSize : Net → ℕ
  | .vlan => 4
  | .vxlan => 8

/-- The addresses of an id. -/
def block (net : Net) (id : ℕ) : Set Ipv4Addr :=
  {x | x.toNat / blockSize net = 10 * 2 ^ 24 / blockSize net + id}

/-- `10.0.0.0/8`. -/
def overlay : Set Ipv4Addr := {x | x.toNat / 2 ^ 24 = 10}

/-- The addresses with the same bits under the mask. -/
def networkAddresses (n : Server.Ipv4Network) : Set Ipv4Addr :=
  {x | x.toNat / 2 ^ (32 - n.bits) = n.ip.toNat / 2 ^ (32 - n.bits)}

/-- The address at a place of a block. -/
def overlayAddr (net : Net) (id k : ℕ) : Ipv4Addr := .ofNat 32 (10 * 2 ^ 24 + id * blockSize net + k)

section

variable {net : Net} {id id' k k' : ℕ}

theorem blocks_disjoint (h : id ≠ id') : Disjoint (block net id) (block net id') := by
  refine Set.disjoint_left.mpr fun x hx hx' => h ?_
  have := hx.symm.trans hx'
  omega

theorem offset_lt (h : InRange net id) (hk : k < blockSize net) : id * blockSize net + k < 2 ^ 24 := by
  obtain ⟨-, hmax⟩ := h
  cases net with
  | vlan | vxlan => simp only [Server.MAX_NET_ID, blockSize] at *; omega

theorem block_subset (h : InRange net id) : block net id ⊆ overlay := by
  intro x hx
  have hlast := offset_lt (k := blockSize net - 1) h (by cases net <;> decide)
  cases net with
  | vlan | vxlan => simp only [block, overlay, blockSize, Set.mem_ofPred_eq] at *; omega

theorem toNat_overlayAddr (h : InRange net id) (hk : k < blockSize net) :
    (overlayAddr net id k).toNat = 10 * 2 ^ 24 + id * blockSize net + k := by
  have := offset_lt h hk
  exact Nat.mod_eq_of_lt (by omega)

theorem overlayAddr_mem (h : InRange net id) (hk : k < blockSize net) :
    overlayAddr net id k ∈ block net id := by
  change (overlayAddr net id k).toNat / _ = _
  rw [toNat_overlayAddr h hk]
  cases net with
  | vlan => simp only [blockSize] at *; omega
  | vxlan => simp only [blockSize] at *; omega

theorem overlayAddr_ne (h : InRange net id) (hk : k < blockSize net) (hk' : k' < blockSize net)
    (hne : k ≠ k') : overlayAddr net id k ≠ overlayAddr net id k' := by
  intro heq
  have := congrArg BitVec.toNat heq
  rw [toNat_overlayAddr h hk, toNat_overlayAddr h hk'] at this
  omega

/-- A network with a mask of 29 bits around an address of a block is the block. -/
theorem networkAddresses_overlayAddr (h : InRange .vxlan id) (hk : k < 8) :
    networkAddresses ⟨overlayAddr .vxlan id k, 29⟩ = block .vxlan id := by
  ext x
  change x.toNat / 2 ^ 3 = (overlayAddr .vxlan id k).toNat / 2 ^ 3 ↔ x.toNat / 8 = _
  rw [toNat_overlayAddr h hk]
  simp only [blockSize]
  omega

/-! ## What the server sends -/

theorem new_eq {offset k : ℕ} (h : offset < 2 ^ 24) :
    Ipv4Addr.new 10 (offset / 2 ^ 16 % 2 ^ 8) (offset / 2 ^ 8 % 2 ^ 8) (offset % 2 ^ 8 + k) =
      .ofNat 32 (10 * 2 ^ 24 + offset + k) := by
  unfold Ipv4Addr.new
  congr 1
  omega

theorem new_overlayAddr (h : InRange net id) (k : ℕ) :
    Ipv4Addr.new 10 (id * blockSize net / 2 ^ 16 % 2 ^ 8) (id * blockSize net / 2 ^ 8 % 2 ^ 8)
      (id * blockSize net % 2 ^ 8 + k) = overlayAddr net id k :=
  new_eq (offset_lt (k := 0) h (by cases net <;> decide))

end

variable {id : ℕ} {m : Server.VxlanSetup}

theorem u8_offset {net : Net} {k : ℕ} (hk : k < blockSize net) :
    u8 (id * blockSize net % 2 ^ 8 + k) = some (id * blockSize net % 2 ^ 8 + k) := by
  refine u8_of_lt ?_
  cases net with
  | vlan => simp only [blockSize] at *; omega
  | vxlan => simp only [blockSize] at *; omega

theorem u32_offset {net : Net} (h : InRange net id) :
    u32 (id * blockSize net) = some (id * blockSize net) :=
  u32_of_lt (Nat.lt_trans (offset_lt (k := 0) h (by cases net <;> decide)) (by decide))

theorem vlanEdge_eq (e : EdgeSetup) (h : InRange .vlan id) :
    ∃ server client, vlanEdge e id = some (server, client) ∧
      server.1 = overlayAddr .vlan id 1 ∧ client.1 = overlayAddr .vlan id 2 ∧
      server.2.localVeth = server.1 ∧ server.2.remoteVeth = client.1 ∧
      client.2.localVeth = client.1 ∧ client.2.remoteVeth = server.1 ∧
      client.2.hostMapping = some ⟨server.1.text, e.serverName⟩ := by
  have hoff : u32 (id * 4) = some (id * 4) := u32_offset h
  have h1 : u8 (id * 4 % 2 ^ 8 + 1) = some (id * 4 % 2 ^ 8 + 1) :=
    u8_offset (show 1 < blockSize .vlan by decide)
  have h2 : u8 (id * 4 % 2 ^ 8 + 2) = some (id * 4 % 2 ^ 8 + 2) :=
    u8_offset (show 2 < blockSize .vlan by decide)
  simp only [vlanEdge, vlanSetup, hoff, h1, h2, Option.bind_eq_bind, Option.bind_some, Option.pure_def]
  refine ⟨_, _, rfl, new_overlayAddr h 1, new_overlayAddr h 2, rfl, rfl, rfl, rfl, rfl⟩

/-- What the messages of an edge over a VXLAN say about addresses. -/
structure VxlanPlan (e : EdgeSetup) (id : ℕ) (server client : Ipv4Addr × Server.VxlanSetup) : Prop where
  serverNs : server.2.nsNet = ⟨overlayAddr .vxlan id 1, 29⟩
  serverBr : server.2.brNet = ⟨overlayAddr .vxlan id 2, 29⟩
  clientNs : client.2.nsNet = ⟨overlayAddr .vxlan id 3, 29⟩
  clientBr : client.2.brNet = ⟨overlayAddr .vxlan id 4, 29⟩
  serverIp : server.1 = overlayAddr .vxlan id (if e.serverDocker.isSome then 1 else 2)
  clientIp : client.1 = overlayAddr .vxlan id (if e.clientDocker.isSome then 3 else 4)
  hostMapping : client.2.hostMapping = some ⟨server.1.text, e.serverName⟩

theorem vxlanEdge_eq (e : EdgeSetup) (h : InRange .vxlan id) :
    ∃ server client, vxlanEdge e id = some (server, client) ∧ VxlanPlan e id server client ∧
      server.2.vxlanId = id ∧ client.2.vxlanId = id ∧
      server.2.nsName = "ns_" ++ toString id ++ "_" ++ "s" ∧
      client.2.nsName = "ns_" ++ toString id ++ "_" ++ "c" ∧
      server.2.dockerContainer = e.serverDocker ∧ client.2.dockerContainer = e.clientDocker ∧
      server.2.groupTransport =
        e.groupTransport.map (fun t => { t with peerContainer := e.clientDocker.isSome }) ∧
      client.2.groupTransport =
        e.groupTransport.map (fun t => { t with peerContainer := e.serverDocker.isSome }) := by
  have hoff : u32 (id * 8) = some (id * 8) := u32_offset h
  have h1 : u8 (id * 8 % 2 ^ 8 + 1) = some (id * 8 % 2 ^ 8 + 1) :=
    u8_offset (show 1 < blockSize .vxlan by decide)
  have h2 : u8 (id * 8 % 2 ^ 8 + 2) = some (id * 8 % 2 ^ 8 + 2) :=
    u8_offset (show 2 < blockSize .vxlan by decide)
  have h3 : u8 (id * 8 % 2 ^ 8 + 3) = some (id * 8 % 2 ^ 8 + 3) :=
    u8_offset (show 3 < blockSize .vxlan by decide)
  have h4 : u8 (id * 8 % 2 ^ 8 + 4) = some (id * 8 % 2 ^ 8 + 4) :=
    u8_offset (show 4 < blockSize .vxlan by decide)
  have hnew : ∀ k, Ipv4Addr.new 10 (id * 8 / 2 ^ 16 % 2 ^ 8) (id * 8 / 2 ^ 8 % 2 ^ 8)
      (id * 8 % 2 ^ 8 + k) = overlayAddr .vxlan id k :=
    fun k => new_overlayAddr h k
  simp only [vxlanEdge, vxlanSetup, hoff, h1, h2, h3, h4, hnew, Option.bind_eq_bind, Option.bind_some,
    Option.pure_def, Option.isSome_none, Option.isSome_some, if_true, Bool.false_eq_true, if_false,
    Option.map_some]
  refine ⟨_, _, rfl, ⟨rfl, rfl, rfl, rfl, ?_, ?_, rfl⟩, rfl, rfl, rfl, rfl, rfl, rfl, rfl, rfl⟩
  · cases e.serverDocker <;> rfl
  · cases e.clientDocker <;> rfl

/-! ## What the client makes of it -/

theorem isClientSide_client
    (h : m.nsName = "ns_" ++ toString id ++ "_" ++ "c") : isClientSide m = true := by
  unfold isClientSide
  rw [h, List.isSuffixOf_iff_suffix]
  exact ⟨("ns_" ++ toString id).toList, by simp⟩

theorem isClientSide_server
    (h : m.nsName = "ns_" ++ toString id ++ "_" ++ "s") : isClientSide m = false := by
  unfold isClientSide
  rw [h, Bool.eq_false_iff, ne_eq, List.isSuffixOf_iff_suffix]
  rintro ⟨l, hl⟩
  have hlast := congrArg List.getLast? hl
  rw [List.getLast?_append, String.toList_append, List.getLast?_append] at hlast
  change some 'c' = some 's' at hlast
  exact absurd hlast (by decide)

theorem overlayAddresses_eq {t : GroupTransport} (h : InRange .vxlan id) (hid : m.vxlanId = id) :
    overlayAddresses m t = some (overlayAddr .vxlan id
          ((if isClientSide m then 3 else 1) + if m.dockerContainer.isNone then 1 else 0),
        overlayAddr .vxlan id
          ((if isClientSide m then 1 else 3) + if t.peerContainer then 0 else 1)) := by
  have hlast : id * 8 + 7 < 2 ^ 24 := offset_lt h (show 7 < blockSize .vxlan by decide)
  have hblock : u32 (10 * 2 ^ 24 + id * 8) = some (10 * 2 ^ 24 + id * 8) := u32_of_lt (by omega)
  have hplace : ∀ a b, a ≤ 3 → b ≤ 1 → u32 (10 * 2 ^ 24 + id * 8 + a + b) =
      some (10 * 2 ^ 24 + id * 8 + a + b) := fun a b ha hb => u32_of_lt (by omega)
  have hoff : u32 (m.vxlanId * 8) = some (id * 8) := by rw [hid]; exact u32_offset h
  unfold overlayAddresses
  simp only [hoff, hblock, Option.bind_eq_bind, Option.bind_some]
  rw [hplace _ _ (by split_ifs <;> omega) (by split_ifs <;> omega),
    hplace _ _ (by split_ifs <;> omega) (by split_ifs <;> omega)]
  simp only [overlayAddr, blockSize, Option.bind_some, Option.pure_def, Nat.add_assoc]

/-- **The overlay address plan**: blocks of different ids are disjoint and in the overlay, the
addresses of an edge are different addresses of its block, none of the computations overflows, and for
edges of permission groups the client computes the addresses that the server reports for the two sides
and enters into the host mapping. -/
theorem overlay_address_plan :
    (∀ net id id', id ≠ id' → Disjoint (block net id) (block net id')) ∧
    (∀ net id, InRange net id → block net id ⊆ overlay) ∧
    (∀ e id, InRange .vlan id → ∃ server client, vlanEdge e id = some (server, client) ∧
      server.2.localVeth = server.1 ∧ server.2.remoteVeth = client.1 ∧
      client.2.localVeth = client.1 ∧ client.2.remoteVeth = server.1 ∧
      client.2.hostMapping = some ⟨server.1.text, e.serverName⟩ ∧
      server.1 ≠ client.1 ∧ server.1 ∈ block .vlan id ∧ client.1 ∈ block .vlan id) ∧
    ∀ e id, InRange .vxlan id → ∃ server client, vxlanEdge e id = some (server, client) ∧
      (∀ n ∈ [server.2.nsNet, server.2.brNet, client.2.nsNet, client.2.brNet],
        networkAddresses n = block .vxlan id ∧ n.ip ∈ block .vxlan id) ∧
      [server.2.nsNet.ip, server.2.brNet.ip, client.2.nsNet.ip, client.2.brNet.ip].Nodup ∧
      client.2.hostMapping = some ⟨server.1.text, e.serverName⟩ ∧
      (∀ t, server.2.groupTransport = some t →
        overlayAddresses server.2 t = some (server.1, client.1)) ∧
      ∀ t, client.2.groupTransport = some t →
        overlayAddresses client.2 t = some (client.1, server.1) := by
  refine ⟨fun net id id' => blocks_disjoint, fun net id => block_subset, fun e id h => ?_,
    fun e id h => ?_⟩
  · obtain ⟨server, client, he, hs, hc, h₁, h₂, h₃, h₄, hm⟩ := vlanEdge_eq e h
    refine ⟨server, client, he, h₁, h₂, h₃, h₄, hm, ?_, ?_, ?_⟩
    · rw [hs, hc]
      exact overlayAddr_ne h (by decide) (by decide) (by decide)
    · rw [hs]
      exact overlayAddr_mem h (by decide)
    · rw [hc]
      exact overlayAddr_mem h (by decide)
  · obtain ⟨server, client, he, hplan, hsid, hcid, hsname, hcname, hsdocker, hcdocker, hst, hct⟩ :=
      vxlanEdge_eq e h
    have hblock : ∀ k < 8, networkAddresses ⟨overlayAddr .vxlan id k, 29⟩ = block .vxlan id ∧
        overlayAddr .vxlan id k ∈ block .vxlan id :=
      fun k hk => ⟨networkAddresses_overlayAddr h hk, overlayAddr_mem h hk⟩
    refine ⟨server, client, he, ?_, ?_, hplan.hostMapping, fun t ht => ?_, fun t ht => ?_⟩
    · rw [hplan.serverNs, hplan.serverBr, hplan.clientNs, hplan.clientBr]
      simp only [List.forall_mem_cons, List.not_mem_nil, false_imp_iff, implies_true, and_true]
      exact ⟨hblock 1 (by decide), hblock 2 (by decide), hblock 3 (by decide), hblock 4 (by decide)⟩
    · rw [hplan.serverNs, hplan.serverBr, hplan.clientNs, hplan.clientBr]
      have hplaces : [1, 2, 3, 4].Nodup := by decide
      have hlt : ∀ k ∈ [1, 2, 3, 4], k < blockSize .vxlan := by decide
      refine List.Nodup.map_on (f := overlayAddr .vxlan id) (fun a ha b hb heq => ?_) hplaces
      by_contra hne
      exact overlayAddr_ne h (hlt a ha) (hlt b hb) hne heq
    · obtain ⟨t₀, -, rfl⟩ := Option.map_eq_some_iff.mp (hst.symm.trans ht)
      rw [overlayAddresses_eq h hsid, isClientSide_server hsname, hsdocker, hplan.serverIp,
        hplan.clientIp]
      cases e.serverDocker <;> cases e.clientDocker <;> rfl
    · obtain ⟨t₀, -, rfl⟩ := Option.map_eq_some_iff.mp (hct.symm.trans ht)
      rw [overlayAddresses_eq h hcid, isClientSide_client hcname, hcdocker, hplan.serverIp,
        hplan.clientIp]
      cases e.serverDocker <;> cases e.clientDocker <;> rfl

end Nullnet.Client.Policy
