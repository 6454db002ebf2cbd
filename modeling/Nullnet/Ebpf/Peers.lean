import Nullnet.Lib.Dict
import Nullnet.Ebpf.Firewall

/-! # The peers of the firewall

The client enters the hosts at the other end of its edges into the map of peers. Several edges can lead
to one host; a count says how many, and the host leaves the map with the last of them (`Counts`). So the
tables do not allow packets of the data plane to or from a host without edges. The table of flows is
not touched when a host leaves: what was let through before keeps passing. -/

namespace Nullnet.Ebpf

open Nullnet.Lib
open Nullnet.Server (Ipv4Addr)

inductive NetId
  | vlan (id : UInt16)
  | vxlan (id : UInt32)
  deriving DecidableEq

/-- The number of entries that the map of peers can hold. -/
def MAX_PEERS : ℕ := 4096

/-- The map of peers, how many edges lead to a host, and where each edge leads. -/
structure PeerInner where
  map : Finset Ipv4Addr := ∅
  refcounts : Dict Ipv4Addr ℕ := ∅
  byId : Dict NetId Ipv4Addr := ∅

namespace PeerInner

/-- A map that is full does not take another entry. -/
def mapInsert (map : Finset Ipv4Addr) (key : Ipv4Addr) : Finset Ipv4Addr :=
  if key ∈ map ∨ map.card < MAX_PEERS then insert key map else map

def incr (inner : PeerInner) (key : Ipv4Addr) : PeerInner :=
  let count := (inner.refcounts.lookup key).getD 0 + 1
  { inner with
    refcounts := inner.refcounts.insert key count
    map := if count = 1 then mapInsert inner.map key else inner.map }

def decr (inner : PeerInner) (key : Ipv4Addr) : PeerInner :=
  match inner.refcounts.lookup key with
  | none => inner
  | some count =>
    if count - 1 = 0 then
      { inner with refcounts := inner.refcounts.erase key, map := inner.map.erase key }
    else { inner with refcounts := inner.refcounts.insert key (count - 1) }

/-- `FirewallPeers::add`: an edge that leads to another host now takes its count along. -/
def add (inner : PeerInner) (id : NetId) (peer : Ipv4Addr) : PeerInner :=
  let entered := { inner with byId := inner.byId.insert id peer }
  match inner.byId.lookup id with
  | some old => if old = peer then entered else (entered.decr old).incr peer
  | none => entered.incr peer

def remove (inner : PeerInner) (id : NetId) : PeerInner :=
  match inner.byId.lookup id with
  | some key => { inner with byId := inner.byId.erase id }.decr key
  | none => inner

/-! ## The counts -/

def edgesTo (inner : PeerInner) (ip : Ipv4Addr) : ℕ :=
  inner.byId.entries.countP fun e => e.2 = ip

/-- The counts are `n`, and only hosts with a count are in the map. -/
structure Counts (inner : PeerInner) (n : Ipv4Addr → ℕ) : Prop where
  count : ∀ ip, inner.refcounts.lookup ip = if n ip = 0 then none else some (n ip)
  map : ∀ ip ∈ inner.map, n ip ≠ 0

variable {ip : Ipv4Addr}

theorem edgesTo_eq_zero {inner : PeerInner} :
    inner.edgesTo ip = 0 ↔ ∀ id, inner.byId.lookup id ≠ some ip := by
  unfold edgesTo
  rw [List.countP_eq_zero]
  constructor
  · intro h id hid
    exact h _ (Dict.mem_of_lookup hid) (decide_eq_true rfl)
  · rintro h ⟨id, v⟩ hmem hv
    exact h id (of_decide_eq_true hv ▸ Dict.lookup_eq_some.mpr hmem)

variable {inner : PeerInner} {n : Ipv4Addr → ℕ} {key : Ipv4Addr}

theorem Counts.incr (h : Counts inner n) (key : Ipv4Addr) :
    Counts (inner.incr key) fun ip => n ip + if key = ip then 1 else 0 := by
  have hold : (inner.refcounts.lookup key).getD 0 = n key := by
    rw [h.count key]
    split_ifs with h0
    · exact h0.symm
    · rfl
  refine ⟨fun ip => ?_, fun ip hip => ?_⟩
  · change (inner.refcounts.insert key _).lookup ip = _
    rw [Dict.lookup_insert, hold, h.count]
    by_cases hk : ip = key
    · rw [if_pos hk, if_pos hk.symm, hk, if_neg (Nat.succ_ne_zero _)]
    · rw [if_neg hk, if_neg (Ne.symm hk), Nat.add_zero]
  · by_cases hk : key = ip
    · rw [if_pos hk]
      exact Nat.succ_ne_zero _
    · rw [if_neg hk]
      refine h.map ip ?_
      unfold PeerInner.incr mapInsert at hip
      dsimp only at hip
      split_ifs at hip
      · exact Finset.mem_of_mem_insert_of_ne hip (Ne.symm hk)
      · exact hip
      · exact hip

theorem Counts.decr (h : Counts inner n) (hkey : n key ≠ 0) :
    Counts (inner.decr key) fun ip => n ip - if key = ip then 1 else 0 := by
  have hold : inner.refcounts.lookup key = some (n key) := by rw [h.count key, if_neg hkey]
  unfold PeerInner.decr
  rw [hold]
  dsimp only
  split_ifs with hlast
  · refine ⟨fun ip => ?_, fun ip hip => ?_⟩
    · rw [Dict.lookup_erase, h.count]
      by_cases hk : ip = key
      · rw [if_pos hk, if_pos hk.symm, hk, if_pos hlast]
      · rw [if_neg hk, if_neg (Ne.symm hk), Nat.sub_zero]
    · obtain ⟨hk, hip⟩ := Finset.mem_erase.mp hip
      rw [if_neg (Ne.symm hk)]
      exact h.map ip hip
  · refine ⟨fun ip => ?_, fun ip hip => ?_⟩
    · rw [Dict.lookup_insert, h.count]
      by_cases hk : ip = key
      · rw [if_pos hk, if_pos hk.symm, hk, if_neg hlast]
      · rw [if_neg hk, if_neg (Ne.symm hk), Nat.sub_zero]
    · by_cases hk : key = ip
      · rw [if_pos hk, ← hk]
        exact hlast
      · rw [if_neg hk]
        exact h.map ip hip

@[simp] theorem byId_incr : (inner.incr key).byId = inner.byId := rfl

@[simp] theorem byId_decr : (inner.decr key).byId = inner.byId := by
  unfold PeerInner.decr
  split
  · rfl
  · split_ifs <;> rfl

def Counted (inner : PeerInner) : Prop := Counts inner inner.edgesTo

theorem edgesTo_congr {inner' : PeerInner} (h : inner'.byId = inner.byId) :
    inner'.edgesTo = inner.edgesTo := by
  unfold edgesTo
  rw [h]

theorem edgesTo_ne_zero {id : NetId} (h : inner.byId.lookup id = some ip) : inner.edgesTo ip ≠ 0 :=
  fun h0 => edgesTo_eq_zero.mp h0 id h

theorem Counted.add (h : Counted inner) (id : NetId) (peer : Ipv4Addr) : Counted (inner.add id peer) := by
  have hsame : Counts { inner with byId := inner.byId.insert id peer } inner.edgesTo := ⟨h.count, h.map⟩
  have hn : ∀ ip, edgesTo { inner with byId := inner.byId.insert id peer } ip =
      (inner.byId.insert id peer).entries.countP fun e => e.2 = ip := fun _ => rfl
  unfold PeerInner.add Counted
  rcases hid : inner.byId.lookup id with - | old
  · rw [edgesTo_congr byId_incr]
    convert hsame.incr peer using 1
    funext ip
    rw [hn, Dict.countP_insert_none _ hid]
    simp only [decide_eq_true_eq]
    rfl
  · have hcount : ∀ ip, edgesTo { inner with byId := inner.byId.insert id peer } ip +
        (if old = ip then 1 else 0) = inner.edgesTo ip + if peer = ip then 1 else 0 := by
      intro ip
      have := Dict.countP_insert (w := peer) (p := fun e => decide (e.2 = ip)) hid fun _ _ => rfl
      simp only [decide_eq_true_eq] at this
      exact this
    dsimp only
    split_ifs with hold
    · -- the edge leads where it led before
      convert hsame using 1
      funext ip
      have := hcount ip
      rw [hold] at this
      omega
    · rw [edgesTo_congr byId_incr, edgesTo_congr byId_decr]
      convert (hsame.decr (edgesTo_ne_zero hid)).incr peer using 1
      funext ip
      have hpos : (if old = ip then 1 else 0) ≤ inner.edgesTo ip := by
        split_ifs with ho
        · exact Nat.one_le_iff_ne_zero.mpr (ho ▸ edgesTo_ne_zero hid)
        · exact Nat.zero_le _
      have := hcount ip
      omega

theorem Counted.remove (h : Counted inner) (id : NetId) : Counted (inner.remove id) := by
  unfold PeerInner.remove
  rcases hid : inner.byId.lookup id with - | key
  · exact h
  · have hsame : Counts { inner with byId := inner.byId.erase id } inner.edgesTo := ⟨h.count, h.map⟩
    unfold Counted
    rw [edgesTo_congr byId_decr]
    convert hsame.decr (edgesTo_ne_zero hid) using 1
    funext ip
    have hcount := Dict.countP_erase (fun e => decide (e.2 = ip)) hid
    simp only [decide_eq_true_eq] at hcount
    change (inner.byId.erase id).entries.countP _ = inner.byId.entries.countP _ - _
    omega

theorem Counted.notMem_map (h : Counted inner)
    (hip : ∀ id, inner.byId.lookup id ≠ some ip) : ip ∉ inner.map :=
  fun hmem => h.map ip hmem (edgesTo_eq_zero.mpr hip)

/-- The hosts with a count are in the map. -/
def Listed (inner : PeerInner) : Prop := ∀ ip, inner.refcounts.lookup ip ≠ none → ip ∈ inner.map

theorem Listed.mem_incr (h : Listed inner) (hroom : key ∈ inner.map ∨ inner.map.card < MAX_PEERS) :
    key ∈ (inner.incr key).map := by
  unfold PeerInner.incr mapInsert
  rcases hkey : inner.refcounts.lookup key with - | count
  · simp [hroom]
  · have hmem := h key (by simp [hkey])
    dsimp only
    split_ifs
    · exact Finset.mem_insert_self _ _
    · exact hmem

theorem Listed.incr (h : Listed inner) (hroom : key ∈ inner.map ∨ inner.map.card < MAX_PEERS) :
    Listed (inner.incr key) := by
  intro ip hip
  by_cases hk : ip = key
  · rw [hk]
    exact h.mem_incr hroom
  · unfold PeerInner.incr mapInsert at hip ⊢
    rw [Dict.lookup_insert, if_neg hk] at hip
    have hmem := h ip hip
    dsimp only
    split_ifs
    · exact Finset.mem_insert_of_mem hmem
    · exact hmem

theorem Listed.decr (h : Listed inner) : Listed (inner.decr key) := by
  unfold PeerInner.decr
  rcases hkey : inner.refcounts.lookup key with - | count
  · exact h
  · intro ip hip
    dsimp only at hip ⊢
    split_ifs at hip ⊢
    · rw [Dict.lookup_erase] at hip
      split_ifs at hip with hk
      · exact absurd rfl hip
      · exact Finset.mem_erase.mpr ⟨hk, h ip hip⟩
    · refine h ip fun hnone => hip ?_
      rw [Dict.lookup_insert, hnone, if_neg]
      rintro rfl
      cases hkey.symm.trans hnone

theorem mem_decr_of_ne (hne : ip ≠ key) (hip : ip ∈ inner.map) : ip ∈ (inner.decr key).map := by
  unfold PeerInner.decr
  split
  · exact hip
  · split_ifs
    · exact Finset.mem_erase.mpr ⟨hne, hip⟩
    · exact hip

/-- The map has room for another host once the edge has left the old one. -/
def hasRoom (inner : PeerInner) (id : NetId) (peer : Ipv4Addr) : Prop :=
  peer ∈ inner.map ∨ (inner.remove id).map.card < MAX_PEERS

instance (id : NetId) (peer : Ipv4Addr) : Decidable (inner.hasRoom id peer) := by
  unfold hasRoom
  infer_instance

theorem Listed.add (h : Listed inner) {id : NetId} {peer : Ipv4Addr} (hroom : inner.hasRoom id peer) :
    Listed (inner.add id peer) := by
  have hentered : Listed { inner with byId := inner.byId.insert id peer } := h
  unfold hasRoom PeerInner.remove at hroom
  unfold PeerInner.add
  rcases hid : inner.byId.lookup id with - | old
  · rw [hid] at hroom
    exact hentered.incr hroom
  · rw [hid] at hroom
    dsimp only at hroom ⊢
    split_ifs with hold
    · exact h
    · have hmap : ∀ m m' : Dict NetId Ipv4Addr, (PeerInner.decr { inner with byId := m } old).map =
          (PeerInner.decr { inner with byId := m' } old).map := by
        intro m m'
        unfold PeerInner.decr
        dsimp only
        split
        · rfl
        · split_ifs <;> rfl
      refine hentered.decr.incr (hroom.imp (mem_decr_of_ne (Ne.symm hold)) fun hcard => ?_)
      rwa [hmap _ (inner.byId.erase id)]

end PeerInner

/-! ## Runs -/

/-- A host: the state of the firewall and the edges behind its map of peers. -/
structure Node where
  globals : Globals
  allowPorts : Finset (BitVec 32)
  ct : Finset CtKey := ∅
  inner : PeerInner := {}

def Node.firewall (s : Node) : Firewall := ⟨s.globals, s.inner.map, s.allowPorts, s.ct⟩

inductive NodeStep
  | add (id : NetId) (peer : Ipv4Addr)
  | remove (id : NetId)
  | frame (isEgress : Bool) (frame : Bytes)
  | evict (keys : Finset CtKey)

def Node.step (s : Node) : NodeStep → Option Node
  | .add id peer => some { s with inner := s.inner.add id peer }
  | .remove id => some { s with inner := s.inner.remove id }
  | .frame isEgress frame => some { s with ct := (s.firewall.classify isEgress frame).2.ct }
  | .evict keys => some { s with ct := s.ct \ keys }

theorem counted_of_reach {s₀ s : Node} {ok : Node → NodeStep → Prop} (h₀ : s₀.inner = {})
    (h : Reach Node.step ok s₀ s) : s.inner.Counted := by
  refine h.invariant (fun s => s.inner.Counted) ?_ fun s a s' hs _ hst => ?_
  · rw [h₀]
    exact ⟨fun _ => rfl, fun ip hip => absurd hip (Finset.notMem_empty ip)⟩
  · cases a with
    | add id peer => cases hst; exact hs.add id peer
    | remove id => cases hst; exact hs.remove id
    | frame isEgress frame => cases hst; exact hs
    | evict keys => cases hst; exact hs

/-- The map has room for the host of an added edge. -/
def Node.hasRoom (s : Node) : NodeStep → Prop
  | .add id peer => s.inner.hasRoom id peer
  | _ => True

instance (s : Node) (a : NodeStep) : Decidable (s.hasRoom a) := by
  cases a <;> unfold Node.hasRoom <;> infer_instance

/-- Where the edges lead after a call, if they led to `edges` before. -/
def NodeStep.edges (edges : NetId → Option Ipv4Addr) : NodeStep → NetId → Option Ipv4Addr
  | .add id peer => Function.update edges id (some peer)
  | .remove id => Function.update edges id none
  | _ => edges

theorem edges_step {s s' : Node} {a : NodeStep} (hs : s.step a = some s') :
    s'.inner.byId.lookup = a.edges s.inner.byId.lookup := by
  funext x
  cases a with
  | add id peer =>
    cases hs
    have hbyId : (s.inner.add id peer).byId = s.inner.byId.insert id peer := by
      unfold PeerInner.add
      split
      · split_ifs <;> simp
      · simp
    rw [hbyId, NodeStep.edges, Dict.lookup_insert, Function.update_apply]
  | remove id =>
    cases hs
    rw [NodeStep.edges, Function.update_apply]
    unfold PeerInner.remove
    split
    · simp [Dict.lookup_erase]
    · split_ifs with hx
      · exact hx ▸ ‹_›
      · rfl
  | frame | evict =>
    cases hs
    rfl

theorem edges_run {s s' : Node} {calls : List NodeStep}
    (h : run (guarded Node.step Node.hasRoom) s calls = some s') :
    s'.inner.byId.lookup = calls.foldl NodeStep.edges s.inner.byId.lookup := by
  induction calls generalizing s with
  | nil => rw [← Option.some.inj h]; rfl
  | cons a calls ih =>
    obtain ⟨s1, h1, h⟩ := Option.bind_eq_some_iff.mp h
    unfold guarded at h1
    split_ifs at h1
    rw [ih h, List.foldl_cons, edges_step h1]

/-- **Counts and map agree with the edges** that the calls have made and not removed, as long as the map
has room: each host has the number of its edges as its count, or none, and is in the map exactly if an
edge leads to it. -/
theorem refcounts_exact {s₀ s : Node} {calls : List NodeStep} (h₀ : s₀.inner = {})
    (h : run (guarded Node.step Node.hasRoom) s₀ calls = some s) (ip : Ipv4Addr) :
    s.inner.byId.lookup = calls.foldl NodeStep.edges (fun _ => none) ∧
    (s.inner.refcounts.lookup ip =
      if s.inner.edgesTo ip = 0 then none else some (s.inner.edgesTo ip)) ∧
    (ip ∈ s.inner.map ↔ ∃ id, s.inner.byId.lookup id = some ip) := by
  have hreach := reach_of_guarded h
  have hcounted := counted_of_reach h₀ hreach
  have hlisted : s.inner.Listed := by
    refine hreach.invariant (fun s => s.inner.Listed) ?_ fun s a s' hs hok hst => ?_
    · rw [h₀]
      exact fun ip hip => absurd rfl hip
    · cases a with
      | add id peer => cases hst; exact hs.add hok
      | remove id =>
        cases hst
        unfold PeerInner.remove
        split
        · exact PeerInner.Listed.decr hs
        · exact hs
      | frame | evict => cases hst; exact hs
  refine ⟨?_, hcounted.count ip, fun hmem => ?_, fun ⟨id, hid⟩ => hlisted ip ?_⟩
  · rw [edges_run h, h₀]
    rfl
  · by_contra hnone
    exact hcounted.notMem_map (not_exists.mp hnone) hmem
  · rw [hcounted.count, if_neg (PeerInner.edgesTo_ne_zero hid)]
    exact Option.some_ne_none _

/-- Three edges; one of them is led to the host of another, and the third is removed. -/
def moves : List NodeStep :=
  [.add (.vlan 1) 2#32, .add (.vlan 2) 3#32, .add (.vxlan 7) 4#32, .add (.vlan 2) 2#32, .remove (.vxlan 7)]

theorem refcounts_exact_moved : ∃ s ∈ run (guarded Node.step Node.hasRoom)
      { globals := ⟨0, 0, 0⟩, allowPorts := ∅ } moves, s.inner.refcounts.lookup 2#32 = some 2 ∧
    2#32 ∈ s.inner.map ∧ 3#32 ∉ s.inner.map ∧ 4#32 ∉ s.inner.map := by
  obtain ⟨s, hs, hcount, hid, hout⟩ : ∃ s ∈ run (guarded Node.step Node.hasRoom)
        { globals := ⟨0, 0, 0⟩, allowPorts := ∅ } moves, s.inner.refcounts.lookup 2#32 = some 2 ∧
      s.inner.byId.lookup (.vlan 1) = some 2#32 ∧ 3#32 ∉ s.inner.map ∧ 4#32 ∉ s.inner.map := by
    decide +kernel
  exact ⟨s, hs, hcount, (refcounts_exact rfl hs _).2.2.mpr ⟨.vlan 1, hid⟩, hout⟩

/-- ESP, or UDP on a port of the data plane. -/
def Packet.isDataPlane (p : Packet) : Bool :=
  p.proto = PROTO_ESP || p.proto = PROTO_UDP && p.onFixedPort

/-- The tables allow a packet of the data plane for its hosts, for being on its way out of the gateway,
or for its port. -/
theorem baseAllow_dataPlane {fw : Firewall} {isEgress : Bool} {p : Packet} (hp : p.isDataPlane = true) :
    fw.baseAllow isEgress p = true ↔ fw.isPeer p.src = true ∨ fw.isPeer p.dst = true ∨
      (fw.isGateway && isEgress) = true ∨ fw.isPortAllowed isEgress p.proto p.dstPort = true := by
  have hne : PROTO_ESP ≠ PROTO_TCP ∧ PROTO_ESP ≠ PROTO_UDP ∧ PROTO_UDP ≠ PROTO_TCP ∧
      PROTO_UDP ≠ PROTO_ESP := by decide
  unfold Packet.isDataPlane at hp
  rw [Bool.or_eq_true, Bool.and_eq_true, decide_eq_true_eq, decide_eq_true_eq] at hp
  rcases hp with hesp | ⟨hudp, hport⟩
  · simp only [Firewall.baseAllow, hesp, hne.1, hne.2.1, decide_false, decide_true, Bool.false_and,
      Bool.true_and, Bool.false_eq_true, if_false, Bool.or_eq_true]
    split_ifs <;> tauto
  · simp only [Firewall.baseAllow, Firewall.dataPlane, hudp, hport, hne.2.2, decide_false, decide_true,
      Bool.false_and, Bool.true_and, Bool.false_eq_true, if_false, Bool.or_eq_true]
    split_ifs <;> tauto

/-- **Revocation.** On a host that is no gateway, a packet of the data plane to or from an address that
no edge leads to, with no peer at the other end and a port that is not allowed, is blocked exactly if
the table of flows does not have its flow. -/
theorem revoked_peer_blocked_iff {globals : Globals} {allowPorts : Finset (BitVec 32)} {s : Node}
    (h : Reach Node.step anyStep { globals, allowPorts } s) (hgateway : s.globals.egressGateway = 0)
    {ip : Ipv4Addr} (hip : ∀ id, s.inner.byId.lookup id ≠ some ip) {isEgress : Bool} {frame : Bytes}
    {p : Packet} (hp : headers frame = some (.tracked p)) (hplane : p.isDataPlane = true)
    (hends : p.src = ip ∧ p.dst ∉ s.inner.map ∨ p.dst = ip ∧ p.src ∉ s.inner.map)
    (hport : allowKey isEgress p.proto p.dstPort ∉ s.allowPorts) :
    (s.firewall.classify isEgress frame).1 = .shot ↔ ctKey p ∉ s.ct := by
  have hgone : ip ∉ s.inner.map := (counted_of_reach rfl h).notMem_map hip
  have hpeers : p.src ∉ s.inner.map ∧ p.dst ∉ s.inner.map := by
    rcases hends with ⟨rfl, hdst⟩ | ⟨rfl, hsrc⟩
    · exact ⟨hgone, hdst⟩
    · exact ⟨hsrc, hgone⟩
  have hnot : ¬s.firewall.baseAllow isEgress p = true := by
    rw [baseAllow_dataPlane hplane]
    rintro (hsrc | hdst | hout | hallowed)
    · exact hpeers.1 (of_decide_eq_true hsrc)
    · exact hpeers.2 (of_decide_eq_true hdst)
    · exact of_decide_eq_true (Bool.and_eq_true_iff.mp hout).1 hgateway
    · exact hport (of_decide_eq_true hallowed)
  have hok : (s.firewall.classify isEgress frame).1 = .ok ↔ ctKey p ∈ s.ct := by
    rw [Firewall.classify_tracked hp, Firewall.decidePacket_ok]
    exact ⟨fun hor => of_decide_eq_true (hor.resolve_right hnot), fun hmem => .inl (decide_eq_true hmem)⟩
  rw [← hok]
  cases (s.firewall.classify isEgress frame).1 <;> simp

theorem PeerInner.lookup_of_nil {inner : PeerInner} (h : inner.byId.entries = []) (id : NetId)
    (ip : Ipv4Addr) : inner.byId.lookup id ≠ some ip := by
  intro hid
  have hmem := Dict.mem_of_lookup hid
  rw [h] at hmem
  cases hmem

/-- An edge to a host is built and taken down before a packet of the host comes in. -/
theorem revoked_peer_blocked_unseen : ∃ s, Reach Node.step anyStep
      { globals := ⟨0, 0, 0⟩, allowPorts := ∅ } s ∧
    (s.firewall.classify false (ipv4Frame 5 28 0 50 2#32 1#32 (List.replicate 8 0))).1 = .shot := by
  obtain ⟨s, hs, hgateway, hnil, hother, hallow, hct⟩ : ∃ s, Reach Node.step anyStep
      { globals := ⟨0, 0, 0⟩, allowPorts := ∅ } s ∧ s.globals.egressGateway = 0 ∧
      s.inner.byId.entries = [] ∧ 1#32 ∉ s.inner.map ∧ s.allowPorts = ∅ ∧ s.ct = ∅ :=
    exists_reach [.add (.vxlan 101) 2#32, .remove (.vxlan 101)] (by decide +kernel)
  have htracked : headers (ipv4Frame 5 28 0 50 2#32 1#32 (List.replicate 8 0)) =
      some (.tracked ⟨PROTO_ESP, 2#32, 1#32, 0, 0⟩) := by decide +kernel
  have hport : allowKey false PROTO_ESP 0 ∉ s.allowPorts := hallow ▸ Finset.notMem_empty _
  refine ⟨s, hs, (revoked_peer_blocked_iff hs hgateway
    (fun id => PeerInner.lookup_of_nil hnil id 2#32) htracked rfl (.inl ⟨rfl, hother⟩) hport).mpr ?_⟩
  exact hct ▸ Finset.notMem_empty _

/-- An edge to a host is built, ESP from the host comes in, and the edge is taken down: ESP from the
host still comes in. -/
theorem revoked_peer_passes : ∃ s p frame, Reach Node.step anyStep
      { globals := ⟨0, 0, 0⟩, allowPorts := ∅ } s ∧
    s.globals.egressGateway = 0 ∧ (∀ id, s.inner.byId.lookup id ≠ some 2#32) ∧
    headers frame = some (.tracked p) ∧ p.proto = PROTO_ESP ∧ p.src = 2#32 ∧ p.dst ∉ s.inner.map ∧
    allowKey false p.proto p.dstPort ∉ s.allowPorts ∧ (s.firewall.classify false frame).1 = .ok := by
  let esp := ipv4Frame 5 28 0 50 2#32 1#32 (List.replicate 8 0)
  obtain ⟨s, hs, hgateway, hnil, hother, hallow, hok⟩ : ∃ s, Reach Node.step anyStep
      { globals := ⟨0, 0, 0⟩, allowPorts := ∅ } s ∧ s.globals.egressGateway = 0 ∧
      s.inner.byId.entries = [] ∧ 1#32 ∉ s.inner.map ∧ s.allowPorts = ∅ ∧
      (s.firewall.classify false esp).1 = .ok :=
    exists_reach [.add (.vxlan 101) 2#32, .frame false esp, .remove (.vxlan 101)] (by decide +kernel)
  exact ⟨s, ⟨PROTO_ESP, 2#32, 1#32, 0, 0⟩, esp, hs, hgateway,
    fun id => PeerInner.lookup_of_nil hnil id 2#32, by decide +kernel, rfl, rfl, hother,
    hallow ▸ Finset.notMem_empty _, hok⟩

end Nullnet.Ebpf
