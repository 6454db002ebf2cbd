import Nullnet.Server.Egress
import Nullnet.Server.Placement

/-! # Who an egress request is about

A client identifies the initiator of egress traffic by the container that it comes from, empty for
the host itself; the server adds the ip of the sender. Triggers and reports of destinations look for a
registered replica with this identity (`StackMap.resolveRegisteredReplica`), and the edge is that of
the replica. Reports of liveness take the identity as it is.

The two agree unless the container is empty and the replica that is found has one
(`egress_key_agreement`). -/

namespace Nullnet.Server

open Nullnet.Lib

/-! ## The model -/

/-- The container that a request names; the empty string stands for none. -/
def initiatorContainer (container : String) : Option String :=
  if container = "" then none else some container

/-- `resolve_registered_replica`: the first registered replica on the host of the sender, and in its
container if it has one, with its stack and its service. -/
def StackMap.resolveRegisteredReplica (m : StackMap) (senderIp : IpAddr)
    (container : Option String) : Option (String × String × ReplicaId) :=
  m.entries.findSome? fun stack => stack.2.entries.findSome? fun service =>
    match service.2 with
    | .registered reg => (reg.senderReplica senderIp container).map fun r => (stack.1, service.1, r)
    | .unregistered _ => none

/-- `egress_trigger`: the call of `ensure_egress_edge` that a trigger makes. -/
def egressTrigger (m : StackMap) (proxyIp : Option IpAddr) (g : ℕ) (senderIp : IpAddr)
    (container : String) : Except String EgressAction :=
  match proxyIp with
  | none => .error "PROXY_IP is not configured; egress brokering is disabled"
  | some proxyIp =>
    match m.resolveRegisteredReplica senderIp (initiatorContainer container) with
    | none => .error "No registered replica matches the egress sender"
    | some (stack, name, r) => .ok (.call g stack name r.ip r.docker proxyIp)

def egressLiveness (senderIp : IpAddr) (container : String) (active : Bool) : EgressAction :=
  .liveness senderIp (initiatorContainer container) active

/-- An entry of a report of destinations; `dst` is its destination, if it is well formed. -/
structure DestinationEntry where
  initiatorContainer : String
  dst : Option Ipv4Addr
  count : ℕ
  lastSeen : ℕ
  blocked : Bool
  active : Bool

/-- The keys that have been resolved in a report, by container. -/
abbrev ResolvedKeys := Dict (Option String) (Option EgressKey)

def resolveOnce (m : StackMap) (senderIp : IpAddr) (resolved : ResolvedKeys)
    (container : Option String) : Option EgressKey × ResolvedKeys :=
  match resolved.lookup container with
  | some cached => (cached, resolved)
  | none =>
    let key := (m.resolveRegisteredReplica senderIp container).map fun e => (e.2.2.ip, e.2.2.docker)
    (key, resolved.insert container key)

def reportEntry (m : StackMap) (senderIp : IpAddr) (geo : Ipv4Addr → SessionGeo)
    (done : ResolvedKeys × List EgressAction) (entry : DestinationEntry) :
    ResolvedKeys × List EgressAction :=
  match entry.dst with
  | none => done
  | some dst =>
    let (key, resolved) := resolveOnce m senderIp done.1 (initiatorContainer entry.initiatorContainer)
    match key with
    | some (ip, docker) => (resolved, done.2 ++ [.record ip docker dst entry.count entry.lastSeen
        entry.blocked entry.active (geo dst)])
    | none => (resolved, done.2)

/-- `report_egress_destination`: what a report notes. -/
def reportEgressDestination (m : StackMap) (senderIp : IpAddr) (geo : Ipv4Addr → SessionGeo)
    (entries : List DestinationEntry) : List EgressAction :=
  (entries.foldl (reportEntry m senderIp geo) (∅, [])).2

def EgressAction.key : EgressAction → Option EgressKey
  | .call _ _ _ ip docker _ => some (ip, docker)
  | .record ip docker .. => some (ip, docker)
  | .liveness ip docker _ => some (ip, docker)
  | _ => none

/-! ## The keys -/

variable {m : StackMap} {senderIp : IpAddr} {container : Option String} {r : ReplicaId}

def StackMap.egressKey (m : StackMap) (senderIp : IpAddr) (container : String) : Option EgressKey :=
  (m.resolveRegisteredReplica senderIp (initiatorContainer container)).map fun e =>
    (e.2.2.ip, e.2.2.docker)

theorem Registered.senderReplica_spec {reg : Registered}
    (h : reg.senderReplica senderIp container = some r) :
    r.ip = senderIp ∧ (container.isSome → r.docker = container) := by
  unfold senderReplica at h
  split at h
  · obtain ⟨-, -, hr⟩ := Dict.first_eq_some h
    have hr := of_decide_eq_true hr
    exact ⟨by rw [hr], fun _ => by rw [hr]⟩
  · obtain ⟨-, -, hr⟩ := Dict.first_eq_some h
    exact ⟨of_decide_eq_true hr, fun hsome => by cases hsome⟩

/-- The replica that is found is on the host of the sender, and in the container that is named. -/
theorem StackMap.resolveRegisteredReplica_spec {st name : String}
    (h : m.resolveRegisteredReplica senderIp container = some (st, name, r)) :
    r.ip = senderIp ∧ (container.isSome → r.docker = container) := by
  obtain ⟨stack, -, h⟩ := List.exists_of_findSome?_eq_some h
  obtain ⟨service, -, h⟩ := List.exists_of_findSome?_eq_some h
  split at h
  · obtain ⟨r', hr', he⟩ := Option.map_eq_some_iff.mp h
    obtain ⟨-, hr⟩ := Prod.mk.inj he
    cases hr
    exact Registered.senderReplica_spec hr'
  · cases h

/-- The cache of a report holds what would be resolved. -/
def Caches (m : StackMap) (senderIp : IpAddr) (resolved : ResolvedKeys) : Prop :=
  ∀ container key, resolved.lookup container = some key →
    key = (m.resolveRegisteredReplica senderIp container).map fun e => (e.2.2.ip, e.2.2.docker)

theorem Caches.resolveOnce {resolved : ResolvedKeys} (h : Caches m senderIp resolved)
    (container : Option String) : (resolveOnce m senderIp resolved container).1 =
      (m.resolveRegisteredReplica senderIp container).map (fun e => (e.2.2.ip, e.2.2.docker)) ∧
    Caches m senderIp (Server.resolveOnce m senderIp resolved container).2 := by
  unfold Server.resolveOnce
  split
  · rename_i cached hc
    exact ⟨h container cached hc, h⟩
  · refine ⟨rfl, fun container' key hk => ?_⟩
    rw [Dict.lookup_insert] at hk
    split_ifs at hk with hcc
    · rw [← Option.some.inj hk, hcc]
    · exact h container' key hk

/-- What an entry of a report notes, without the cache. -/
def DestinationEntry.action (m : StackMap) (senderIp : IpAddr) (geo : Ipv4Addr → SessionGeo)
    (entry : DestinationEntry) : Option EgressAction :=
  entry.dst.bind fun dst => (m.egressKey senderIp entry.initiatorContainer).map fun key =>
    .record key.1 key.2 dst entry.count entry.lastSeen entry.blocked entry.active (geo dst)

theorem Caches.reportEntry {done : ResolvedKeys × List EgressAction} (h : Caches m senderIp done.1)
    (geo : Ipv4Addr → SessionGeo) (entry : DestinationEntry) :
    (reportEntry m senderIp geo done entry).2 = done.2 ++ (entry.action m senderIp geo).toList ∧
    Caches m senderIp (Server.reportEntry m senderIp geo done entry).1 := by
  obtain ⟨hkey, hcache⟩ := h.resolveOnce (initiatorContainer entry.initiatorContainer)
  unfold Server.reportEntry DestinationEntry.action StackMap.egressKey
  rcases entry.dst with - | dst
  · exact ⟨(List.append_nil _).symm, h⟩
  · rw [Option.bind_some, ← hkey]
    dsimp only
    rcases (Server.resolveOnce m senderIp done.1
      (initiatorContainer entry.initiatorContainer)).1 with - | ⟨ip, docker⟩
    · exact ⟨(List.append_nil _).symm, hcache⟩
    · exact ⟨rfl, hcache⟩

theorem reportEgressDestination_eq (geo : Ipv4Addr → SessionGeo) (entries : List DestinationEntry) :
    reportEgressDestination m senderIp geo entries =
      entries.flatMap fun entry => (entry.action m senderIp geo).toList := by
  have key : ∀ (entries : List DestinationEntry) (done : ResolvedKeys × List EgressAction),
      Caches m senderIp done.1 → (entries.foldl (reportEntry m senderIp geo) done).2 =
        done.2 ++ entries.flatMap fun entry => (entry.action m senderIp geo).toList := by
    intro entries
    induction entries with
    | nil => exact fun done _ => (List.append_nil _).symm
    | cons entry entries ih =>
      intro done hcache
      obtain ⟨hnoted, hcache'⟩ := hcache.reportEntry geo entry
      rw [List.foldl_cons, ih _ hcache', hnoted, List.flatMap_cons, List.append_assoc]
  exact key entries (∅, []) fun container key hk => by cases hk

theorem egressTrigger_key {proxyIp : Option IpAddr} {g : ℕ} {container : String}
    {trigger : EgressAction} (h : egressTrigger m proxyIp g senderIp container = .ok trigger) :
    (m.egressKey senderIp container).isSome ∧ trigger.key = m.egressKey senderIp container := by
  unfold egressTrigger at h
  unfold StackMap.egressKey
  split at h
  · cases h
  · split at h
    · cases h
    · rename_i hr
      rw [hr, ← Except.ok.inj h]
      exact ⟨rfl, rfl⟩

/-- The key of an identity is its own, unless it names no container and a replica in a container is
found. -/
theorem StackMap.egressKey_eq {container : String} {key : EgressKey}
    (h : m.egressKey senderIp container = some key) :
    key = (senderIp, initiatorContainer container) ↔ container ≠ "" ∨ key.2 = none := by
  obtain ⟨⟨st, name, r⟩, hr, rfl⟩ := Option.map_eq_some_iff.mp h
  obtain ⟨hip, hdocker⟩ := resolveRegisteredReplica_spec hr
  rw [hip, Prod.mk.injEq, eq_self, true_and]
  unfold initiatorContainer at hdocker ⊢
  split_ifs at hdocker ⊢ with hempty
  · simp [hempty]
  · simp [hempty, hdocker rfl]

/-! ## The theorem -/

/-- **The keys of the egress handlers.** For all services and every identity: a trigger and a report
of a destination have the same key. A report of liveness has this key too if and only if the identity
names a container or the replica that is found has none; then an idle report reaches the edge of the
trigger, and otherwise it leaves this edge alone. -/
theorem egress_key_agreement (net : Net) (m : StackMap) (senderIp : IpAddr) (container : String)
    (proxyIp : Option IpAddr) (g : ℕ) (trigger : EgressAction)
    (htrigger : egressTrigger m proxyIp g senderIp container = .ok trigger) :
    ∃ key, trigger.key = some key ∧
      (∀ geo entries, ∀ entry ∈ entries, entry.initiatorContainer = container → ∀ dst,
        entry.dst = some dst → .record key.1 key.2 dst entry.count entry.lastSeen entry.blocked
          entry.active (geo dst) ∈ reportEgressDestination m senderIp geo entries) ∧
      (∀ active, (egressLiveness senderIp container active).key = some key ↔
        (container ≠ "" ∨ key.2 = none)) ∧
      ∀ (s s' : Egress) e, s.edges.lookup key = some e →
        s.step net (egressLiveness senderIp container false) = some s' →
        s'.edges.lookup key = some (if container ≠ "" ∨ key.2 = none then
          { e with idleSince := some s.clock } else e) := by
  obtain ⟨hsome, hkey⟩ := egressTrigger_key htrigger
  obtain ⟨key, hk⟩ := Option.isSome_iff_exists.mp hsome
  have hagree := StackMap.egressKey_eq hk
  refine ⟨key, hkey.trans hk, ?_, fun active => ?_, fun s s' e he hs => ?_⟩
  · intro geo entries entry hmem hcontainer dst hdst
    rw [reportEgressDestination_eq, List.mem_flatMap]
    refine ⟨entry, hmem, ?_⟩
    rw [DestinationEntry.action, hdst, hcontainer, hk]
    exact List.mem_singleton_self _
  · rw [← hagree]
    exact Option.some_inj.trans eq_comm
  · cases hs
    rw [Dict.lookup_modify, he]
    by_cases hown : container ≠ "" ∨ key.2 = none
    · rw [if_pos (hagree.mpr hown), if_pos hown]
      rfl
    · rw [if_neg fun h => hown (hagree.mp h), if_neg hown]

namespace Script

def contained : StackMap :=
  (∅ : StackMap).insert "stack" ((∅ : Services).insert "shop"
    (.registered ⟨shop, (∅ : Dict _ _).insert ⟨host 1, some "box"⟩ ⟨80, ∅⟩⟩))

def shopCall : EgressAction := .call 0 "stack" "shop" (host 1) (some "box") (host 100)

def brokered : List EgressAction :=
  [shopCall, .advance 0, .advance 0, .setup 0 true true true, .advance 0,
    .persist 0 fun _ => ⟨none, none, none⟩]

end Script

open Script in
/-- A trigger without a container builds the edge of the shop, and an idle report without a container
does not reach it. -/
theorem idle_report_lost :
    egressTrigger contained (some (host 100)) 0 (host 1) "" = .ok shopCall ∧
    ∃ s s' e, Reach (Egress.step .vlan) anyStep Egress.new s ∧
      s.edges.lookup (host 1, some "box") = some e ∧ e.netId ≠ 0 ∧
      s.step .vlan (egressLiveness (host 1) "" false) = some s' ∧
      (s'.edges.lookup (host 1, some "box")).any fun e => e.idleSince = none := by
  obtain ⟨s, hs, ⟨e, he, hn⟩, s', hs'⟩ : ∃ s, Reach (Egress.step .vlan) anyStep Egress.new s ∧
      (∃ e, s.edges.lookup (host 1, some "box") = some e ∧ e.netId ≠ 0) ∧
      ∃ s', s.step .vlan (egressLiveness (host 1) "" false) = some s' ∧
        (s'.edges.lookup (host 1, some "box")).any fun e => e.idleSince = none :=
    exists_reach brokered (by decide +kernel)
  exact ⟨rfl, s, s', e, hs, he, hn, hs'⟩

open Script in
/-- With its container the shop is found by all handlers. -/
theorem egress_key_agreement_contained : ∃ key, shopCall.key = some key ∧
    ∀ active, (egressLiveness (host 1) "box" active).key = some key := by
  obtain ⟨key, hkey, -, hlive, -⟩ := egress_key_agreement .vlan contained (host 1) "box"
    (some (host 100)) 0 shopCall rfl
  exact ⟨key, hkey, fun active => (hlive active).mpr (.inl (by decide))⟩

end Nullnet.Server
