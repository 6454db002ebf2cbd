import Nullnet.Server.EgressIdentity

/-! # Whose filter an egress packet meets

A client asks the server whether the first packet of a flow may leave. Like a trigger, the question
names the container that the packet comes from, if any, and the server looks through all services for
a registered replica of the sender. It takes the filter of the first service that has one
(`StackMap.checkEgressDestination`), and a trigger builds the edge of the first replica. Which one is
first is up to the hash maps (`StackMap.Reordered`).

Both searches are instances of `StackMap.findService`. They do not depend on the order if and only if
one service at most has a replica of the sender (`egress_order_independent`). Two services that share
a container, or the host of a packet without one, are told apart by the order (`verdict_by_order`). -/

namespace Nullnet.Server

open Nullnet.Lib
open Nullnet.Config (Lookups FilterPolicy)

/-! ## The model -/

/-- The replica is one of the sender: it is on the host, and in the container if there is one. -/
def ReplicaId.isSender (r : ReplicaId) (senderIp : IpAddr) (container : Option String) : Bool :=
  r.ip = senderIp && container.all fun c => r.docker = some c

def ServiceInfo.runsSender (senderIp : IpAddr) (container : Option String) : ServiceInfo → Bool
  | registered reg => reg.replicas.entries.any fun e => e.1.isSender senderIp container
  | unregistered _ => false

/-- The first service with a replica of the sender, with its egress filter. -/
def StackMap.resolveEgressPolicy (m : StackMap) (senderIp : IpAddr) (container : Option String) :
    Option (String × FilterPolicy) :=
  m.entries.findSome? fun stack => stack.2.entries.findSome? fun service =>
    if service.2.runsSender senderIp container then
      some (service.1, service.2.config.egressPolicy)
    else none

/-- `check_egress_destination`: may the packet leave? -/
def StackMap.checkEgressDestination (m : StackMap) (w : Lookups) (senderIp : IpAddr)
    (container dstIp : String) : Except String Bool :=
  match w.ipv4 dstIp with
  | none => .error "invalid IPv4 address syntax"
  | some dst =>
    match m.resolveEgressPolicy senderIp (initiatorContainer container) with
    | none => .error "No registered replica matches the egress policy check"
    | some (_, policy) => .ok (policy.isNone || policy.allows w ⟨dst, w.geo dst⟩)

/-- The two maps have the same services, in any order. -/
structure StackMap.Reordered (m m' : StackMap) : Prop where
  service : ∀ k, m'.service k = m.service k
  present : ∀ st, (m'.lookup st).isSome = (m.lookup st).isSome

/-- One service at most has a replica of the sender. -/
def StackMap.SoleSender (m : StackMap) (senderIp : IpAddr) (container : Option String) : Prop :=
  ∀ k si k' si', m.service k = some si → m.service k' = some si' →
    si.runsSender senderIp container → si'.runsSender senderIp container → k = k'

/-! ## Searches through all services -/

namespace StackMap

variable {B : Type}

/-- The first result of `g` on a service. -/
def findService (m : StackMap) (g : ServiceKey → ServiceInfo → Option B) : Option B :=
  m.entries.findSome? fun stack => stack.2.entries.findSome? fun service =>
    g (stack.1, service.1) service.2

variable {m m' : StackMap} {g : ServiceKey → ServiceInfo → Option B} {k : ServiceKey}
  {si : ServiceInfo} {b : B}

theorem findService_eq_some (h : m.findService g = some b) :
    ∃ k si, m.service k = some si ∧ g k si = some b := by
  obtain ⟨⟨st, services⟩, hst, h⟩ := List.exists_of_findSome?_eq_some h
  obtain ⟨⟨name, si⟩, hname, h⟩ := List.exists_of_findSome?_eq_some h
  refine ⟨(st, name), si, ?_, h⟩
  rw [service, Dict.lookup_eq_some.mpr hst]
  exact Dict.lookup_eq_some.mpr hname

theorem findService_eq_none (h : m.findService g = none) (hs : m.service k = some si) :
    g k si = none := by
  obtain ⟨services, hst, hname⟩ := Option.bind_eq_some_iff.mp hs
  have := List.findSome?_eq_none_iff.mp h _ (Dict.mem_of_lookup hst)
  exact List.findSome?_eq_none_iff.mp this _ (Dict.mem_of_lookup hname)

/-- A search that can succeed on one service only does not depend on the order. -/
theorem Reordered.findService (h : m.Reordered m')
    (hsole : ∀ k si k' si', m.service k = some si → m.service k' = some si' → (g k si).isSome →
      (g k' si').isSome → k = k') : m'.findService g = m.findService g := by
  rcases hm : m.findService g with - | b
  · rcases hm' : m'.findService g with - | b'
    · rfl
    · obtain ⟨k, si, hs, hg⟩ := findService_eq_some hm'
      rw [h.service] at hs
      rw [findService_eq_none hm hs] at hg
      cases hg
  · obtain ⟨k, si, hs, hg⟩ := findService_eq_some hm
    rcases hm' : m'.findService g with - | b'
    · have := findService_eq_none hm' ((h.service k).trans hs)
      cases hg.symm.trans this
    · obtain ⟨k', si', hs', hg'⟩ := findService_eq_some hm'
      rw [h.service] at hs'
      obtain rfl := hsole k si k' si' hs hs' (by rw [hg]; rfl) (by rw [hg']; rfl)
      rw [hs, Option.some.injEq] at hs'
      rw [← hg', ← hs', hg]

/-- The map with a service at the front of its stack, and the stack at the front. -/
def front (m : StackMap) (k : ServiceKey) : StackMap := (m.modify k.1 (·.toFront k.2)).toFront k.1

theorem reordered_front (m : StackMap) (k : ServiceKey) : m.Reordered (m.front k) where
  service k' := by
    simp only [service, front, Dict.lookup_toFront, Dict.lookup_modify]
    split_ifs
    · rcases m.lookup k'.1 with - | services
      · rfl
      · exact Dict.lookup_toFront _ _ _
    · rfl
  present st := by
    simp only [front, Dict.lookup_toFront, Dict.lookup_modify]
    split_ifs
    · rw [Option.isSome_map]
    · rfl

theorem findService_front (hs : m.service k = some si) (hg : g k si = some b) :
    (m.front k).findService g = some b := by
  obtain ⟨services, hst, hname⟩ := Option.bind_eq_some_iff.mp hs
  have hfront : ∀ {V : Type} (d : Dict String V) {a : String} {v : V}, d.lookup a = some v →
      ∃ rest, (d.toFront a).entries = ⟨a, v⟩ :: rest := by
    intro V d a v hd
    rw [Dict.toFront, hd]
    exact ⟨_, rfl⟩
  have hstack : (m.modify k.1 (·.toFront k.2)).lookup k.1 = some (services.toFront k.2) := by
    rw [Dict.lookup_modify_self, hst, Option.map_some]
  obtain ⟨rest, hentries⟩ := hfront _ hstack
  obtain ⟨rest', hentries'⟩ := hfront _ hname
  rw [findService, front, hentries, List.findSome?_cons, hentries', List.findSome?_cons, hg]

end StackMap

/-! ## The two searches -/

section

variable {m m' : StackMap} {senderIp : IpAddr} {container : Option String} {k : ServiceKey}
  {si : ServiceInfo}

def ServiceInfo.senderAt (senderIp : IpAddr) (container : Option String) (k : ServiceKey) :
    ServiceInfo → Option (String × String × ReplicaId)
  | registered reg => (reg.senderReplica senderIp container).map fun r => (k.1, k.2, r)
  | unregistered _ => none

theorem StackMap.resolveRegisteredReplica_eq : m.resolveRegisteredReplica senderIp container =
    m.findService (ServiceInfo.senderAt senderIp container) := rfl

theorem Registered.senderReplica_eq {reg : Registered} : reg.senderReplica senderIp container =
    reg.replicas.first fun r _ => r.isSender senderIp container := by
  have hsame : ∀ (r : ReplicaId) (c : String),
      decide (r = ⟨senderIp, some c⟩) = r.isSender senderIp (some c) := by
    rintro ⟨ip, docker⟩ c
    simp [ReplicaId.isSender, Bool.decide_and]
  cases container with
  | none => simp only [senderReplica, ReplicaId.isSender, Option.all_none, Bool.and_true]
  | some c => simp only [senderReplica, hsame]

theorem ServiceInfo.isSome_senderAt :
    (si.senderAt senderIp container k).isSome = si.runsSender senderIp container := by
  cases si with
  | unregistered => rfl
  | registered reg =>
    rw [senderAt, Option.isSome_map, Registered.senderReplica_eq, Dict.first, Option.isSome_map,
      Bool.eq_iff_iff, List.find?_isSome]
    exact List.any_eq_true.symm

theorem StackMap.SoleSender.resolve (hsole : m.SoleSender senderIp container) (h : m.Reordered m') :
    m'.resolveRegisteredReplica senderIp container = m.resolveRegisteredReplica senderIp container ∧
    m'.resolveEgressPolicy senderIp container = m.resolveEgressPolicy senderIp container := by
  have hpolicy : ∀ m : StackMap, m.resolveEgressPolicy senderIp container = m.findService fun k si =>
      if si.runsSender senderIp container then some (k.2, si.config.egressPolicy) else none := fun _ => rfl
  simp only [resolveRegisteredReplica_eq, hpolicy]
  refine ⟨h.findService fun k si k' si' hs hs' hg hg' => ?_,
    h.findService fun k si k' si' hs hs' hg hg' => ?_⟩
  · rw [ServiceInfo.isSome_senderAt] at hg hg'
    exact hsole k si k' si' hs hs' hg hg'
  · rw [Option.isSome_ite] at hg hg'
    exact hsole k si k' si' hs hs' hg hg'

theorem egressTrigger_front {container : String} (proxyIp : IpAddr) (hs : m.service k = some si)
    (hr : si.runsSender senderIp (initiatorContainer container)) :
    ∃ ip docker, egressTrigger (m.front k) (some proxyIp) 0 senderIp container =
      .ok (.call 0 k.1 k.2 ip docker proxyIp) := by
  rw [← ServiceInfo.isSome_senderAt (k := k)] at hr
  obtain ⟨⟨st, name, r⟩, hat⟩ := Option.isSome_iff_exists.mp hr
  have hresolve := StackMap.findService_front hs hat
  rw [← StackMap.resolveRegisteredReplica_eq] at hresolve
  cases si with
  | unregistered => cases hat
  | registered reg =>
    obtain ⟨r', -, he⟩ := Option.map_eq_some_iff.mp hat
    rw [← he] at hresolve
    exact ⟨r'.ip, r'.docker, by simp only [egressTrigger, hresolve]⟩

end

/-! ## The theorem -/

/-- **Egress decisions and the order of the maps.** For all services, every sender and every
destination: in every order of the stacks and of the services the verdict on the destination is the
same and a trigger makes the same call, if and only if one service at most has a replica of the
sender. -/
theorem egress_order_independent (m : StackMap) (w : Lookups) (senderIp : IpAddr)
    (container dstIp : String) :
    (∀ m', m.Reordered m' →
      m'.checkEgressDestination w senderIp container dstIp =
        m.checkEgressDestination w senderIp container dstIp ∧
      ∀ proxyIp g, egressTrigger m' proxyIp g senderIp container =
        egressTrigger m proxyIp g senderIp container) ↔
    m.SoleSender senderIp (initiatorContainer container) := by
  constructor
  · intro h k si k' si' hs hs' hr hr'
    -- each of the two services can be moved to the front, and is then the one a trigger is for
    obtain ⟨ip, docker, hk⟩ := egressTrigger_front senderIp hs hr
    obtain ⟨ip', docker', hk'⟩ := egressTrigger_front senderIp hs' hr'
    rw [(h _ (m.reordered_front k)).2] at hk
    rw [(h _ (m.reordered_front k')).2, hk] at hk'
    injection hk' with hk'
    injection hk' with _ hst hname
    exact Prod.ext hst hname
  · intro hsole m' hm
    obtain ⟨hreplica, hpolicy⟩ := hsole.resolve hm
    exact ⟨by simp only [StackMap.checkEgressDestination, hpolicy],
      fun proxyIp g => by simp only [egressTrigger, hreplica]⟩

namespace Script

/-- A service that may only contact the addresses of one network. -/
def vault : ServiceConfig :=
  { bare with egressPolicy := .allow [[⟨.dstIp, .contains, ["10.0.0.0/8"]⟩]] }

def sharedHost : StackMap :=
  let on (config : ServiceConfig) : ServiceInfo :=
    .registered ⟨config, (∅ : Dict _ _).insert ⟨host 1, none⟩ ⟨80, ∅⟩⟩
  (∅ : StackMap).insert "stack" (((∅ : Services).insert "shop" (on shop)).insert "vault" (on vault))

/-- One network and one address outside of it are known. -/
def fewAddresses : Lookups where
  ipv4 text := if text = "8.8.8.8" then some 0x08080808 else none
  network text := if text = "10.0.0.0/8" then some fun ip => ip.toNat / 2 ^ 24 = 10 else none
  geo _ := none
  fromTokens := PostfixToken.onStack

end Script

open Script in
/-- A packet of host 1 is dropped or let through, and a trigger of host 1 builds the edge of the vault
or of the shop, by the order of the two services. -/
theorem verdict_by_order :
    sharedHost.Reordered (sharedHost.front ("stack", "shop")) ∧
    sharedHost.checkEgressDestination fewAddresses (host 1) "" "8.8.8.8" = .ok false ∧
    (sharedHost.front ("stack", "shop")).checkEgressDestination fewAddresses (host 1) "" "8.8.8.8" =
      .ok true ∧
    egressTrigger sharedHost (some (host 100)) 0 (host 1) "" =
      .ok (.call 0 "stack" "vault" (host 1) none (host 100)) ∧
    egressTrigger (sharedHost.front ("stack", "shop")) (some (host 100)) 0 (host 1) "" =
      .ok (.call 0 "stack" "shop" (host 1) none (host 100)) :=
  ⟨StackMap.reordered_front _ _, rfl, rfl, rfl, rfl⟩

end Nullnet.Server
