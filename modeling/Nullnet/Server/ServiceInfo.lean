import Mathlib.Data.List.MinMax
import Mathlib.Data.Prod.Lex
import Nullnet.Config.Filters
import Nullnet.Server.Clients

/-! # Services and their replicas

A service is declared in the configuration and registered once a host runs a replica of it. The
replicas are a vector in the source in which no identity occurs twice; here they are a map from
identities that keeps the order in which they were added.

Most operations look a client up across the replicas and act on the first replica that has it
(`Registered.find`). What they do is said by their effect on the entries (`Registered.entry`). -/

namespace Nullnet.Server

open Nullnet.Lib
open Nullnet.Config (FilterPolicy)

/-- What the configuration declares of a service. -/
structure ServiceConfig where
  /-- The branches of dependencies that a proxy-triggered chain brings up. -/
  proxyDeps : List (List String)
  /-- The peer to connect to on a trigger port. -/
  triggers : Dict ℕ String
  /-- The idle timeout in seconds; only an entry point has one. -/
  timeout : Option ℕ
  maxNetworks : Option ℕ
  egressPolicy : FilterPolicy := .none
  ingressPolicy : FilterPolicy := .none
  deriving DecidableEq

structure Replica where
  port : ℕ
  clients : Clients

structure Registered where
  config : ServiceConfig
  replicas : Dict ReplicaId Replica

inductive ServiceInfo
  | unregistered (config : ServiceConfig)
  | registered (reg : Registered)

namespace Registered

/-! ## Entries -/

def entry (reg : Registered) (r : ReplicaId) (c : Client) : Option ClientInfo :=
  (reg.replicas.lookup r).bind fun rep => rep.clients.lookup c

/-- The first replica on which the client has an entry that satisfies `p`. -/
def find (reg : Registered) (c : Client) (p : ClientInfo → Bool) : Option ReplicaId :=
  reg.replicas.first fun _ rep => (rep.clients.lookup c).any p

def modifyClients (reg : Registered) (r : ReplicaId) (f : Clients → Clients) : Registered :=
  { reg with replicas := reg.replicas.modify r fun rep => { rep with clients := f rep.clients } }

variable {reg : Registered} {r r' : ReplicaId} {c c' : Client} {p : ClientInfo → Bool}

theorem find_eq_some (h : reg.find c p = some r) :
    ∃ ci, reg.entry r c = some ci ∧ p ci := by
  obtain ⟨rep, hl, hp⟩ := Dict.first_eq_some h
  obtain ⟨ci, hc, hp⟩ := (Option.any_eq_true _ _).mp hp
  exact ⟨ci, by rw [entry, hl]; exact hc, hp⟩

theorem find_eq_none :
    reg.find c p = none ↔ ∀ r ci, reg.entry r c = some ci → p ci = false := by
  rw [find, Dict.first_eq_none]
  constructor
  · intro h r ci he
    obtain ⟨rep, hl, hc⟩ := Option.bind_eq_some_iff.mp he
    have := h r rep hl
    simpa [hc] using this
  · intro h r rep hl
    rw [Bool.eq_false_iff]
    intro ha
    obtain ⟨ci, hc, hp⟩ := (Option.any_eq_true _ _).mp ha
    have := h r ci (by rw [entry, hl]; exact hc)
    cases hp.symm.trans this

theorem entry_modifyClients (f : Clients → Clients) : (reg.modifyClients r f).entry r' c' =
      if r' = r then (reg.replicas.lookup r').bind fun rep => (f rep.clients).lookup c'
      else reg.entry r' c' := by
  simp only [entry, modifyClients, Dict.lookup_modify]
  split_ifs
  · rcases reg.replicas.lookup r' <;> rfl
  · rfl

def modifyEntry (reg : Registered) (r : ReplicaId) (c : Client) (f : ClientInfo → ClientInfo) :
    Registered :=
  reg.modifyClients r fun clients => clients.modify c f

def eraseEntry (reg : Registered) (r : ReplicaId) (c : Client) : Registered :=
  reg.modifyClients r fun clients => clients.erase c

theorem entry_modifyEntry (f : ClientInfo → ClientInfo) : (reg.modifyEntry r c f).entry r' c' =
      if r' = r ∧ c' = c then (reg.entry r' c').map f else reg.entry r' c' := by
  rw [modifyEntry, entry_modifyClients]
  by_cases hr : r' = r <;> by_cases hc : c' = c <;> simp [hr, hc, Dict.lookup_modify, entry]

theorem entry_eraseEntry :
    (reg.eraseEntry r c).entry r' c' = if r' = r ∧ c' = c then none else reg.entry r' c' := by
  rw [eraseEntry, entry_modifyClients]
  by_cases hr : r' = r <;> by_cases hc : c' = c <;> simp [hr, hc, Dict.lookup_erase, entry]

/-! ## Looking a client up -/

/-- The replica that has the client, reservations included. -/
def clientReplica (reg : Registered) (c : Client) : Option ReplicaId := reg.find c fun _ => true

/-- The replica on which the edge of the client is built. -/
def clientReplicaLive (reg : Registered) (c : Client) : Option ReplicaId :=
  reg.find c fun ci => !ci.isPending

theorem clientReplicaLive_of_first {ci : ClientInfo} (h : reg.clientReplica c = some r)
    (he : reg.entry r c = some ci) (hp : ci.isPending = false) :
    reg.clientReplicaLive c = some r := by
  obtain ⟨rep, hr, hc⟩ := Option.bind_eq_some_iff.mp he
  unfold clientReplica find at h
  unfold clientReplicaLive find
  refine Dict.first_of_imp (fun r rep hq => ?_) h hr (by simp [hc, hp])
  obtain ⟨ci, hc, -⟩ := (Option.any_eq_true _ _).mp hq
  simp [hc]

/-- The entry of the client, if its edge is built. -/
def clientInfo (reg : Registered) (c : Client) : Option ClientInfo :=
  (reg.clientReplicaLive c).bind fun r => reg.entry r c

/-- The net id of the client, if its edge is built. -/
def clientNetId (reg : Registered) (c : Client) : Option ℕ := (reg.clientInfo c).map (·.netId)

/-- The reservation of the client, if another task is building its edge. -/
def pendingNotify (reg : Registered) (c : Client) : Option Token :=
  (reg.find c (·.isPending)).bind fun r => (reg.entry r c).bind (·.pending)

/-- The address, port and pool generation that the proxy connects to. -/
structure Upstream where
  ip : Ipv4Addr
  port : ℕ
  poolGeneration : ℕ
  deriving DecidableEq

/-- The upstream of the client, if its edge is built. -/
def isClientSetup (reg : Registered) (c : Client) : Option Upstream :=
  (reg.clientReplicaLive c).bind fun r => (reg.replicas.lookup r).bind fun rep =>
    (rep.clients.lookup c).map fun ci => ⟨ci.serverNet, rep.port, ci.poolGeneration⟩

/-! ## Updates -/

def updateClient (reg : Registered) (c : Client) (f : ClientInfo → ClientInfo) : Registered :=
  match reg.clientReplica c with
  | some r => reg.modifyEntry r c f
  | none => reg

/-- One more chain goes through the edge of the client. -/
def addChain (now : ℕ) (reg : Registered) (c : Client) : Registered :=
  reg.updateClient c (.addActiveChain now)

def setLatestNow (now : ℕ) (reg : Registered) (c : Client) : Registered :=
  reg.updateClient c (.setLatestNow now)

def openConnection (now : ℕ) (reg : Registered) (c : Client) : Registered :=
  reg.updateClient c (.openConnection now)

def closeConnection (now : ℕ) (reg : Registered) (c : Client) : Registered :=
  reg.updateClient c (.closeConnection now)

/-- Insert an entry on a replica, if that replica is there. -/
def addClientToReplica (reg : Registered) (r : ReplicaId) (c : Client) (info : ClientInfo) :
    Option Registered :=
  match reg.replicas.lookup r with
  | some _ => some (reg.modifyClients r fun clients => clients.addClient c info)
  | none => none

theorem entry_addClientToReplica {reg' : Registered} {info : ClientInfo}
    (h : reg.addClientToReplica r c info = some reg') :
    reg'.entry r' c' = if r' = r ∧ c' = c then some (info.keepCounts (reg.entry r c))
      else reg.entry r' c' := by
  unfold addClientToReplica at h
  rcases hr : reg.replicas.lookup r with - | rep
  · simp [hr] at h
  · rw [hr, Option.some.injEq] at h
    rw [← h, entry_modifyClients]
    by_cases hr' : r' = r
    · subst hr'
      by_cases hc : c' = c <;> simp [hr, hc, Clients.addClient, Dict.lookup_insert, entry]
    · simp [hr']

def removeClient (reg : Registered) (c : Client) : Registered :=
  match reg.clientReplica c with
  | some r => reg.eraseEntry r c
  | none => reg

def removeClients (reg : Registered) (cs : List Client) : Registered := cs.foldl removeClient reg

/-- Remove the first reservation of the client. -/
def removePendingClient (reg : Registered) (c : Client) : Registered :=
  match reg.find c (·.isPending) with
  | some r => reg.eraseEntry r c
  | none => reg

/-- Release a reservation, if it is still the given one. -/
def removePendingClientIf (reg : Registered) (c : Client) (owner : Token) : Registered :=
  if reg.pendingNotify c = some owner then reg.removePendingClient c else reg

end Registered

/-- A network teardown, as it is dispatched to the endpoints. -/
structure NetTeardown where
  clientIp : IpAddr
  clientDocker : Option String
  serverIp : IpAddr
  serverDocker : Option String
  netId : ℕ
  group : Bool
  deriving DecidableEq

def ClientInfo.teardown (ci : ClientInfo) (r : ReplicaId) : NetTeardown :=
  ⟨ci.clientIp, ci.dockerContainer, r.ip, r.docker, ci.netId, ci.groupCarrier.isSome⟩

structure Placed where
  replica : ReplicaId
  port : ℕ
  client : Client
  info : ClientInfo
  deriving DecidableEq

namespace Registered

/-- One chain fewer goes through the edge of the client. At zero the entry is removed, and its
network is to be torn down. A reservation is left alone: its chain belongs to its builder. -/
def decrementChain (reg : Registered) (c : Client) : Registered × Option NetTeardown :=
  match reg.clientReplica c with
  | none => (reg, none)
  | some r =>
    match reg.entry r c with
    | none => (reg, none)
    | some ci =>
      if ci.isPending then (reg, none)
      else if (ci.removeActiveChains 1).activeChains = 0 then
        (reg.eraseEntry r c, some (ci.teardown r))
      else (reg.modifyEntry r c (.removeActiveChains 1), none)

/-- `decrementChain` decrements: the first entry of the client is a built edge. -/
def holdsChain (reg : Registered) (c : Client) : Bool :=
  ((reg.clientReplica c).bind fun r => reg.entry r c).any fun ci => !ci.isPending

theorem decrementChain_cases (reg : Registered) (c : Client) :
    (reg.decrementChain c = (reg, none) ∧ reg.holdsChain c = false) ∨
    ∃ r ci, reg.clientReplica c = some r ∧ reg.entry r c = some ci ∧ ci.isPending = false ∧
      (1 < ci.activeChains ∧
          reg.decrementChain c = (reg.modifyEntry r c (.removeActiveChains 1), none) ∨
        ci.activeChains ≤ 1 ∧ reg.decrementChain c = (reg.eraseEntry r c, some (ci.teardown r))) := by
  unfold decrementChain holdsChain
  rcases hr : reg.clientReplica c with - | r
  · exact .inl ⟨rfl, rfl⟩
  · rcases he : reg.entry r c with - | ci
    · exact .inl ⟨by simp [he], by simp [he]⟩
    · rcases hp : ci.isPending with - | -
      · refine .inr ⟨r, ci, rfl, he, hp, ?_⟩
        by_cases hn : (ci.removeActiveChains 1).activeChains = 0
        · refine .inr ⟨?_, by simp [he, hp, hn]⟩
          have : ci.activeChains - 1 = 0 := hn
          omega
        · refine .inl ⟨?_, by simp [he, hp, hn]⟩
          have : ci.activeChains - 1 ≠ 0 := hn
          omega
      · exact .inl ⟨by simp [he, hp], by simp [he, hp]⟩

/-! ## Counting and choosing -/

def placed (reg : Registered) : List Placed :=
  reg.replicas.entries.flatMap fun e => e.2.clients.entries.map fun x =>
    ⟨e.1, e.2.port, x.1, x.2⟩

def proxyClientsCount (reg : Registered) : ℕ := reg.placed.countP fun x => x.client.isProxy

/-- How many proxy clients have a network that was not forced on them by a limit. -/
def dedicatedProxyNetworksCount (reg : Registered) : ℕ :=
  reg.placed.countP fun x => x.client.isProxy && !x.info.policy

/-- The carriers of the clients behind a proxy, one for each client. -/
def groupCarriers (reg : Registered) (proxyIp : IpAddr) : List ℕ :=
  (reg.placed.filter fun x => x.client.proxy = some proxyIp).filterMap (·.info.groupCarrier)

/-- The least-loaded carrier behind a proxy. -/
def groupCarrier (reg : Registered) (proxyIp : IpAddr) : Option ℕ :=
  let carriers := reg.groupCarriers proxyIp
  carriers.argmin fun carrier => toLex (carriers.count carrier, carrier)

/-- The network with the fewest clients behind a proxy, as the first entry that has it. -/
def findReusableNetworkOnProxy (reg : Registered) (proxyIp : IpAddr) : Option Placed :=
  let networks := reg.placed.filter fun x =>
    x.client.proxy = some proxyIp && x.info.serverNet ≠ 0
  networks.argmin fun x =>
    toLex (networks.countP fun y => y.info.netId = x.info.netId, x.info.netId)

def hasClientsWithNetId (reg : Registered) (netId : ℕ) : Bool :=
  reg.placed.any fun x => x.info.netId = netId

def pickReplicaLeastClients (reg : Registered) : Option ReplicaId :=
  (reg.replicas.entries.argmin fun e => e.2.clients.entries.length).map Sigma.fst

def allClientsOwned (reg : Registered) : List Placed :=
  reg.placed.filter fun x => !x.info.isPending

/-- The replicas of other services with a built edge to a replica that satisfies `p`:
`service_clients_on_ip` and `service_clients_on_replica`. -/
def serviceClientsOn (reg : Registered) (p : ReplicaId → Bool) : List Client :=
  (reg.placed.filter fun x => p x.replica && !x.client.isProxy && !x.info.isPending).map (·.client)

/-- The proxy clients that have been idle for `timeout`. -/
def expiredProxyClients (now timeout : ℕ) (reg : Registered) : List Client :=
  (reg.placed.filter fun x => x.client.isProxy && x.info.idleExpired now timeout).map (·.client)

/-- The proxy client has been idle for `timeout`. -/
def proxyClientExpired (now timeout : ℕ) (reg : Registered) (c : Client) : Bool :=
  c.isProxy && (reg.clientInfo c).any (·.idleExpired now timeout)

def hasProxyClient (reg : Registered) (proxyIp : IpAddr) : Bool :=
  reg.placed.any fun x => x.client.proxy = some proxyIp

def hasReplicaOnIp (reg : Registered) (ip : IpAddr) : Bool :=
  reg.replicas.entries.any fun e => e.1.ip = ip

variable {reg : Registered}

theorem entry_of_mem_placed {x : Placed} (h : x ∈ reg.placed) :
    reg.entry x.replica x.client = some x.info := by
  simp only [placed, List.mem_flatMap, List.mem_map] at h
  obtain ⟨⟨r, rep⟩, hr, ⟨c, ci⟩, hc, rfl⟩ := h
  rw [entry, Dict.lookup_eq_some.mpr hr]
  exact Dict.lookup_eq_some.mpr hc

theorem exists_mem_placed {r : ReplicaId} {c : Client} {ci : ClientInfo}
    (h : reg.entry r c = some ci) : ∃ port, ⟨r, port, c, ci⟩ ∈ reg.placed := by
  obtain ⟨rep, hr, hc⟩ := Option.bind_eq_some_iff.mp h
  refine ⟨rep.port, List.mem_flatMap.mpr ⟨⟨r, rep⟩, Dict.mem_of_lookup hr, ?_⟩⟩
  exact List.mem_map.mpr ⟨⟨c, ci⟩, Dict.mem_of_lookup hc, rfl⟩

theorem hasClientsWithNetId_eq_true {n : ℕ} :
    reg.hasClientsWithNetId n = true ↔ ∃ r c ci, reg.entry r c = some ci ∧ ci.netId = n := by
  simp only [hasClientsWithNetId, List.any_eq_true, decide_eq_true_eq]
  constructor
  · rintro ⟨x, hx, hn⟩
    exact ⟨x.replica, x.client, x.info, entry_of_mem_placed hx, hn⟩
  · rintro ⟨r, c, ci, he, hn⟩
    obtain ⟨port, hm⟩ := exists_mem_placed he
    exact ⟨_, hm, hn⟩

end Registered

/-! ## Services -/

namespace ServiceInfo

/-- What the configuration declares of the service. -/
def config : ServiceInfo → ServiceConfig
  | unregistered config => config
  | registered reg => reg.config

def unregister (si : ServiceInfo) : ServiceInfo := .unregistered si.config

/-- A replica is reported: a new one is added at the end, a known one gets the port. -/
def addReplica (r : ReplicaId) (port : ℕ) : ServiceInfo → ServiceInfo
  | unregistered config =>
    .registered ⟨config, (∅ : Dict ReplicaId Replica).push r ⟨port, ∅⟩⟩
  | registered reg =>
    if r ∈ reg.replicas then
      .registered { reg with replicas := reg.replicas.modify r fun rep => { rep with port := port } }
    else .registered { reg with replicas := reg.replicas.push r ⟨port, ∅⟩ }

/-- Drop replicas: `remove_replicas_on_ip` and `remove_replica`. -/
def dropReplicas (p : ReplicaId → Bool) : ServiceInfo → ServiceInfo
  | unregistered config => .unregistered config
  | registered reg =>
    let replicas := reg.replicas.retain fun r _ => !p r
    if replicas.entries.isEmpty then .unregistered reg.config
    else .registered { reg with replicas := replicas }

def updateFromFile (loaded : ServiceConfig) : ServiceInfo → ServiceInfo
  | unregistered _ => .unregistered loaded
  | registered reg => .registered { reg with config := loaded }

def entry (si : ServiceInfo) (r : ReplicaId) (c : Client) : Option ClientInfo :=
  match si with
  | unregistered _ => none
  | registered reg => reg.entry r c

variable {si : ServiceInfo} {r : ReplicaId} {c : Client}

@[simp] theorem entry_unregister : si.unregister.entry r c = none := rfl

@[simp] theorem entry_unregistered (config : ServiceConfig) :
    (unregistered config).entry r c = none := rfl

@[simp] theorem entry_updateFromFile (loaded : ServiceConfig) :
    (si.updateFromFile loaded).entry r c = si.entry r c := by
  rcases si with - | - <;> rfl

@[simp] theorem entry_addReplica (r' : ReplicaId) (port : ℕ) :
    (si.addReplica r' port).entry r c = si.entry r c := by
  have hnew : ∀ replicas : Dict ReplicaId Replica, r' ∉ replicas →
      ((replicas.push r' ⟨port, ∅⟩).lookup r).bind (fun rep => rep.clients.lookup c) =
        (replicas.lookup r).bind fun rep => rep.clients.lookup c := by
    intro replicas hn
    by_cases hr : r = r'
    · have hl : replicas.lookup r' = none := AList.lookup_eq_none.mpr hn
      rw [hr, Dict.lookup_push_self hn, hl]
      rfl
    · rw [Dict.lookup_push_ne hr]
  rcases si with config | reg
  · exact hnew ∅ (AList.notMem_empty r')
  · unfold addReplica
    dsimp only
    split_ifs with h
    · simp only [entry, Registered.entry, Dict.lookup_modify]
      split_ifs
      · rcases reg.replicas.lookup r <;> rfl
      · rfl
    · exact hnew reg.replicas h

theorem entry_dropReplicas (p : ReplicaId → Bool) :
    (si.dropReplicas p).entry r c = if p r then none else si.entry r c := by
  rcases si with config | reg
  · simp [dropReplicas, entry]
  · have hret : ((reg.replicas.retain fun r _ => !p r).lookup r).bind
        (fun rep => rep.clients.lookup c) = if p r then none else reg.entry r c := by
      rw [Dict.lookup_retain, Registered.entry]
      rcases reg.replicas.lookup r with - | rep <;> by_cases hp : p r <;>
        simp [hp, Option.filter]
    unfold dropReplicas
    dsimp only
    split_ifs with hempty hp hp
    · rfl
    · -- nothing is left, so there was no entry on a kept replica
      rw [if_neg hp] at hret
      have hnil : (reg.replicas.retain fun r _ => !p r).lookup r = none := by
        rw [AList.lookup_eq_none]
        intro hm
        rw [List.isEmpty_iff] at hempty
        have := AList.mem_keys.mp hm
        simp [AList.keys, hempty] at this
      rw [hnil] at hret
      exact hret
    · exact hret.trans (if_pos hp)
    · exact hret.trans (if_neg hp)

/-- Some dependency of the service is `other`. -/
def depsContain (si : ServiceInfo) (other : String) : Bool :=
  si.config.proxyDeps.flatten.contains other || si.config.triggers.values.contains other

end ServiceInfo

end Nullnet.Server
