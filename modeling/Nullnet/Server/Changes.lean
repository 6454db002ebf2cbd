import Nullnet.Server.Stacks

/-! # Changes to services and the teardown of chains

A change (a service leaves the configuration, a host disconnects, a session expires, …) tears down
chains: it releases the edges that the chains go through, and dispatches the teardown of a network
when its last user is gone. All of this runs under the lock on the services, on the state `Ctx`: the
services, the backend sessions, and the log of the effects so far.

A chain is a proxy session, that is, an entry of a proxy client, together with the edges that its
dependency walk passes through (`collectDepChainEdges`). A backend chain is one edge that a trigger
port brought up; the backend session of that port holds one chain count on it. -/

namespace Nullnet.Server

open Nullnet.Lib

structure BackendKey where
  service : String
  replica : ReplicaId
  port : ℕ
  deriving DecidableEq

structure BackendSession where
  generation : ℕ
  building : Bool
  stack : String
  idleSince : Option ℕ
  deriving DecidableEq

/-- The session up to the time since when it is idle. -/
def BackendSession.claim (session : BackendSession) : BackendSession :=
  { session with idleSince := none }

abbrev BackendSessions := Dict BackendKey BackendSession

/-- What leaves the services: requests to the hosts, rows of the session history, and calls that the
results are about. -/
inductive Effect
  /-- A network id is taken from the pool. -/
  | allocate (netId : ℕ)
  /-- The teardown of a network is dispatched. -/
  | netTeardown (t : NetTeardown)
  /-- The id of a network that is torn down returns to the pool. -/
  | recycle (netId : ℕ)
  /-- The history row of a proxy session is opened. -/
  | openIngress (service : ServiceKey) (netId : ℕ) (peer : String) (clientNet serverNet : Ipv4Addr)
      (proxyIp : IpAddr) (setupMs : ℕ)
  /-- The history row of a proxy session is closed. -/
  | closeIngress (netId : ℕ) (service : String) (peer : String)
  /-- The count of an edge is decremented for a trigger port. -/
  | triggerDecrement (key : BackendKey)
  /-- A backend session is removed. -/
  | sessionRemoved (key : BackendKey) (building : Bool)
  deriving DecidableEq

/-- The state behind the lock on the services; the log has the newest effect first. -/
structure Ctx where
  services : StackMap
  sessions : BackendSessions
  log : List Effect

inductive ServiceChange
  | removed (name : String)
  | proxyDepsChanged (name : String)
  | triggersChanged (name : String)
  | reachabilityChanged (name : String) (nowReachable : Bool)
  | replicasRemoved (name : String) (ip : IpAddr)
  | replicaRemoved (name : String) (ip : IpAddr) (dockerContainer : Option String)
  | proxyDisconnected (ip : IpAddr)
  | proxyClientTimedOut (name : String) (client : Client)
  | staleSessionEvicted (name : String) (client : Client)
  | forceSessionTeardown (name : String) (client : Client)
  deriving DecidableEq

/-- Which proxy clients of a service are torn down. -/
inductive ProxyFilter
  | all
  | byIp (ip : IpAddr)
  | byClient (c : Client)
  | onReplica (r : ReplicaId)
  | onIp (ip : IpAddr)

/-- The filter selects the client on the replica. -/
def ProxyFilter.matches (f : ProxyFilter) (c : Client) (r : ReplicaId) : Bool :=
  c.isProxy && match f with
    | .all => true
    | .byIp ip => c.proxy = some ip
    | .byClient c' => c = c'
    | .onReplica r' => r = r'
    | .onIp ip => r.ip = ip

/-! ## Dependency walks -/

namespace StackMap

/-- Walk one branch of dependencies from a replica: each hop goes to the replica on which the edge
of the one before is built. The first edge that is missing is still part of the walk. -/
def walkBranch (m : StackMap) (st : String) : String → ReplicaId → List String →
    List (Client × String)
  | _, _, [] => []
  | name, r, dep :: rest =>
    (.newService name r, dep) ::
      match m.clientReplicaLive (st, dep) (.newService name r) with
      | some r' => m.walkBranch st dep r' rest
      | none => []

/-- The edges that a chain from this replica goes through. -/
def collectDepChainEdges (m : StackMap) (st name : String) (r : ReplicaId) :
    List (Client × String) :=
  match m.config (st, name) with
  | some config => config.proxyDeps.flatMap (m.walkBranch st name r)
  | none => []

def depChainIntact (m : StackMap) (st name : String) (r : ReplicaId) : Bool :=
  (m.collectDepChainEdges st name r).all fun e =>
    (m.clientReplicaLive (st, e.2) e.1).isSome

/-- Some edge of the chain is being built. -/
def depChainHasPending (m : StackMap) (st name : String) (r : ReplicaId) : Bool :=
  (m.collectDepChainEdges st name r).any fun e =>
    ((m.registered (st, e.2)).bind fun reg => reg.pendingNotify e.1).isSome

/-- The trigger ports of a service that match the filters, with their peers. -/
def matchingTriggers (m : StackMap) (st name : String) (onlyThrough : Option String)
    (onlyPort : Option ℕ) : List (Σ _ : ℕ, String) :=
  match m.config (st, name) with
  | some config => config.triggers.entries.filter fun e =>
      onlyPort.all (e.1 = ·) && onlyThrough.all (e.2 = ·)
  | none => []

end StackMap

namespace Ctx

def emit (ctx : Ctx) (e : Effect) : Ctx := { ctx with log := e :: ctx.log }

def removeSession (ctx : Ctx) (key : BackendKey) : Ctx :=
  match ctx.sessions.lookup key with
  | some s =>
    { ctx with sessions := ctx.sessions.erase key, log := .sessionRemoved key s.building :: ctx.log }
  | none => ctx

/-- `decrement_chain` on a service. -/
def decrementChain (ctx : Ctx) (k : ServiceKey) (c : Client) : Ctx :=
  let t := (ctx.services.registered k).bind fun reg => (reg.decrementChain c).2
  { ctx with
    services := ctx.services.update k fun reg => (reg.decrementChain c).1
    log := (t.map Effect.netTeardown).toList ++ ctx.log }

/-! ## Tearing down proxy chains -/

/-- Release the edges of the chain that starts at this replica. -/
def teardownDepChain (ctx : Ctx) (st name : String) (r : ReplicaId) : Ctx :=
  (ctx.services.collectDepChainEdges st name r).foldl
    (fun ctx e => ctx.decrementChain (st, e.2) e.1) ctx

/-- Dispatch the teardown of the networks that no client of the service has any more, once each. -/
def teardownUnshared (ctx : Ctx) (k : ServiceKey) : List Placed → List ℕ → Ctx
  | [], _ => ctx
  | x :: xs, seen =>
    if x.info.netId ∈ seen then ctx.teardownUnshared k xs seen
    else if (ctx.services.registered k).any (·.hasClientsWithNetId x.info.netId) then
      ctx.teardownUnshared k xs (x.info.netId :: seen)
    else (ctx.emit (.netTeardown (x.info.teardown x.replica))).teardownUnshared k xs
      (x.info.netId :: seen)

/-- Remove the entries of proxy clients, close their history rows, and tear down the networks that
nobody shares. -/
def removeProxyClients (ctx : Ctx) (k : ServiceKey) (torn : List Placed) : Ctx :=
  let ctx := { ctx with services := ctx.services.update k (·.removeClients (torn.map Placed.client)) }
  let ctx := torn.foldl (fun ctx x => ctx.emit (.closeIngress x.info.netId k.2 x.client.name)) ctx
  ctx.teardownUnshared k torn []

/-- Tear down the chains of the proxy clients that the filter selects. -/
def teardownChain (ctx : Ctx) (st name : String) (filter : ProxyFilter) : Ctx :=
  match ctx.services.registered (st, name) with
  | none => ctx
  | some reg =>
    let torn := reg.allClientsOwned.filter fun x => filter.matches x.client x.replica
    let ctx := torn.foldl (fun ctx x => ctx.teardownDepChain st name x.replica) ctx
    ctx.removeProxyClients (st, name) torn

/-! ## Tearing down backend chains -/

def isBuilding (ctx : Ctx) (key : BackendKey) : Bool :=
  (ctx.sessions.lookup key).any (·.building)

/-- Invalidate the builds of the ports (`cancel_backend_build`), and keep the ports that have no build
under way: those are to be released here, the others by the unwind of their build. -/
def cancelBuilds (ctx : Ctx) (name : String) (r : ReplicaId) :
    List (Σ _ : ℕ, String) → List (Σ _ : ℕ, String) × Ctx
  | [] => ([], ctx)
  | e :: es =>
    if ctx.isBuilding ⟨name, r, e.1⟩ then (ctx.removeSession ⟨name, r, e.1⟩).cancelBuilds name r es
    else
      let rest := ctx.cancelBuilds name r es
      (e :: rest.1, rest.2)

def releaseTrigger (ctx : Ctx) (st name : String) (r : ReplicaId) (e : Σ _ : ℕ, String) : Ctx :=
  let c := Client.newService name r
  let ctx := if (ctx.services.registered (st, e.2)).any (·.holdsChain c) then
    ctx.emit (.triggerDecrement ⟨name, r, e.1⟩) else ctx
  ctx.decrementChain (st, e.2) c

/-- Release the edges of matching trigger ports of a replica, and their sessions. -/
def teardownBackendChain (ctx : Ctx) (st name : String) (r : ReplicaId)
    (onlyThrough : Option String) (onlyPort : Option ℕ) : Ctx :=
  let ports := ctx.services.matchingTriggers st name onlyThrough onlyPort
  let cancelled := ctx.cancelBuilds name r ports
  let ctx := cancelled.1.foldl (fun ctx e => ctx.releaseTrigger st name r e) cancelled.2
  ports.foldl (fun ctx e => ctx.removeSession ⟨name, r, e.1⟩) ctx

/-- Release the hold of a trigger port whose connections are gone. -/
def releaseBackendChain (ctx : Ctx) (st : String) (key : BackendKey) : Ctx :=
  ctx.teardownBackendChain st key.service key.replica none (some key.port)

/-- Tear down the backend chains of all replicas of a service. -/
def teardownAllBackendChainsFor (ctx : Ctx) (st name : String) (onlyThrough : Option String) :
    Ctx :=
  match ctx.services.registered (st, name) with
  | some reg => reg.replicas.keys.foldl
      (fun ctx r => ctx.teardownBackendChain st name r onlyThrough none) ctx
  | none => ctx

/-! ## Applying changes -/

/-- Tear down the chains of a service and the chains of others that go through it; a service that
has failed loses its replicas. -/
def teardownInvalidatedService (ctx : Ctx) (st name : String) (isFailed : Bool) : Ctx :=
  let names := ctx.services.namesWith st fun other si =>
    name = other || match si with
      | .registered _ => si.depsContain name
      | .unregistered _ => false
  let ctx := names.foldl (fun ctx other =>
    let ctx := ctx.teardownChain st other .all
    ctx.teardownAllBackendChainsFor st other (if other = name then none else some name)) ctx
  if isFailed then { ctx with services := ctx.services.modifyService (st, name) .unregister }
  else ctx

/-- Tear down the chains through the replicas of a service that satisfy `p` and are selected by the
filter. -/
def teardownPartialReplicas (ctx : Ctx) (st name : String) (p : ReplicaId → Bool)
    (filter : ProxyFilter) : Ctx :=
  match ctx.services.registered (st, name) with
  | none => ctx
  | some reg =>
    let affected := reg.serviceClientsOn p
    let ctx := affected.foldl (fun ctx c =>
      match c.replica with
      | some src =>
        let ctx := ctx.teardownChain st c.name (.onReplica src)
        ctx.teardownBackendChain st c.name src (some name) none
      | none => ctx) ctx
    ctx.teardownChain st name filter

/-- Some replicas of a service are gone, and not all of them. -/
def removeSomeReplicas (ctx : Ctx) (st name : String) (p : ReplicaId → Bool)
    (filter : ProxyFilter) (gone : List ReplicaId) : Ctx :=
  let ctx := gone.foldl (fun ctx r => ctx.teardownBackendChain st name r none none) ctx
  let ctx := ctx.teardownPartialReplicas st name p filter
  { ctx with services := ctx.services.modifyService (st, name) (.dropReplicas p) }

def applyChange (ctx : Ctx) (st : String) : ServiceChange → Ctx
  | .removed name =>
    let ctx := ctx.teardownInvalidatedService st name true
    { ctx with services := ctx.services.eraseService (st, name) }
  | .proxyDepsChanged name => ctx.teardownInvalidatedService st name false
  | .triggersChanged name => ctx.teardownAllBackendChainsFor st name none
  | .reachabilityChanged name _ =>
    let ctx := ctx.teardownChain st name .all
    ctx.teardownAllBackendChainsFor st name none
  | .replicasRemoved name ip =>
    let replicas := ((ctx.services.registered (st, name)).map (·.replicas.keys)).getD []
    let isLast := (ctx.services.registered (st, name)).isSome && replicas.all (·.ip = ip)
    if isLast then ctx.teardownInvalidatedService st name true
    else ctx.removeSomeReplicas st name (fun r => r.ip = ip) (.onIp ip)
      (replicas.filter fun r => r.ip = ip)
  | .replicaRemoved name ip docker =>
    let isLast := (ctx.services.registered (st, name)).any fun reg =>
      reg.replicas.entries.length = 1
    if isLast then ctx.teardownInvalidatedService st name true
    else ctx.removeSomeReplicas st name (fun r => r = ⟨ip, docker⟩) (.onReplica ⟨ip, docker⟩)
      [⟨ip, docker⟩]
  | .proxyDisconnected ip =>
    (ctx.services.namesWith st fun _ si => match si with
      | .registered reg => reg.hasProxyClient ip
      | .unregistered _ => false).foldl (fun ctx name => ctx.teardownChain st name (.byIp ip)) ctx
  | .proxyClientTimedOut name c => ctx.teardownChain st name (.byClient c)
  | .staleSessionEvicted name c => ctx.teardownChain st name (.byClient c)
  | .forceSessionTeardown name c => ctx.teardownChain st name (.byClient c)

/-- Take over the loaded configuration of a stack: existing services are updated, new ones are
inserted. -/
def mergeLoaded (ctx : Ctx) (st : String) (loaded : Dict String ServiceConfig) : Ctx :=
  loaded.entries.foldl (fun ctx e =>
    if (ctx.services.service (st, e.1)).isSome then
      { ctx with services := ctx.services.modifyService (st, e.1) (.updateFromFile e.2) }
    else { ctx with services := ctx.services.insertService (st, e.1) (.unregistered e.2) }) ctx

/-- Apply a list of changes, and then take over the loaded configuration, if there is one. -/
def applyChanges (ctx : Ctx) (st : String) (changes : List ServiceChange)
    (loaded : Option (Dict String ServiceConfig)) : Ctx :=
  let ctx := changes.foldl (fun ctx change => ctx.applyChange st change) ctx
  match loaded with
  | some loaded => ctx.mergeLoaded st loaded
  | none => ctx

end Ctx

/-! ## Detecting changes -/

namespace StackMap

/-- What a loaded configuration of a service changes. -/
def detectServiceChanges (now : ℕ) (old : ServiceInfo) (name : String) (loaded : ServiceConfig) :
    List ServiceChange :=
  (if loaded.timeout.isSome && loaded.proxyDeps ≠ old.config.proxyDeps then
    [.proxyDepsChanged name] else []) ++
  (if ¬loaded.triggers.entries.Perm old.config.triggers.entries then
    [.triggersChanged name] else []) ++
  (if loaded.timeout.isSome ≠ old.config.timeout.isSome then
    [.reachabilityChanged name loaded.timeout.isSome]
  else match loaded.timeout, old.config.timeout, old with
    | some new, some old, .registered reg =>
      if new ≠ old ∧ 0 < new ∧ (old = 0 ∨ new < old) then
        (reg.expiredProxyClients now (new * 1000)).map (.proxyClientTimedOut name)
      else []
    | _, _, _ => [])

/-- What a loaded configuration of a stack changes. -/
def detectConfigChanges (now : ℕ) (m : StackMap) (st : String)
    (loaded : Dict String ServiceConfig) : List ServiceChange :=
  (m.namesWith st fun name _ => (loaded.lookup name).isNone).map .removed ++
  loaded.entries.flatMap fun e =>
    match m.service (st, e.1) with
    | some old => detectServiceChanges now old e.1 e.2
    | none => []

/-- The replicas on a host that it does not list any more. -/
def detectServicesListChanges (m : StackMap) (st : String) (senderIp : IpAddr)
    (list : List (String × ℕ × Option String)) : List ServiceChange :=
  ((m.lookup st).map fun services => services.entries.flatMap fun e => match e.2 with
    | .registered reg =>
      (reg.replicas.keys.filter fun r =>
        r.ip = senderIp && !list.any fun l => l.1 = e.1 && l.2.2 = r.docker).map fun r =>
          .replicaRemoved e.1 senderIp r.docker
    | .unregistered _ => []).getD []

/-- The replicas and the proxy sessions of a host that disconnected. -/
def detectNodeDisconnectChanges (m : StackMap) (st : String) (ip : IpAddr) : List ServiceChange :=
  (m.namesWith st fun _ si => match si with
    | .registered reg => reg.hasReplicaOnIp ip
    | .unregistered _ => false).map (.replicasRemoved · ip) ++
  if (m.namesWith st fun _ si => match si with
    | .registered reg => reg.hasProxyClient ip
    | .unregistered _ => false).isEmpty then []
  else [.proxyDisconnected ip]

/-- The proxy client has been idle for the timeout of the service, and its chain is settled. -/
def clientTimedOut (now : ℕ) (m : StackMap) (k : ServiceKey) (c : Client) : Bool :=
  (m.registered k).any fun reg => reg.config.timeout.any fun timeout =>
    timeout ≠ 0 && reg.proxyClientExpired now (timeout * 1000) c &&
      !(reg.clientReplica c).any fun r => m.depChainHasPending k.1 k.2 r

end StackMap

end Nullnet.Server
