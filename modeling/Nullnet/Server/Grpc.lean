import Nullnet.Server.Requests

/-! # The steps of the server

`Grpc.step` puts the parts together: RPCs arrive, go on and are cancelled; builds and triggers go on;
hosts report their services and disconnect; the configuration changes; sessions expire and are torn
down. A step is one section under the lock on the services, or one action between sections. What the
hosts answer, when things happen, and in which order a hash map is iterated (`rehash`) is up to the
environment. -/

namespace Nullnet.Server

open Nullnet.Lib

/-- How long an edge must have been idle before it is released, in milliseconds. -/
def LIVENESS_REAP_DEBOUNCE : ℕ := 30000

/-- Move an entry of a hash map to the front. -/
inductive Rehash
  | stack (st : String)
  | service (k : ServiceKey)
  | client (x : Slot)
  | trigger (k : ServiceKey) (port : ℕ)
  | session (key : BackendKey)

/-! ## Sections that change services -/

namespace Ctx

/-- Move an entry of a hash map to the front. -/
def rehash (ctx : Ctx) : Rehash → Ctx
  | .stack st => { ctx with services := ctx.services.toFront st }
  | .service k => { ctx with services := ctx.services.modify k.1 (·.toFront k.2) }
  | .client x =>
    let move (reg : Registered) := reg.modifyClients x.replica (·.toFront x.client)
    { ctx with services := ctx.services.update x.service move }
  | .trigger k port =>
    let move (si : ServiceInfo) :=
      si.updateFromFile { si.config with triggers := si.config.triggers.toFront port }
    { ctx with services := ctx.services.modifyService k move }
  | .session key => { ctx with sessions := ctx.sessions.toFront key }

/-- Remove a stack that left the configuration. -/
def removeStack (ctx : Ctx) (st : String) : Ctx :=
  let names := ctx.services.namesWith st fun _ _ => true
  let ctx := ctx.applyChanges st (names.map .removed) none
  { ctx with services := ctx.services.erase st }

/-- Take over the loaded configuration of a stack. -/
def loadStack (now : ℕ) (ctx : Ctx) (st : String) (loaded : Dict String ServiceConfig) : Ctx :=
  let ctx := if st ∈ ctx.services then ctx else { ctx with services := ctx.services.insert st ∅ }
  ctx.applyChanges st (ctx.services.detectConfigChanges now st loaded) (some loaded)

/-- The replicas of services that are declared for another host. -/
def misplacedReplicas (ctx : Ctx) (st : String) (hosts : List (String × IpAddr)) :
    List ServiceChange :=
  hosts.flatMap fun h => match ctx.services.registered (st, h.1) with
    | some reg => (reg.replicas.keys.filter fun r => r.ip ≠ h.2).map fun r =>
        .replicaRemoved h.1 r.ip r.docker
    | none => []

/-- A new configuration is loaded: `denied` are the sessions that its filters deny, and `hosts` the
services of each stack that it declares for one host. -/
def configUpdate (now : ℕ) (ctx : Ctx) (loaded : Dict String (Dict String ServiceConfig))
    (denied : List (ServiceKey × Client)) (hosts : List (String × List (String × IpAddr))) : Ctx :=
  let gone := ctx.services.keys.filter fun st => (loaded.lookup st).isNone
  let ctx := gone.foldl removeStack ctx
  let ctx := loaded.entries.foldl (fun ctx e => ctx.loadStack now e.1 e.2) ctx
  let ctx := denied.foldl (fun ctx d =>
    ctx.applyChanges d.1.1 [.forceSessionTeardown d.1.2 d.2] none) ctx
  hosts.foldl (fun ctx h => ctx.applyChanges h.1 (ctx.misplacedReplicas h.1 h.2) none) ctx

def addReplica (ctx : Ctx) (k : ServiceKey) (r : ReplicaId) (port : ℕ) : Ctx :=
  { ctx with services := ctx.services.modifyService k (.addReplica r port) }

/-- A host reports the replicas it runs, by stack: name, port and container. -/
def servicesReport (ctx : Ctx) (senderIp : IpAddr)
    (report : Dict String (List (String × ℕ × Option String))) : Ctx :=
  let ctx := ctx.services.keys.foldl (fun ctx st =>
    ctx.applyChanges st (ctx.services.detectServicesListChanges st senderIp
      ((report.lookup st).getD [])) none) ctx
  report.entries.foldl (fun ctx e =>
    e.2.foldl (fun ctx l => ctx.addReplica (e.1, l.1) ⟨senderIp, l.2.2⟩ l.2.1) ctx) ctx

def nodeDisconnect (ctx : Ctx) (ip : IpAddr) : Ctx :=
  ctx.services.keys.foldl (fun ctx st =>
    ctx.applyChanges st (ctx.services.detectNodeDisconnectChanges st ip) none) ctx

/-- The proxy session with the given network: the service and the client. -/
def findSession (ctx : Ctx) (st : String) (netId : ℕ) : Option (String × Client) :=
  (ctx.services.lookup st).bind fun services => services.entries.findSome? fun e => match e.2 with
    | .registered reg => (reg.allClientsOwned.find? fun x =>
        x.client.isProxy && x.info.netId = netId).map fun x => (e.1, x.client)
    | .unregistered _ => none

def forceTeardown (ctx : Ctx) (st : String) (netId : ℕ) : Ctx :=
  match ctx.findSession st netId with
  | some (name, c) => ctx.applyChanges st [.forceSessionTeardown name c] none
  | none => ctx

/-- A candidate for a timeout is torn down if it is still idle. -/
def expire (now : ℕ) (ctx : Ctx) (k : ServiceKey) (c : Client) : Ctx :=
  if ctx.services.clientTimedOut now k c then
    ctx.applyChanges k.1 [.proxyClientTimedOut k.2 c] none
  else ctx

/-- The backend sessions that have been idle for long enough. -/
def dueBackendSessions (now debounce : ℕ) (ctx : Ctx) : List (BackendKey × String) :=
  (ctx.sessions.entries.filter fun e =>
    !e.2.building && e.2.idleSince.any fun since => debounce ≤ now - since).map fun e =>
      (e.1, e.2.stack)

/-- Release the holds of the backend sessions that are due. -/
def reapIdleBackendChains (now : ℕ) (ctx : Ctx) : Ctx :=
  let due := ctx.dueBackendSessions now LIVENESS_REAP_DEBOUNCE
  let ctx := due.foldl (fun ctx d => ctx.removeSession d.1) ctx
  due.foldl (fun ctx d => ctx.releaseBackendChain d.2 d.1) ctx

/-- A client reports that a trigger port has connections, or has none any more. -/
def setBackendLiveness (now : ℕ) (ctx : Ctx) (name : String) (port : ℕ) (senderIp : IpAddr)
    (container : Option String) (active : Bool) : Ctx :=
  match (ctx.services.findServiceStack name).bind fun st =>
      (ctx.services.registered (st, name)).bind (·.senderReplica senderIp container) with
  | some r => { ctx with sessions := ctx.sessions.modify ⟨name, r, port⟩ fun session =>
      { session with idleSince := if active then none else some now } }
  | none => ctx

end Ctx

/-! ## Steps -/

/-- The number of teardowns of a network that are dispatched and have not returned its id yet. -/
def outstanding (n : ℕ) : List Effect → ℕ
  | [] => 0
  | .netTeardown t :: log => (if t.netId = n then 1 else 0) + outstanding n log
  | .recycle m :: log => outstanding n log - if m = n then 1 else 0
  | _ :: log => outstanding n log

inductive Action
  | arrive (key : ProxyKey)
  | request (q : ℕ) (dedicated : Bool)
  | cancel (q : ℕ)
  | closeConnection (key : ProxyKey)
  | task (t : ℕ) (input : TaskInput)
  | finish (b : ℕ)
  | trigger (name : String) (port : ℕ) (senderIp : IpAddr) (container : Option String)
  | stepTrigger (t : ℕ) (ok : Bool)
  | liveness (name : String) (port : ℕ) (senderIp : IpAddr) (container : Option String)
      (active : Bool)
  | reapBackend
  | expire (k : ServiceKey) (c : Client)
  | forceTeardown (st : String) (netId : ℕ)
  | nodeDisconnect (ip : IpAddr)
  | servicesReport (senderIp : IpAddr) (report : Dict String (List (String × ℕ × Option String)))
  | configUpdate (loaded : Dict String (Dict String ServiceConfig))
      (denied : List (ServiceKey × Client)) (hosts : List (String × List (String × IpAddr)))
  | egressAllocate
  | egressTeardown (t : NetTeardown)
  | recycle (n : ℕ)
  | rehash (target : Rehash)
  | tick (ms : ℕ)

def Grpc.step (cfg : Settings) (s : Grpc) : Action → Option Grpc
  | .arrive key => some { s with
      requests := s.requests.insert s.nextId ⟨key, .queued⟩
      nextId := s.nextId + 1 }
  | .request q dedicated => s.stepRequest cfg q dedicated
  | .cancel q => if (s.requests.lookup q).isSome then
      some { s with requests := s.requests.erase q } else none
  | .closeConnection key => some (s.withProxyClient key (.closeConnection s.clock))
  | .task t input => s.stepTask cfg t input
  | .finish b => s.finishBuild b
  | .trigger name port senderIp container =>
    match s.trigger name port senderIp container with
    | .ok s => some s
    | .error _ => some s
  | .stepTrigger t ok => s.stepTrigger t ok
  | .liveness name port senderIp container active =>
    some (s.locked fun ctx => ctx.setBackendLiveness s.clock name port senderIp container active)
  | .reapBackend => some (s.locked fun ctx => ctx.reapIdleBackendChains s.clock)
  | .expire k c => some (s.locked fun ctx => ctx.expire s.clock k c)
  | .forceTeardown st netId => some (s.locked (·.forceTeardown st netId))
  | .nodeDisconnect ip => some (s.locked (·.nodeDisconnect ip))
  | .servicesReport senderIp report => some (s.locked (·.servicesReport senderIp report))
  | .configUpdate loaded denied hosts =>
    some (s.locked fun ctx => ctx.configUpdate s.clock loaded denied hosts)
  | .egressAllocate =>
    match s.pool.allocate cfg.net with
    | (some n, pool) =>
      some { s with pool := pool, egress := n :: s.egress, log := .allocate n :: s.log }
    | (none, _) => none
  | .egressTeardown t => if t.netId ∈ s.egress then
      some { s with egress := s.egress.erase t.netId, log := .netTeardown t :: s.log } else none
  | .recycle n => if 0 < outstanding n s.log then
      some { s with pool := s.pool.free cfg.net n, log := .recycle n :: s.log } else none
  | .rehash target => some (s.locked (·.rehash target))
  | .tick ms => some { s with clock := s.clock + ms }

end Nullnet.Server
