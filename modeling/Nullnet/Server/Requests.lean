import Nullnet.Server.Chain

/-! # Proxy requests and backend triggers

`Grpc.stepRequest` is one step of `handle_proxy_request`: a client that already has a session with
an intact chain gets its upstream; a stale session is evicted; beyond the limit on networks the
client shares the network of another one (`Ctx.share`); otherwise a chain is built. `Grpc.trigger` is
the locked section of `handle_backend_trigger`, and `Grpc.stepTrigger` a step of the task that it
detaches. -/

namespace Nullnet.Server

open Nullnet.Lib

/-! ## Sharing a network -/

/-- The network that a new client of the service shares, once the service has as many proxy clients
as its limit: the least used one behind the proxy of the client. -/
def Ctx.shareTarget (ctx : Ctx) (st : String) (key : ProxyKey) : Option Placed :=
  (ctx.services.registered (st, key.service)).bind fun reg =>
    reg.config.maxNetworks.bind fun max =>
      if reg.proxyClientsCount < max then none
      else reg.findReusableNetworkOnProxy key.proxyIp

/-- The entry of a client that shares a network. -/
def Placed.sharing (shared : Placed) (now : ℕ) (proxyIp : IpAddr) : ClientInfo :=
  .withPoolGeneration now proxyIp shared.info.clientNet shared.info.serverNet shared.info.netId
    shared.info.timeMs none shared.info.poolGeneration

def Registered.addSharing (reg : Registered) (now : ℕ) (key : ProxyKey) (shared : Placed) :
    Registered :=
  ((reg.addClientToReplica shared.replica key.client (shared.sharing now key.proxyIp)).getD
    reg).addChain now key.client

/-- Let a client share a network. The chain of the network gets one more user. -/
def Ctx.share (ctx : Ctx) (now : ℕ) (st : String) (key : ProxyKey) :
    Option (Ctx × Registered.Upstream) :=
  (ctx.shareTarget st key).map fun shared =>
    let k := (st, key.service)
    let services := ctx.services.update k (·.addSharing now key shared)
    let services := (services.collectDepChainEdges st key.service shared.replica).foldl
      (fun m e => m.update (st, e.2) (·.addChain now e.1)) services
    ({ ctx with services := services }.emit (.openIngress k shared.info.netId key.clientIp
        shared.info.clientNet shared.info.serverNet key.proxyIp shared.info.timeMs),
      ⟨shared.info.serverNet, shared.port, shared.info.poolGeneration⟩)

def Registered.limits (reg : Registered) : Limits :=
  ⟨reg.config.maxNetworks, reg.dedicatedProxyNetworksCount⟩

def ProxyKey.entryJob (key : ProxyKey) (st : String) (r : ReplicaId)
    (policy admission : Bool) : EdgeJob where
  stack := st
  clientEthernet := key.proxyIp
  client := key.client
  clientDocker := none
  serverName := key.service
  target := .fixed r
  backendEntryPort := none
  policy := policy
  admission := admission

/-- The replica of a service that a host (and container) reports for. -/
def Registered.senderReplica (reg : Registered) (senderIp : IpAddr)
    (container : Option String) : Option ReplicaId :=
  match container with
  | some c => reg.replicas.first fun r _ => r = ⟨senderIp, some c⟩
  | none => reg.replicas.first fun r _ => r.ip = senderIp

namespace Grpc

/-! ## Proxy requests -/

def setPhase (s : Grpc) (q : ℕ) (phase : RequestPhase) : Grpc :=
  { s with requests := s.requests.modify q fun req => { req with phase := phase } }

/-- The admissions to dedicated networks of a service that are not reserved yet. -/
def admissions (s : Grpc) (k : ServiceKey) : ℕ :=
  (s.requests.entries.countP fun e => match e.2.phase with
    | .spawning st _ _ _ _ admission => admission && (st, e.2.key.service) = k
    | _ => false) +
  s.tasks.entries.countP fun e => e.2.job.admission && e.2.job.service = k

/-- What the handler panics with when a service disappears between two of its reads. -/
def panicked : String := "panicked"

/-- Serve a client from the service info that was read: an existing session is checked first. -/
def readService (s : Grpc) (q : ℕ) (st : String) (key : ProxyKey) : Grpc :=
  match s.services.service (st, key.service) with
  | none => s.setPhase q (.returned (.error panicked))
  | some si =>
    if si.config.timeout.isNone then
      s.setPhase q (.returned (.error "Service is not a configured entry point"))
    else match si with
      | .unregistered _ => s.setPhase q (.returned (.error "Service is not registered"))
      | .registered reg =>
        match reg.isClientSetup key.client with
        | some upstream => s.setPhase q (.checking st upstream (reg.clientReplica key.client))
        | none => s.setPhase q (.sharing st reg.limits)

def pickProxyReplica (s : Grpc) (st name : String) : Except String ReplicaId :=
  if (s.services.lookup st).isNone then .error "Stack not found"
  else match s.services.registered (st, name) with
    | none => .error "Service is not registered"
    | some reg =>
      match reg.pickReplicaLeastClients with
      | none => .error "Service has no replicas"
      | some r => .ok r

/-- Decide whether the new session may have a dedicated network. -/
def dedicatedAdmission (cfg : Settings) (s : Grpc) (q : ℕ) (st name : String) (limits : Limits)
    (attempt : ℕ) (r : ReplicaId) (dedicated : Bool) : Grpc :=
  let admission := limits.maxNetworks.any fun max =>
    limits.dedicatedCount + s.admissions (st, name) < max
  let hardCapAllowsDedicated := limits.maxNetworks.isNone || admission
  let adaptiveOverflow := cfg.policyEligible && hardCapAllowsDedicated && !dedicated
  let policyOverflow := cfg.policyEligible && (!hardCapAllowsDedicated || adaptiveOverflow)
  s.setPhase q (.spawning st limits attempt r policyOverflow (admission && !adaptiveOverflow))

def chainRoot (s : Grpc) (st name : String) : Except String Registered :=
  if (s.services.lookup st).isNone then .error "Stack not found"
  else match s.services.service (st, name) with
    | none => .error "Service not found"
    | some (.unregistered _) => .error "Service is not registered"
    | some (.registered reg) => .ok reg

def spawnProxyChain (s : Grpc) (q : ℕ) (st : String) (key : ProxyKey) (limits : Limits)
    (attempt : ℕ) (r : ReplicaId) (policy admission : Bool) : Grpc :=
  match s.chainRoot st key.service with
  | .error e => s.setPhase q (.returned (.error e))
  | .ok reg =>
    (s.spawnBuild st (some (key.entryJob st r policy admission))
      (reg.config.proxyDeps.map fun deps => ⟨key.service, r, deps, none⟩) none).setPhase q
      (.building st limits attempt s.nextId)

/-- Go on after a build; a chain whose owner was lost is built once more. -/
def afterBuild (cfg : Settings) (s : Grpc) (q : ℕ) (st name : String) (limits : Limits)
    (attempt : ℕ) : ChainOutcome → Grpc
  | .built (some _) => s.setPhase q (.confirming st)
  | .built none =>
    s.setPhase q (.returned (.error "No valid upstream IP found after NET chain setup"))
  | .failed => s.setPhase q (.returned (.error "NET chain setup failed"))
  | .ownerLost =>
    let lost := RequestPhase.returned (.error "Chain was torn down while it was being built")
    if attempt = 0 then
      if cfg.policyEligible then
        match s.services.registered (st, name) with
        | some reg => s.setPhase q (.picking st
            { limits with dedicatedCount := reg.dedicatedProxyNetworksCount } 1)
        | none => s.setPhase q lost
      else s.setPhase q (.picking st limits 1)
    else s.setPhase q lost

/-- Update the service of a proxy session, wherever it is (`with_proxy_client`). -/
def withProxyClient (s : Grpc) (key : ProxyKey) (f : Registered → Client → Registered) : Grpc :=
  match s.services.findServiceStack key.service with
  | some st => s.setServices (s.services.update (st, key.service) (f · key.client))
  | none => s

/-- One step of a request; `dedicated` is what the congestion controller says. -/
def stepRequest (cfg : Settings) (s : Grpc) (q : ℕ) (dedicated : Bool) : Option Grpc := do
  let req ← s.requests.lookup q
  let key := req.key
  match req.phase with
  | .queued =>
    if s.requests.entries.any fun e => e.2.key = key && e.2.hasTurn then none
    else some (s.setPhase q .locating)
  | .locating =>
    match s.services.findServiceStack key.service with
    | some st => some (s.setPhase q (.reading st))
    | none => some (s.setPhase q (.returned (.error "Service not found in any stack")))
  | .reading st => some (s.readService q st key)
  | .checking st upstream replica =>
    if replica.any fun r => s.services.depChainIntact st key.service r then
      some (s.setPhase q (.refreshing st upstream))
    else some (s.setPhase q (.evicting st))
  | .refreshing st upstream =>
    some ((s.setServices (s.services.update (st, key.service)
      (·.setLatestNow s.clock key.client))).setPhase q (.opening upstream))
  | .evicting st =>
    some ((s.locked (·.applyChanges st [.staleSessionEvicted key.service key.client] none)).setPhase
      q (.rereading st))
  | .rereading st =>
    match s.services.registered (st, key.service) with
    | some reg => some (s.setPhase q (.sharing st reg.limits))
    | none => some (s.setPhase q (.returned (.error "Service is not registered")))
  | .sharing st limits =>
    if limits.maxNetworks.isSome && !cfg.policyEligible then
      match s.toCtx.share s.clock st key with
      | some (ctx, upstream) => some ({ s with toCtx := ctx }.setPhase q (.opening upstream))
      | none => some (s.setPhase q (.picking st limits 0))
    else some (s.setPhase q (.picking st limits 0))
  | .picking st limits attempt =>
    match s.pickProxyReplica st key.service with
    | .ok r => some (s.setPhase q (.admitting st limits attempt r))
    | .error e => some (s.setPhase q (.returned (.error e)))
  | .admitting st limits attempt r =>
    some (s.dedicatedAdmission cfg q st key.service limits attempt r dedicated)
  | .spawning st limits attempt r policy admission =>
    some (s.spawnProxyChain q st key limits attempt r policy admission)
  | .building st limits attempt b =>
    ((s.builds.lookup b).bind (·.outcome)).map (s.afterBuild cfg q st key.service limits attempt)
  | .confirming st =>
    match (s.services.registered (st, key.service)).bind (·.isClientSetup key.client) with
    | some upstream => some (s.setPhase q (.opening upstream))
    | none => some (s.setPhase q (.returned (.error "Proxy edge disappeared after setup")))
  | .opening upstream =>
    some ((s.withProxyClient key (.openConnection s.clock)).setPhase q (.returned (.ok upstream)))
  | .returned _ => none

/-! ## Backend triggers -/

/-- The trigger has to build the edge to its peer: nobody has it or is building it. -/
def needsRebuild (s : Grpc) (st name : String) (r : ReplicaId) (reg : Registered) (port : ℕ) :
    Bool :=
  match reg.config.triggers.lookup port with
  | none => false
  | some peer => !(s.services.registered (st, peer)).any fun dep =>
      (dep.clientReplica (.newService name r)).isSome

/-- The locked section of a trigger; its id is the next identity, and so is the generation of the
session that it claims. -/
def trigger (s : Grpc) (name : String) (port : ℕ) (senderIp : IpAddr) (container : Option String) :
    Except String Grpc :=
  match s.services.findServiceStack name with
  | none => .error "Initiator service not found in any stack"
  | some st =>
    match s.services.registered (st, name) with
    | none => .error "Initiator service is not registered"
    | some reg =>
      match reg.senderReplica senderIp container with
      | none => .error "No initiator replica found on sender host"
      | some r =>
        let key : BackendKey := ⟨name, r, port⟩
        if s.needsRebuild st name r reg port && (s.sessions.lookup key).isNone then
          .ok { s with
            sessions := s.sessions.insert key ⟨s.nextId, true, st, none⟩
            triggers := s.triggers.insert s.nextId ⟨st, key, some s.nextId, .resuming⟩
            nextId := s.nextId + 1 }
        else
          .ok { s with
            triggers := s.triggers.insert s.nextId ⟨st, key, none, .returned (.ok ())⟩
            nextId := s.nextId + 1 }

def setTrigger (s : Grpc) (t : ℕ) (phase : TriggerPhase) : Grpc :=
  { s with triggers := s.triggers.modify t fun tr => { tr with phase := phase } }

def cancelBackendSession (s : Grpc) (key : BackendKey) (generation : ℕ) : Grpc :=
  if (s.sessions.lookup key).any fun session => session.generation = generation then
    s.locked (·.removeSession key)
  else s

/-- Build the chain of a trigger port, if its peer has a replica. -/
def spawnBackendChain (s : Grpc) (t : ℕ) (tr : Trigger) (generation : ℕ) : Grpc :=
  match s.chainRoot tr.stack tr.key.service with
  | .error e => s.setTrigger t (.cancelling (.error e))
  | .ok reg =>
    match (reg.config.triggers.lookup tr.key.port).filter fun peer =>
        (s.services.registered (tr.stack, peer)).any fun dep => !dep.replicas.entries.isEmpty with
    | none => s.setTrigger t (.cancelling (.ok ()))
    | some peer =>
      (s.spawnBuild tr.stack none [⟨tr.key.service, tr.key.replica, [peer], some tr.key.port⟩]
        (some (tr.key, generation))).setTrigger t (.building s.nextId)

/-- One step of the detached task of a trigger; `ok` says that its replica could be resumed. -/
def stepTrigger (s : Grpc) (t : ℕ) (ok : Bool) : Option Grpc := do
  let tr ← s.triggers.lookup t
  let generation ← tr.generation
  match tr.phase with
  | .resuming =>
    if (s.services.registered (tr.stack, tr.key.service)).any fun reg =>
        (reg.replicas.lookup tr.key.replica).isSome then
      if ok then some (s.setTrigger t .branching)
      else some (s.setTrigger t (.cancelling (.error "trigger source could not be resumed")))
    else some (s.setTrigger t (.cancelling (.error "trigger source disappeared")))
  | .branching => some (s.spawnBackendChain t tr generation)
  | .building b =>
    match (s.builds.lookup b).bind (·.outcome) with
    | none => none
    | some (.built _) => some (s.setTrigger t (.returned (.ok ())))
    | some .ownerLost => some (s.setTrigger t (.cancelling (.ok ())))
    | some .failed => some (s.setTrigger t (.cancelling (.error "NET chain setup failed")))
  | .cancelling result =>
    some ((s.cancelBackendSession tr.key generation).setTrigger t (.returned result))
  | .returned _ => none

end Grpc

end Nullnet.Server
