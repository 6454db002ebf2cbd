import Nullnet.Server.State

/-! # Building chains

`Grpc.stepTask` is one step of `setup_edge` for the edge a task is at: the edge is found live and
gets one more chain, or another task is building it and is waited for, or it is reserved, its network
is built, and the reservation is promoted to a live edge. `Grpc.finishBuild` is the last section
of `run_net_chain_setup`: a chain that is not complete, or whose owner is gone, is unwound. -/

namespace Nullnet.Server

open Nullnet.Lib

/-- What the environment decides in a step of a task. -/
structure TaskInput where
  /-- The chosen replica is suspended. -/
  suspended : Bool
  /-- The replica was resumed, or the network is ready. -/
  ok : Bool

def EdgeTarget.resolve (reg : Registered) : EdgeTarget → Option ReplicaId
  | fixed r => some r
  | dependency => reg.pickReplicaLeastClients

/-- The network of the edge is on a shared encrypted carrier. -/
def EdgeJob.group (cfg : Settings) (job : EdgeJob) : Bool :=
  cfg.policyEligible && job.client.isProxy && job.backendEntryPort.isNone

/-- The teardown of the network that a task built. -/
def EdgeJob.teardown (cfg : Settings) (job : EdgeJob) (r : ReplicaId) (n : ℕ) : NetTeardown :=
  ⟨job.clientEthernet, job.clientDocker, r.ip, r.docker, n, job.group cfg⟩

def EdgeJob.carrier (reg : Registered) (job : EdgeJob) : Option ℕ :=
  if job.policy then job.client.proxy.bind reg.groupCarrier else none

def EdgeJob.reservation (reg : Registered) (job : EdgeJob) (now : ℕ) (token : Token) : ClientInfo :=
  .reservation now job.clientEthernet job.policy (job.carrier reg) token

/-- Where a task stands after it has reserved its edge. -/
def EdgePc.reserved (r : ReplicaId) (token : Token) (carrier : Option ℕ) (suspended : Bool) :
    EdgePc :=
  if suspended then .resuming r token carrier else .allocating r token carrier

/-- The entry of an edge whose network is ready. -/
def EdgeJob.clientInfo (cfg : Settings) (job : EdgeJob) (now : ℕ) (r : ReplicaId) (n : ℕ)
    (groupCarrier : Option ℕ) (setupMs poolGeneration : ℕ) : ClientInfo :=
  { ClientInfo.withPoolGeneration now job.clientEthernet (cfg.net.localIp n true job.clientDocker)
      (cfg.net.localIp n false r.docker) n setupMs job.clientDocker poolGeneration with
    policy := job.policy
    groupCarrier := groupCarrier }

/-- The job of the next hop of a branch, from where the hop before landed. -/
def EdgeJob.next (job : EdgeJob) (server : ReplicaId) (dep : String) : EdgeJob where
  stack := job.stack
  clientEthernet := server.ip
  client := .newService job.serverName server
  clientDocker := server.docker
  serverName := dep
  target := .dependency
  backendEntryPort := none
  policy := false
  admission := false

/-- A branch of a chain: the services to go through, from a replica. -/
structure ChainBranch where
  rootName : String
  root : ReplicaId
  deps : List String
  entryPort : Option ℕ

def ChainBranch.job (stack : String) (branch : ChainBranch) (dep : String) : EdgeJob where
  stack := stack
  clientEthernet := branch.root.ip
  client := .newService branch.rootName branch.root
  clientDocker := branch.root.docker
  serverName := dep
  target := .dependency
  backendEntryPort := branch.entryPort
  policy := false
  admission := false

namespace Grpc

/-- A task ends; its build takes over its edges. -/
def endTask (s : Grpc) (t : ℕ) (task : Task) (edges : List SuccessfulEdge) (ok : Bool) : Grpc :=
  { s with
    tasks := s.tasks.erase t
    builds := s.builds.modify task.build fun b =>
      { b with successful := b.successful ++ edges, anyFailure := b.anyFailure || !ok } }

/-- The edge of a task fails, and its branch with it. -/
def failTask (s : Grpc) (t : ℕ) (task : Task) : Grpc := s.endTask t task task.edges false

/-- The edge of a task is up; the branch goes on from the replica that the edge landed on. -/
def succeedTask (s : Grpc) (t : ℕ) (task : Task) (netId : ℕ) (server : ReplicaId)
    (ingress : Option PendingIngress) : Grpc :=
  let edges := task.edges ++ [⟨netId, task.job.client, task.job.serverName, ingress⟩]
  match task.rest with
  | [] => s.endTask t task edges true
  | dep :: rest =>
    { s with tasks := s.tasks.modify t fun _ =>
        { build := task.build, job := task.job.next server dep, startedAt := s.clock
          pc := .claiming, rest := rest, edges := edges } }

def setPc (s : Grpc) (t : ℕ) (pc : EdgePc) : Grpc :=
  { s with tasks := s.tasks.modify t fun task => { task with pc := pc } }

/-- Release the reservation of a task, if it is still there. -/
def removePending (s : Grpc) (job : EdgeJob) (reservation : Token) : Grpc :=
  s.setServices (s.services.update job.service (·.removePendingClientIf job.client reservation))

def reserve (s : Grpc) (t : ℕ) (task : Task) (reg : Registered) (suspended : Bool) : Grpc :=
  let job := task.job
  match job.target.resolve reg with
  | none => s.failTask t task
  | some r =>
    match reg.addClientToReplica r job.client (job.reservation reg s.clock s.nextId) with
    | none => s.failTask t task
    | some reg' =>
      { s with
        services := s.services.update job.service fun _ => reg'
        nextId := s.nextId + 1
        tasks := s.tasks.modify t fun task =>
          { task with
            job := { job with admission := false }
            pc := .reserved r s.nextId (job.carrier reg) suspended } }

def claim (s : Grpc) (t : ℕ) (task : Task) (suspended : Bool) : Grpc :=
  let job := task.job
  match s.services.registered job.service with
  | none => s.failTask t task
  | some reg =>
    match reg.clientReplicaLive job.client with
    | some bound =>
      (s.setServices (s.services.update job.service (·.addChain s.clock job.client))).succeedTask t
        task ((reg.clientNetId job.client).getD 0) bound none
    | none =>
      match reg.pendingNotify job.client with
      | some _ => if task.startedAt + EDGE_CLAIM_TIMEOUT ≤ s.clock then s.failTask t task else s
      | none => s.reserve t task reg suspended

def allocateNet (cfg : Settings) (s : Grpc) (t : ℕ) (job : EdgeJob) (r : ReplicaId)
    (reservation : Token) (carrier : Option ℕ) : Grpc :=
  match s.pool.allocate cfg.net with
  | (none, pool) => { s with pool := pool }.setPc t (.releasing r reservation)
  | (some n, pool) =>
    let s := { s with pool := pool, log := .allocate n :: s.log }
    if job.group cfg then
      { s with policyGeneration := s.policyGeneration + 1 }.setPc t
        (.settingUp r reservation n (some (carrier.getD s.policyGeneration)))
    else s.setPc t (.settingUp r reservation n none)

/-- Promote a reservation to a live edge, if it is still there. -/
def promote (cfg : Settings) (s : Grpc) (t : ℕ) (task : Task) (r : ReplicaId)
    (reservation : Token) (n : ℕ) (groupCarrier : Option ℕ) (setupMs : ℕ) : Grpc :=
  let job := task.job
  let ci := job.clientInfo cfg s.clock r n groupCarrier setupMs s.nextId
  let promoted := (s.services.registered job.service).bind fun reg =>
    if reg.pendingNotify job.client = some reservation then reg.addClientToReplica r job.client ci
    else none
  match promoted with
  | some reg' =>
    { s with
      services := s.services.update job.service fun _ => reg'
      nextId := s.nextId + 1 }.succeedTask t task n r
        (if job.client.isProxy then some ⟨setupMs, ci.clientNet, ci.serverNet⟩ else none)
  | none => (s.removePending job reservation).setPc t (.stranded r n)

def stepTask (cfg : Settings) (s : Grpc) (t : ℕ) (input : TaskInput) : Option Grpc := do
  let task ← s.tasks.lookup t
  match task.pc with
  | .claiming => some (s.claim t task input.suspended)
  | .resuming r reservation carrier =>
    some (s.setPc t (if input.ok then .allocating r reservation carrier
      else .releasing r reservation))
  | .allocating r reservation carrier =>
    some (s.allocateNet cfg t task.job r reservation carrier)
  | .settingUp r reservation n groupCarrier =>
    if input.ok then
      some (s.setPc t (.promoting r reservation n groupCarrier (s.clock - task.startedAt)))
    else
      some ((s.locked (·.emit (.netTeardown (task.job.teardown cfg r n)))).setPc t
        (.releasing r reservation))
  | .promoting r reservation n groupCarrier setupMs =>
    some (s.promote cfg t task r reservation n groupCarrier setupMs)
  | .releasing _ reservation => some ((s.removePending task.job reservation).failTask t task)
  | .stranded r n =>
    some ((s.locked (·.emit (.netTeardown (task.job.teardown cfg r n)))).failTask t task)

/-! ## Starting and finishing a build -/

/-- The jobs with which the tasks of a build start, each with the services after it. -/
def startJobs (stack : String) (entry : Option EdgeJob) (branches : List ChainBranch) :
    List (EdgeJob × List String) :=
  (entry.map (·, [])).toList ++ branches.filterMap fun branch => match branch.deps with
    | [] => none
    | dep :: rest => some (branch.job stack dep, rest)

def spawnTask (build : ℕ) (s : Grpc) (start : EdgeJob × List String) : Grpc :=
  { s with
    tasks := s.tasks.insert s.nextId
      { build := build, job := start.1, startedAt := s.clock, pc := .claiming, rest := start.2
        edges := [] }
    nextId := s.nextId + 1 }

/-- Add a build; its id is the next identity. -/
def addBuild (s : Grpc) (stack : String) (entry : Option EdgeJob)
    (owner : Option (BackendKey × ℕ)) : Grpc :=
  let build : Build :=
    { stack := stack, entry := entry.map fun job => (job.serverName, job.client), owner := owner
      successful := [], anyFailure := false, outcome := none }
  { s with builds := s.builds.insert s.nextId build, nextId := s.nextId + 1 }

def spawnBuild (s : Grpc) (stack : String) (entry : Option EdgeJob)
    (branches : List ChainBranch) (owner : Option (BackendKey × ℕ)) : Grpc :=
  (startJobs stack entry branches).foldl (spawnTask s.nextId) (s.addBuild stack entry owner)

/-- The backend session that the build was for is still there. -/
def ownerPresent (ctx : Ctx) (owner : BackendKey × ℕ) : Bool :=
  (ctx.sessions.lookup owner.1).any fun session => session.generation = owner.2

/-- `finish_backend_session`: the session holds the edge from now on. -/
def finishSession (ctx : Ctx) (owner : BackendKey × ℕ) : Ctx :=
  if ownerPresent ctx owner then
    { ctx with sessions := ctx.sessions.modify owner.1 fun session =>
        { session with building := false } }
  else ctx

/-- Some entry edge of the build is not live any more. -/
def entryLost (ctx : Ctx) (build : Build) : Bool :=
  build.successful.any fun e =>
    e.client.isProxy && (ctx.services.clientReplicaLive (build.stack, e.serverName) e.client).isNone

/-- The owner of a complete chain is gone. -/
def isOrphaned (ctx : Ctx) (build : Build) : Bool :=
  (!build.anyFailure && build.owner.any fun owner => !ownerPresent ctx owner) || entryLost ctx build

/-- Hand back the chain that the build took on an edge, if the edge is still the same one. -/
def unwindEdge (stack : String) (ctx : Ctx) (e : SuccessfulEdge) : Ctx :=
  if ((ctx.services.registered (stack, e.serverName)).bind fun reg => reg.clientNetId e.client) =
      some e.netId then
    ctx.decrementChain (stack, e.serverName) e.client
  else ctx

def openIngressRow (stack : String) (ctx : Ctx) (e : SuccessfulEdge) : Ctx :=
  match e.ingress, e.client.proxy with
  | some ingress, some proxyIp =>
    ctx.emit (.openIngress (stack, e.serverName) e.netId e.client.name ingress.netIpClient
      ingress.netIpServer proxyIp ingress.setupMs)
  | _, _ => ctx

def finishSection (ctx : Ctx) (build : Build) : Ctx × ChainOutcome :=
  let orphaned := isOrphaned ctx build
  let ctx := if build.anyFailure then ctx else
    (build.owner.map (finishSession ctx)).getD ctx
  if build.anyFailure || orphaned then
    (build.successful.foldl (unwindEdge build.stack) ctx,
      if build.anyFailure then .failed else .ownerLost)
  else
    (build.successful.foldl (openIngressRow build.stack) ctx,
      .built ((build.successful.findSome? (·.ingress)).map (·.netIpServer)))

/-- The last section of a build, once all its tasks have ended. -/
def finishBuild (s : Grpc) (b : ℕ) : Option Grpc := do
  let build ← s.builds.lookup b
  if build.outcome.isNone && s.tasks.entries.all fun e => e.2.build ≠ b then
    let result := finishSection s.toCtx build
    some { s with
      toCtx := result.1
      builds := s.builds.modify b fun build => { build with outcome := some result.2 } }
  else none

end Grpc

end Nullnet.Server
