import Nullnet.Server.Changes
import Nullnet.Server.NetIdPool

/-! # The state of the server

Besides the services and the backend sessions (`Ctx`), the state has the tasks that are under way:

* a *request* is a `Proxy` RPC. Requests with the same key (service, client, proxy) take turns;
* a *trigger* is a `BackendTrigger` RPC with the task that it detaches;
* a *build* is a run of `run_net_chain_setup`, detached from the RPC that started it. It has a *task*
  for the entry edge and one for each branch of dependencies, which build their edges in order.

A phase (or `pc`) says what the task does next; each step does one thing: a section under the lock
on the services, an allocation, the outcome of a network setup, the dispatch of a teardown. -/

namespace Nullnet.Server

open Nullnet.Lib

structure Settings where
  net : Net
  encryption : Bool

/-- The proxy clients of this server can be put on shared encrypted carriers. -/
def Settings.policyEligible (cfg : Settings) : Bool := cfg.net = .vxlan && cfg.encryption

/-! ## Builds -/

/-- Where the server side of an edge comes from. -/
inductive EdgeTarget
  | dependency
  | fixed (r : ReplicaId)
  deriving DecidableEq

/-- The arguments of `setup_edge`. -/
structure EdgeJob where
  stack : String
  clientEthernet : IpAddr
  client : Client
  clientDocker : Option String
  serverName : String
  target : EdgeTarget
  backendEntryPort : Option ℕ
  policy : Bool
  /-- The job holds an admission to a dedicated network. -/
  admission : Bool
  deriving DecidableEq

def EdgeJob.service (job : EdgeJob) : ServiceKey := (job.stack, job.serverName)

/-- The session that an entry edge opens once its whole chain is up. -/
structure PendingIngress where
  setupMs : ℕ
  netIpClient : Ipv4Addr
  netIpServer : Ipv4Addr
  deriving DecidableEq

/-- An edge that a build brought up, or shares. -/
structure SuccessfulEdge where
  netId : ℕ
  client : Client
  serverName : String
  ingress : Option PendingIngress
  deriving DecidableEq

/-- Where `setup_edge` stands; `r` is the chosen replica. -/
inductive EdgePc
  | claiming
  | resuming (r : ReplicaId) (reservation : Token) (carrier : Option ℕ)
  | allocating (r : ReplicaId) (reservation : Token) (carrier : Option ℕ)
  | settingUp (r : ReplicaId) (reservation : Token) (netId : ℕ) (groupCarrier : Option ℕ)
  | promoting (r : ReplicaId) (reservation : Token) (netId : ℕ) (groupCarrier : Option ℕ)
      (setupMs : ℕ)
  | releasing (r : ReplicaId) (reservation : Token)
  | stranded (r : ReplicaId) (netId : ℕ)
  deriving DecidableEq

/-- The reservation that the task has made, and its replica. -/
def EdgePc.reservation : EdgePc → Option (Token × ReplicaId)
  | resuming r t _ | allocating r t _ | settingUp r t _ _ | promoting r t _ _ _ | releasing r t =>
    some (t, r)
  | claiming | stranded _ _ => none

/-- The network id that the task has allocated. -/
def EdgePc.netId : EdgePc → Option ℕ
  | settingUp _ _ n _ | promoting _ _ n _ _ | stranded _ n => some n
  | claiming | resuming _ _ _ | allocating _ _ _ | releasing _ _ => none

/-- A task of a build: the edge it is at, the services after it, and the edges before it. -/
structure Task where
  build : ℕ
  job : EdgeJob
  startedAt : ℕ
  pc : EdgePc
  rest : List String
  edges : List SuccessfulEdge
  deriving DecidableEq

inductive ChainOutcome
  | built (upstream : Option Ipv4Addr)
  | ownerLost
  | failed
  deriving DecidableEq

/-- A run of `run_net_chain_setup`. -/
structure Build where
  stack : String
  /-- The service and the proxy client of the entry edge. -/
  entry : Option (String × Client)
  owner : Option (BackendKey × ℕ)
  successful : List SuccessfulEdge
  anyFailure : Bool
  outcome : Option ChainOutcome
  deriving DecidableEq

/-! ## Requests -/

structure ProxyKey where
  service : String
  clientIp : String
  proxyIp : IpAddr
  deriving DecidableEq

def ProxyKey.client (key : ProxyKey) : Client := .new key.clientIp (some key.proxyIp)

/-- The limit on networks and the number of dedicated networks, as a request last read them. -/
structure Limits where
  maxNetworks : Option ℕ
  dedicatedCount : ℕ
  deriving DecidableEq

/-- Where `handle_proxy_request` stands. -/
inductive RequestPhase
  | queued
  | locating
  | reading (stack : String)
  | checking (stack : String) (upstream : Registered.Upstream) (replica : Option ReplicaId)
  | refreshing (stack : String) (upstream : Registered.Upstream)
  | evicting (stack : String)
  | rereading (stack : String)
  | sharing (stack : String) (limits : Limits)
  | picking (stack : String) (limits : Limits) (attempt : ℕ)
  | admitting (stack : String) (limits : Limits) (attempt : ℕ) (replica : ReplicaId)
  | spawning (stack : String) (limits : Limits) (attempt : ℕ) (replica : ReplicaId)
      (policy admission : Bool)
  | building (stack : String) (limits : Limits) (attempt : ℕ) (build : ℕ)
  | confirming (stack : String)
  | opening (upstream : Registered.Upstream)
  | returned (result : Except String Registered.Upstream)

/-- A `Proxy` RPC. -/
structure Request where
  key : ProxyKey
  phase : RequestPhase

/-- The request has its turn: it holds the lock of its key. -/
def Request.hasTurn (q : Request) : Bool :=
  match q.phase with
  | .queued | .returned _ => false
  | _ => true

/-! ## Triggers -/

/-- Where `handle_backend_trigger` stands. -/
inductive TriggerPhase
  | resuming
  | branching
  | building (build : ℕ)
  | cancelling (result : Except String Unit)
  | returned (result : Except String Unit)

/-- A `BackendTrigger` RPC; the generation is that of the session it claimed. -/
structure Trigger where
  stack : String
  key : BackendKey
  generation : Option ℕ
  phase : TriggerPhase

/-! ## The server -/

structure Grpc extends Ctx where
  pool : NetIdPool
  builds : Dict ℕ Build
  tasks : Dict ℕ Task
  requests : Dict ℕ Request
  triggers : Dict ℕ Trigger
  /-- The ids of the networks of egress edges. -/
  egress : List ℕ
  policyGeneration : ℕ
  /-- Source of identities: of tasks, reservations and generations. -/
  nextId : ℕ
  clock : ℕ

namespace Grpc

/-- The initial state. The configuration is loaded by a configuration update. -/
def new : Grpc where
  services := ∅
  sessions := ∅
  log := []
  pool := .new
  builds := ∅
  tasks := ∅
  requests := ∅
  triggers := ∅
  egress := []
  policyGeneration := 1
  nextId := 0
  clock := 0

/-- Run a section under the lock on the services. -/
def locked (s : Grpc) (f : Ctx → Ctx) : Grpc := { s with toCtx := f s.toCtx }

def setServices (s : Grpc) (m : StackMap) : Grpc := { s with services := m }

end Grpc

end Nullnet.Server
