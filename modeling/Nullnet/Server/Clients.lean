import Nullnet.Lib.Dict
import Nullnet.Server.Net

/-! # Clients of a replica

A replica of a service has an entry for each of its clients: the external clients that reach it
through a proxy, and the replicas of other services. The entry records the network that connects the
two, and how many chains go through it (`activeChains`). While the network is being built the entry
is a *reservation*: it has no network yet, and a token that tells its builder apart from others (an
`Arc<Notify>` in the source, compared by identity). Times are milliseconds. -/

namespace Nullnet.Server

open Nullnet.Lib

/-- The identity of a replica: its host and its container, if any. -/
structure ReplicaId where
  ip : IpAddr
  docker : Option String
  deriving DecidableEq, Repr

/-- The identity of a reservation. -/
abbrev Token := ℕ

/-- A client: an external client behind a proxy, or a replica of a service. -/
structure Client where
  name : String
  proxy : Option IpAddr
  replica : Option ReplicaId
  deriving DecidableEq, Repr

namespace Client

def new (name : String) (proxy : Option IpAddr) : Client := ⟨name, proxy, none⟩

/-- A service-to-service client, identified by its source replica. -/
def newService (name : String) (replica : ReplicaId) : Client := ⟨name, none, some replica⟩

def isProxy (c : Client) : Bool := c.proxy.isSome

end Client

structure ClientInfo where
  clientIp : IpAddr
  clientNet : Ipv4Addr
  serverNet : Ipv4Addr
  netId : ℕ
  poolGeneration : ℕ
  timeMs : ℕ
  activeChains : ℕ
  openConnections : ℕ
  latest : ℕ
  dockerContainer : Option String
  policy : Bool
  groupCarrier : Option ℕ
  pending : Option Token
  deriving DecidableEq

namespace ClientInfo

/-- `ClientInfo::new` and `ClientInfo::sharing_network`, which differ in where the pool generation
comes from. -/
def withPoolGeneration (now : ℕ) (clientIp : IpAddr) (clientNet serverNet : Ipv4Addr)
    (netId timeMs : ℕ) (dockerContainer : Option String) (poolGeneration : ℕ) : ClientInfo where
  clientIp := clientIp
  clientNet := clientNet
  serverNet := serverNet
  netId := netId
  poolGeneration := poolGeneration
  timeMs := timeMs
  activeChains := 0
  openConnections := 0
  latest := now
  dockerContainer := dockerContainer
  policy := false
  groupCarrier := none
  pending := none

/-- The slot of an edge that is about to be built; it carries the builder's chain already. -/
def reservation (now : ℕ) (clientIp : IpAddr) (policy : Bool) (carrier : Option ℕ)
    (token : Token) : ClientInfo where
  clientIp := clientIp
  clientNet := 0
  serverNet := 0
  netId := 0
  poolGeneration := 0
  timeMs := 0
  activeChains := 1
  openConnections := 0
  latest := now
  dockerContainer := none
  policy := policy
  groupCarrier := carrier
  pending := some token

/-- The edge is reserved and not yet built. -/
def isPending (ci : ClientInfo) : Bool := ci.pending.isSome

def addActiveChain (now : ℕ) (ci : ClientInfo) : ClientInfo :=
  { ci with activeChains := ci.activeChains + 1, latest := now }

def removeActiveChains (n : ℕ) (ci : ClientInfo) : ClientInfo :=
  { ci with activeChains := ci.activeChains - n }

def setLatestNow (now : ℕ) (ci : ClientInfo) : ClientInfo := { ci with latest := now }

def openConnection (now : ℕ) (ci : ClientInfo) : ClientInfo :=
  { ci with openConnections := ci.openConnections + 1, latest := now }

/-- A front connection closes; a close may outlive its open. -/
def closeConnection (now : ℕ) (ci : ClientInfo) : ClientInfo :=
  { ci with openConnections := ci.openConnections - 1, latest := now }

/-- No connection has been open for `timeout`. -/
def idleExpired (now timeout : ℕ) (ci : ClientInfo) : Bool :=
  !ci.isPending && ci.openConnections = 0 && timeout ≤ now - ci.latest

end ClientInfo

abbrev Clients := Dict Client ClientInfo

/-- The entry that replaces an existing one keeps its counts: a reservation that becomes a live edge
keeps the chain it carries. -/
def ClientInfo.keepCounts (info : ClientInfo) : Option ClientInfo → ClientInfo
  | some existing =>
    { info with
      activeChains := existing.activeChains
      openConnections := existing.openConnections }
  | none => info

variable (info : ClientInfo) (o : Option ClientInfo)

@[simp] theorem ClientInfo.keepCounts_pending : (info.keepCounts o).pending = info.pending := by
  cases o <;> rfl

@[simp] theorem ClientInfo.keepCounts_netId : (info.keepCounts o).netId = info.netId := by
  cases o <;> rfl

@[simp] theorem ClientInfo.keepCounts_policy : (info.keepCounts o).policy = info.policy := by
  cases o <;> rfl

def Clients.addClient (clients : Clients) (c : Client) (info : ClientInfo) : Clients :=
  clients.insert c (info.keepCounts (clients.lookup c))

end Nullnet.Server
