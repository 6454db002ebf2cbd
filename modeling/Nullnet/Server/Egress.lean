import Nullnet.Server.NetIdPool
import Nullnet.Server.SessionHistory

/-! # Egress edges

An egress edge is a network from a replica (the initiator) to the proxy host, over which the replica
reaches external destinations. There is one per initiator. `ensure_egress_edge` reserves the slot,
builds the network without holding the lock, and then promotes the reservation; meanwhile nodes
disconnect, idle edges are reaped, destinations are reported, and other calls come in. A reservation
has the net id `0`; a call is told apart from others on its key by its generation.

Each step of `Egress.step` is a section under the lock of the map of edges, an allocation, the
outcome of the network setup, or the dispatch of a teardown. Times are milliseconds. -/

namespace Nullnet.Server

open Nullnet.Lib

/-- The initiator replica: its host and its container, if any. -/
abbrev EgressKey := IpAddr × Option String

def MAX_DESTS_PER_EDGE : ℕ := 256

structure DestStat where
  lastSeen : ℕ
  count : ℕ
  blocked : Bool
  active : Bool
  deriving DecidableEq

structure EgressEdge where
  setupMs : ℕ
  generation : ℕ
  netId : ℕ
  stack : String
  service : String
  initiatorIp : IpAddr
  initiatorDocker : Option String
  proxyIp : IpAddr
  destinations : Dict Ipv4Addr DestStat
  idleSince : Option ℕ
  reservedAt : ℕ

/-- Where a call of `ensure_egress_edge` stands; `n` is the allocated net id. -/
inductive EnsurePc
  | reserving
  | allocating
  | releasing
  | settingUp (n : ℕ)
  | tearing (n : ℕ)
  | unreserving (n : ℕ)
  | promoting (n : ℕ)
  | stranded (n : ℕ)
  | persisting (n : ℕ)
  | returned (allocated : Option ℕ) (result : Except String Bool)
  deriving DecidableEq

/-- A call of `ensure_egress_edge`. -/
structure EnsureCall where
  stack : String
  service : String
  initiatorIp : IpAddr
  initiatorDocker : Option String
  proxyIp : IpAddr
  pc : EnsurePc
  deriving DecidableEq

def EnsureCall.key (c : EnsureCall) : EgressKey := (c.initiatorIp, c.initiatorDocker)

/-- A dispatched teardown (`send_net_teardown`), with the generation that allocated its net id. -/
structure EgressTeardown where
  generation : ℕ
  initiatorIp : IpAddr
  initiatorDocker : Option String
  proxyIp : IpAddr
  netId : ℕ
  deriving DecidableEq

def EgressEdge.teardown (e : EgressEdge) : EgressTeardown :=
  ⟨e.generation, e.initiatorIp, e.initiatorDocker, e.proxyIp, e.netId⟩

structure Egress where
  edges : Dict EgressKey EgressEdge
  pool : NetIdPool
  /-- The calls so far, by generation. -/
  calls : Dict ℕ EnsureCall
  /-- The edges that a teardown task removed and has not dispatched a teardown for, by task. -/
  removers : List (List EgressEdge)
  teardowns : List EgressTeardown
  stream : List SessionMutation
  clock : ℕ

inductive EgressAction
  | call (generation : ℕ) (stack service : String) (initiatorIp : IpAddr)
      (initiatorDocker : Option String) (proxyIp : IpAddr)
  | advance (generation : ℕ)
  | setup (generation : ℕ) (proxyOk initOk ready : Bool)
  | persist (generation : ℕ) (geo : Ipv4Addr → SessionGeo)
  | record (initiatorIp : IpAddr) (initiatorDocker : Option String) (dstIp : Ipv4Addr)
      (count lastSeen : ℕ) (blocked active : Bool) (geo : SessionGeo)
  | liveness (initiatorIp : IpAddr) (initiatorDocker : Option String) (active : Bool)
  | nodeLost (nodeIp : IpAddr)
  | containersLost (nodeIp : IpAddr) (live : List String)
  | reapIdle (debounce : ℕ)
  | dispatch (task : ℕ)
  | allocateOther
  | freeOther (id : ℕ)
  | tick (ms : ℕ)

namespace Egress

def new : Egress := ⟨∅, .new, ∅, [], [], [], 0⟩

/-! ## Destinations -/

def oldest (m : Dict Ipv4Addr DestStat) : Option Ipv4Addr :=
  (m.entries.foldl (fun best e =>
    match best with
    | none => some e
    | some b => if e.2.lastSeen < b.2.lastSeen then some e else some b)
    (none : Option (Σ _ : Ipv4Addr, DestStat))).map Sigma.fst

/-- Note a report on a destination, within the cap. -/
def recordDestination (m : Dict Ipv4Addr DestStat) (dst : Ipv4Addr) (stat : DestStat) :
    Dict Ipv4Addr DestStat :=
  match m.lookup dst with
  | some _ => m.modify dst fun _ => stat
  | none =>
    let m :=
      if MAX_DESTS_PER_EDGE ≤ m.entries.length then
        match oldest m with
        | some ip => m.erase ip
        | none => m
      else m
    m.insert dst stat

/-- The mutation that records a destination of an edge. -/
def destinationMutation (key : EgressKey) (e : EgressEdge) (dst : Ipv4Addr) (stat : DestStat)
    (geo : SessionGeo) (clock : ℕ) : SessionMutation :=
  .egress
    { stack := e.stack, service := e.service, netId := e.netId, peerIp := dst.text, geo := geo,
      blocked := stat.blocked, detail := ⟨key.1, key.2, e.proxyIp, e.setupMs⟩,
      startedAt := stat.lastSeen, lastSeen := stat.lastSeen, endedAt := none, interrupted := false }
    stat.active (clock / 1000)

/-- `record_egress_destination`: one section under the write lock. -/
def recordEgressDestination (s : Egress) (key : EgressKey) (dst : Ipv4Addr) (stat : DestStat)
    (geo : SessionGeo) : Egress :=
  match s.edges.lookup key with
  | none => s
  | some e =>
    let edges := s.edges.modify key fun e =>
      { e with destinations := recordDestination e.destinations dst stat }
    -- a reservation has no id to file the row under
    if e.netId ≠ 0 then
      { s with
        edges := edges
        stream := s.stream ++ [destinationMutation key e dst stat geo s.clock] }
    else { s with edges := edges }

/-- `persist_edge_destinations`: one section under the read lock. -/
def persistEdgeDestinations (s : Egress) (key : EgressKey) (geo : Ipv4Addr → SessionGeo) :
    Egress :=
  match s.edges.lookup key with
  | none => s
  | some e =>
    if e.netId ≠ 0 then
      { s with
        stream := s.stream ++ e.destinations.entries.map fun d =>
          destinationMutation key e d.1 d.2 (geo d.1) s.clock }
    else s

/-! ## Removing edges -/

/-- The edges that satisfy `pred`. -/
def matching (s : Egress) (pred : EgressKey → EgressEdge → Bool) : List EgressEdge :=
  (s.edges.entries.filter fun e => pred e.1 e.2).map Sigma.snd

/-- `remove_egress_edges`: one section under the write lock, which also closes the history of the
removed edges. The removed edges are `matching s pred`. -/
def removeEgressEdges (s : Egress) (pred : EgressKey → EgressEdge → Bool) : Egress :=
  { s with
    edges := s.edges.retain fun k e => !pred k e
    stream := s.stream ++ ((s.matching pred).filter fun e => e.netId ≠ 0).map fun e =>
      .closeEgress e.netId (s.clock / 1000) }

/-- A task removes edges and will tear down those that were live. -/
def teardownEdges (s : Egress) (pred : EgressKey → EgressEdge → Bool) : Egress :=
  { s.removeEgressEdges pred with
    removers := s.removers ++ [(s.matching pred).filter fun e => e.netId ≠ 0] }

def sendNetTeardown (s : Egress) (t : EgressTeardown) : Egress :=
  { s with teardowns := t :: s.teardowns }

/-! ## `ensure_egress_edge` -/

def setPc (s : Egress) (g : ℕ) (c : EnsureCall) (pc : EnsurePc) : Egress :=
  { s with calls := s.calls.insert g { c with pc := pc } }

def reservation (s : Egress) (g : ℕ) (c : EnsureCall) : EgressEdge where
  setupMs := 0
  generation := g
  netId := 0
  stack := c.stack
  service := c.service
  initiatorIp := c.initiatorIp
  initiatorDocker := c.initiatorDocker
  proxyIp := c.proxyIp
  destinations := ∅
  idleSince := none
  reservedAt := s.clock

/-- An edge or a recent reservation is left alone; a stale reservation is taken over. -/
def reserve (s : Egress) (g : ℕ) (c : EnsureCall) : Egress :=
  match s.edges.lookup c.key with
  | some e =>
    if e.netId ≠ 0 ∨ s.clock - e.reservedAt < EDGE_CLAIM_TIMEOUT then
      s.setPc g c (.returned none (.ok false))
    else { s.setPc g c .allocating with edges := s.edges.insert c.key (s.reservation g c) }
  | none => { s.setPc g c .allocating with edges := s.edges.insert c.key (s.reservation g c) }

/-- Promote the reservation, if it is still the one that this call made. -/
def promote (s : Egress) (g : ℕ) (c : EnsureCall) (n : ℕ) : Egress :=
  match s.edges.lookup c.key with
  | some e =>
    if e.generation = g then
      { s.setPc g c (.persisting n) with
        edges := s.edges.modify c.key fun e =>
          { e with netId := n, setupMs := s.clock - e.reservedAt } }
    else s.setPc g c (.stranded n)
  | none => s.setPc g c (.stranded n)

/-- The teardown of the network that a call built. -/
def callTeardown (g : ℕ) (c : EnsureCall) (n : ℕ) : EgressTeardown :=
  ⟨g, c.initiatorIp, c.initiatorDocker, c.proxyIp, n⟩

def ownReservation (g : ℕ) (c : EnsureCall) (k : EgressKey) (e : EgressEdge) : Bool :=
  k = c.key ∧ e.generation = g

/-- One step of a call, as far as it does not depend on the outcome of the setup. -/
def advanceCall (net : Net) (s : Egress) (g : ℕ) (c : EnsureCall) : Option Egress :=
  match c.pc with
  | .reserving => some (s.reserve g c)
  | .allocating =>
    match s.pool.allocate net with
    | (some n, pool) => some { s.setPc g c (.settingUp n) with pool := pool }
    | (none, pool) => some { s.setPc g c .releasing with pool := pool }
  | .releasing =>
    some ((s.removeEgressEdges (ownReservation g c)).setPc g c
      (.returned none (.error "NET ID pool exhausted")))
  | .tearing n => some ((s.sendNetTeardown (callTeardown g c n)).setPc g c (.unreserving n))
  | .unreserving n =>
    some ((s.removeEgressEdges (ownReservation g c)).setPc g c
      (.returned (some n) (.error "egress edge NET setup failed")))
  | .promoting n => some (s.promote g c n)
  | .stranded n =>
    some ((s.sendNetTeardown (callTeardown g c n)).setPc g c (.returned (some n) (.ok false)))
  | _ => none

def step (net : Net) (s : Egress) : EgressAction → Option Egress
  | .call g stack service initiatorIp initiatorDocker proxyIp =>
    match s.calls.lookup g with
    | some _ => none
    | none => some { s with
        calls := s.calls.insert g
          ⟨stack, service, initiatorIp, initiatorDocker, proxyIp, .reserving⟩ }
  | .advance g => (s.calls.lookup g).bind (s.advanceCall net g)
  | .setup g proxyOk initOk ready =>
    (s.calls.lookup g).bind fun c =>
      match c.pc with
      | .settingUp n =>
        some (s.setPc g c (if proxyOk && initOk && ready then .promoting n else .tearing n))
      | _ => none
  | .persist g geo =>
    (s.calls.lookup g).bind fun c =>
      match c.pc with
      | .persisting n =>
        some ((s.persistEdgeDestinations c.key geo).setPc g c (.returned (some n) (.ok true)))
      | _ => none
  | .record initiatorIp initiatorDocker dst count lastSeen blocked active geo =>
    some (s.recordEgressDestination (initiatorIp, initiatorDocker) dst
      ⟨lastSeen, count, blocked, active⟩ geo)
  | .liveness initiatorIp initiatorDocker active =>
    some { s with
      edges := s.edges.modify (initiatorIp, initiatorDocker) fun e =>
        { e with idleSince := if active then none else some s.clock } }
  | .nodeLost nodeIp =>
    some (s.teardownEdges fun _ e => e.initiatorIp = nodeIp ∨ e.proxyIp = nodeIp)
  | .containersLost nodeIp live =>
    some (s.teardownEdges fun _ e =>
      e.initiatorIp = nodeIp ∧ e.initiatorDocker.any fun c => c ∉ live)
  | .reapIdle debounce =>
    some (s.teardownEdges fun _ e =>
      e.netId ≠ 0 ∧ e.idleSince.any fun since => debounce ≤ s.clock - since)
  | .dispatch t =>
    match s.removers[t]? with
    | some (e :: rest) => some
        { s.sendNetTeardown e.teardown with removers := s.removers.set t rest }
    | _ => none
  | .allocateOther => some { s with pool := (s.pool.allocate net).2 }
  | .freeOther id => some { s with pool := s.pool.free net id }
  | .tick ms => some { s with clock := s.clock + ms }

end Egress

end Nullnet.Server
