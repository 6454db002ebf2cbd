import Nullnet.Lib.Runs
import Nullnet.Server.Changes

/-! # Pausing idle containers

A container that may be paused and is idle is paused by the server, and resumed before it is used. One
container can be behind replicas of several services, in one stack or in several: its aliases. Each
replica has its own pause state, and a container may be paused only if no alias forbids it.

`Pauses` is what pausing depends on. `reconcile_container_pauses` holds the lock of the services for a
whole pass over the replicas, and waits in between: for the map of backend sessions, for the map of
egress edges, for the control stream. Egress edges are reserved and dropped without the lock, backend
sessions are dropped without it, and a resume is a task of its own. So a pass is a sequence of steps,
and the others go on between them. -/

namespace Nullnet.Server

open Nullnet.Lib

/-- A replica of a service, with its pause state. `cell` tells the pause state apart from that of
another incarnation of the replica. -/
structure PausableReplica where
  service : ServiceKey
  id : ReplicaId
  cell : ℕ
  clients : ℕ := 0
  suspended : Bool := false
  /-- A resume is under way. -/
  resuming : Bool := false
  deriving DecidableEq

/-- The task that `resume` starts, before and after it has sent its command. -/
structure ResumeTask where
  cell : ℕ
  id : ReplicaId
  sent : Bool := false
  deriving DecidableEq

inductive PauseCommand
  | suspend
  | resume
  deriving DecidableEq

/-- Where `reconcile_suspend` is, after it has found no backend session. -/
inductive SuspendStage
  | egress
  | sending
  | marking
  deriving DecidableEq

/-- A pass of `reconcile_container_pauses`: the identities that may not be paused, the replicas that
are still to be visited, and the replica that is being suspended. -/
structure PausePass where
  blocked : List ReplicaId
  ahead : List ℕ
  current : Option (ℕ × SuspendStage) := none

structure Pauses where
  /-- The declared services, and whether they may be paused. -/
  pausable : Dict ServiceKey Bool := ∅
  replicas : List PausableReplica := []
  sessions : List BackendKey := []
  egress : List ReplicaId := []
  connected : List IpAddr := []
  tasks : List ResumeTask := []
  pass : Option PausePass := none
  /-- The commands that were sent, the latest first. -/
  sent : List (PauseCommand × ReplicaId) := []
  nextCell : ℕ := 0

inductive PauseAction
  /-- The configuration declares a service. -/
  | declare (k : ServiceKey) (pausable : Bool)
  | removeService (k : ServiceKey)
  /-- A replica is dropped, when its node is lost. -/
  | removeReplica (cell : ℕ)
  /-- `apply_services_report`. -/
  | report (sender : IpAddr) (list : List (ServiceKey × Option String)) (paused : List String)
  /-- A pass after a change of the configuration, or of the timeout loop. -/
  | reconcile
  /-- A client is reserved on a replica. -/
  | reserveClient (cell : ℕ)
  | setClients (cell clients : ℕ)
  /-- `resume_trigger_source`. -/
  | resume (cell : ℕ)
  | claimSession (key : BackendKey)
  | dropSession (key : BackendKey)
  | reserveEgress (id : ReplicaId)
  | dropEgress (id : ReplicaId)
  | connect (ip : IpAddr)
  | disconnect (ip : IpAddr)
  /-- A task sends its command, or gives up without a stream. -/
  | sendResume (cell : ℕ)
  /-- The command is acknowledged, or not in time. -/
  | finishResume (cell : ℕ) (ok : Bool)
  /-- The pass goes to a replica. -/
  | visit (cell : ℕ)
  /-- The pass goes on with the replica that it is at. -/
  | advance
  | finishPass

namespace Pauses

def hasSession (s : Pauses) (id : ReplicaId) : Bool := s.sessions.any fun key => key.replica = id

def hasOutgoingWork (s : Pauses) (id : ReplicaId) : Bool :=
  s.hasSession id || decide (id ∈ s.egress)

def isPausable (s : Pauses) (k : ServiceKey) : Bool := (s.pausable.lookup k).getD false

def lastCommand (s : Pauses) (id : ReplicaId) : Option PauseCommand :=
  (s.sent.find? fun x => x.2 = id).map Prod.fst

def modify (s : Pauses) (cell : ℕ) (f : PausableReplica → PausableReplica) : Pauses :=
  { s with replicas := s.replicas.map fun r => if r.cell = cell then f r else r }

/-- `resume`: a resume that is under way is shared. -/
def resume (s : Pauses) (cell : ℕ) : Pauses :=
  match s.replicas.find? fun r => r.cell = cell with
  | none => s
  | some r =>
    if r.id.docker.isSome && r.suspended && !r.resuming then
      { s.modify cell fun r => { r with resuming := true } with
        tasks := s.tasks ++ [{ cell := cell, id := r.id }] }
    else s

/-! ## Reports -/

/-- A replica that its service has already is left alone; a new one takes over what its host says
of the container. -/
def addReplica (sender : IpAddr) (paused : List String) (s : Pauses)
    (x : ServiceKey × Option String) : Pauses :=
  let known := s.replicas.any fun r => r.service = x.1 && r.id = ⟨sender, x.2⟩
  if x.1 ∉ s.pausable ∨ known then s
  else
    { s with
      replicas := s.replicas ++ [{
        service := x.1
        id := ⟨sender, x.2⟩
        cell := s.nextCell
        suspended := x.2.any fun c => c ∈ paused }]
      nextCell := s.nextCell + 1 }

/-- Drop the replicas of the sender that are not in its list, and add those that are. -/
def reported (s : Pauses) (sender : IpAddr) (list : List (ServiceKey × Option String))
    (paused : List String) : Pauses :=
  let kept := s.replicas.filter fun r =>
    r.id.ip ≠ sender || decide ((r.service, r.id.docker) ∈ list)
  list.foldl (addReplica sender paused) { s with replicas := kept }

/-! ## Passes -/

/-- The replica forbids to pause its container. -/
def forbids (s : Pauses) (r : PausableReplica) : Bool :=
  !s.isPausable r.service || r.clients != 0 || r.resuming

def blocked (s : Pauses) : List ReplicaId := (s.replicas.filter s.forbids).map (·.id)

def startPass (s : Pauses) : Pauses :=
  { s with pass := some { blocked := s.blocked, ahead := s.replicas.map (·.cell) } }

/-- `reconcile_suspend`, up to the map of egress edges. -/
def visit (s : Pauses) (p : PausePass) (r : PausableReplica) : Pauses :=
  let p := { p with ahead := p.ahead.filter fun c => c ≠ r.cell }
  let s := { s with pass := some p }
  if r.id.docker.isSome then
    if s.isPausable r.service && decide (r.id ∉ p.blocked) then
      if r.suspended || r.clients != 0 || s.hasSession r.id then s
      else { s with pass := some { p with current := some (r.cell, .egress) } }
    else s.resume r.cell
  else s

/-- The rest of `reconcile_suspend`. A command to a node without a stream is lost. -/
def advance (s : Pauses) (p : PausePass) (r : PausableReplica) : SuspendStage → Pauses
  | .egress =>
    let next := if r.id ∈ s.egress then none else some (r.cell, .sending)
    { s with pass := some { p with current := next } }
  | .sending =>
    { s with
      sent := if r.id.ip ∈ s.connected then (.suspend, r.id) :: s.sent else s.sent
      pass := some { p with current := some (r.cell, .marking) } }
  | .marking =>
    { s.modify r.cell fun r => { r with suspended := true } with
      pass := some { p with current := none } }

/-! ## Tasks -/

/-- The end of a resume. Without the replica there is nothing to change. -/
def finishResume (s : Pauses) (cell : ℕ) (ok : Bool) : Pauses :=
  { s.modify cell fun r => { r with suspended := !ok, resuming := false } with
    tasks := s.tasks.filter fun t => t.cell ≠ cell }

def sendResume (s : Pauses) (t : ResumeTask) : Pauses :=
  if t.id.ip ∈ s.connected then
    { s with
      sent := (.resume, t.id) :: s.sent
      tasks := s.tasks.map fun u => if u.cell = t.cell then { u with sent := true } else u }
  else s.finishResume t.cell false

/-! ## Steps -/

/-- A section under the lock of the services. -/
def locked (s s' : Pauses) : Option Pauses := if s.pass.isNone then some s' else none

def step (s : Pauses) : PauseAction → Option Pauses
  | .declare k pausable => s.locked { s with pausable := s.pausable.insert k pausable }
  | .removeService k =>
    s.locked { s with
      pausable := s.pausable.erase k
      replicas := s.replicas.filter fun r => r.service ≠ k }
  | .removeReplica cell =>
    s.locked { s with replicas := s.replicas.filter fun r => r.cell ≠ cell }
  | .report sender list paused => s.locked (s.reported sender list paused).startPass
  | .reconcile => s.locked s.startPass
  | .reserveClient cell =>
    s.locked ((s.modify cell fun r => { r with clients := r.clients + 1 }).resume cell)
  | .setClients cell clients => s.locked (s.modify cell fun r => { r with clients := clients })
  | .resume cell => s.locked (s.resume cell)
  | .claimSession key => s.locked { s with sessions := key :: s.sessions }
  | .dropSession key => some { s with sessions := s.sessions.filter fun k => k ≠ key }
  | .reserveEgress id => some { s with egress := id :: s.egress }
  | .dropEgress id => some { s with egress := s.egress.filter fun x => x ≠ id }
  | .connect ip => some { s with connected := ip :: s.connected }
  | .disconnect ip => some { s with connected := s.connected.filter fun x => x ≠ ip }
  | .sendResume cell =>
    (s.tasks.find? fun t => t.cell = cell && !t.sent).map fun t => s.sendResume t
  | .finishResume cell ok =>
    (s.tasks.find? fun t => t.cell = cell && t.sent).map fun t => s.finishResume t.cell ok
  | .visit cell => do
    let p ← s.pass
    let r ← s.replicas.find? fun r => r.cell = cell
    if p.current.isNone && decide (cell ∈ p.ahead) then some (s.visit p r) else none
  | .advance => do
    let p ← s.pass
    let (cell, stage) ← p.current
    let r ← s.replicas.find? fun r => r.cell = cell
    some (s.advance p r stage)
  | .finishPass => do
    let p ← s.pass
    if p.current.isNone && p.ahead.isEmpty then some { s with pass := none } else none

end Pauses

end Nullnet.Server
