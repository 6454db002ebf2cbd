import Nullnet.Client.PolicySetup

/-! # Epochs of the server

The server sends heartbeats with its epoch. Each of them moves the deadline up to which the forwarding
programs follow the rules. If the epoch has changed, the client first stops forwarding and retires all
edges that it knows of (`heartbeat`, `retire`): the server does not know them any more.

The control channel handles a heartbeat itself and receives nothing meanwhile. A setup message gets a
task, and the tasks of one net id run one after the other, also while a heartbeat is handled.

A step is what happens under the locks of the edges and the maps, or an answer of the kernel. What a setup
does before it comes to the maps is one step with its outcome (`prepare`), apart from the look at the
edges; so is what retiring an edge does after it left the maps (`cleaned`), and the removal of the
transports (`peers`). The engine is there from the beginning. An edge is named by its net id and side. -/

namespace Nullnet.Client.Policy.Epochs

open Nullnet.Server (Ipv4Addr)
open Nullnet.Ebpf.Policy (OutKey)
open Nullnet.Lib

/-! ## State -/

/-- `ns_<id>_c` for the client and `ns_<id>_s` for the server. -/
abbrev Name := ℕ × Bool

def nameOf (m : Server.VxlanSetup) : Name := (m.vxlanId, isClientSide m)

structure GroupEdge where
  key : OutKey
  rule : Ebpf.Policy.Rule
  attachment : Attachment
  isLocal : Bool
  deriving DecidableEq

/-- A rule in a map, and the edge that it is of. -/
structure Entry where
  rule : Ebpf.Policy.Rule
  name : Name
  deriving DecidableEq

inductive Stage
  /-- Not yet at the look at the edges. -/
  | queued
  | preparing
  /-- Ready to enter the maps. -/
  | placed (p : Placed) (delivery : Option Attachment)

structure Task where
  message : Server.VxlanSetup
  stage : Stage

/-- Where the control channel is. -/
inductive Phase
  | idle
  /-- The epoch has changed: the deadline is cleared, then the edges are listed. -/
  | disabling (epoch : List UInt8)
  | listing (epoch : List UInt8)
  /-- The edges are retired; `failed` if there was an error. -/
  | retiring (epoch : List UInt8) (todo : List Name) (failed : Bool)
  /-- An edge has left the maps, with errors if `bad`; the rest of it is cleaned up. -/
  | cleaning (epoch : List UInt8) (todo : List Name) (failed bad : Bool)
      (removed : List (Name × GroupEdge))
  /-- The epoch is stored and the deadline is set. -/
  | arming (epoch : List UInt8)
  /-- A heartbeat returned an error, and the channel has ended. -/
  | stopped
  deriving DecidableEq

structure State where
  now : ℕ := 0
  deadline : ℕ := 0
  edges : Dict Name GroupEdge := ∅
  outgoing : Dict OutKey Entry := ∅
  incoming : Dict Ipv4Addr Entry := ∅
  serverEpoch : Option (List UInt8) := none
  phase : Phase := .idle
  tasks : Dict ℕ Task := ∅
  /-- The number of the next message. -/
  next : ℕ := 1
  /-- The number of the last setup message for an edge. -/
  received : Name → ℕ := fun _ => 0

namespace Task

def name (t : Task) : Name := nameOf t.message

/-- Past the look at the edges. -/
def started (t : Task) : Bool :=
  match t.stage with
  | .queued => false
  | _ => true

end Task

/-! ## Entering the maps -/

/-- Whether the changes of the maps succeed: the first and the second one, and the removal of the first
if the second fails. -/
structure Results where
  first : Bool := true
  second : Bool := true
  undo : Bool := true

def peerName (n : Name) : Name := (n.1, !n.2)

def aim (rule : Ebpf.Policy.Rule) (target : Attachment) : Ebpf.Policy.Rule :=
  { rule with output := target.outer, mac := target.mac }

/-- The edges and the maps after the section of `setup` that enters them. -/
def State.enter (s : State) (n : Name) (p : Placed) (delivery : Option Attachment) (r : Results) :
    State :=
  if p.localTransport then
    match s.edges.lookup (peerName n) with
    | some peer =>
      -- the other end is there: each end gets the attachment of the other one
      let peer := { peer with rule := aim peer.rule (delivery.getD p.output) }
      let edges := s.edges.insert (peerName n) peer
      let rule := aim p.rule (delivery.getD peer.attachment)
      if !r.first then { s with edges }
      else
        let outgoing := s.outgoing.insert peer.key ⟨peer.rule, peerName n⟩
        if !r.second then { s with edges, outgoing }
        else
          { s with
            edges := edges.insert n ⟨p.key, rule, p.output, true⟩
            outgoing := outgoing.insert p.key ⟨rule, n⟩ }
    | none =>
      if !r.first then s
      else
        { s with
          edges := s.edges.insert n ⟨p.key, p.rule, p.output, true⟩
          outgoing := s.outgoing.insert p.key ⟨p.rule, n⟩ }
  else if !r.first then s
  else
    let outgoing := s.outgoing.insert p.key ⟨p.rule, n⟩
    if !r.second then { s with outgoing := if r.undo then outgoing.erase p.key else outgoing }
    else
      { s with
        edges := s.edges.insert n ⟨p.key, p.rule, p.output, false⟩
        outgoing
        incoming := s.incoming.insert p.localIp ⟨p.rule, n⟩ }

/-! ## Retiring -/

/-- The edges whose removal from a map fails for another reason than that they are not there. -/
structure Refused where
  outgoing : List Name := []
  incoming : List Name := []

/-- What `retire` has done so far: the maps, the removed edges, and whether there was an error. -/
structure Retired where
  edges : Dict Name GroupEdge
  outgoing : Dict OutKey Entry
  incoming : Dict Ipv4Addr Entry
  removed : List (Name × GroupEdge) := []
  bad : Bool := false

def Retired.remove (refused : Refused) (r : Retired) (n : Name) : Retired :=
  match r.edges.lookup n with
  | none => r
  | some g =>
    { edges := r.edges.erase n
      outgoing := if refused.outgoing.contains n then r.outgoing else r.outgoing.erase g.key
      incoming := if g.isLocal || refused.incoming.contains n then r.incoming
        else r.incoming.erase g.rule.localIp
      removed := r.removed ++ [(n, g)]
      bad := r.bad || refused.outgoing.contains n || !g.isLocal && refused.incoming.contains n }

def retire (s : State) (n : Name) (refused : Refused) : Option Retired :=
  (s.edges.lookup n).map fun g =>
    let names := if g.isLocal then [(n.1, false), (n.1, true)] else [n]
    names.foldl (Retired.remove refused) { edges := s.edges, outgoing := s.outgoing, incoming := s.incoming }

/-- Edges that could not be cleaned up are entered again. -/
def restore (edges : Dict Name GroupEdge) (removed : List (Name × GroupEdge)) : Dict Name GroupEdge :=
  removed.foldl (fun edges e => if edges.lookup e.1 = none then edges.insert e.1 e.2 else edges) edges

/-! ## Steps -/

/-- What `prepare` gets: the attachment of the container, the link of the carrier, and where packets are
delivered if both ends are on this host and neither is in a container. -/
structure Prepared where
  output : Attachment
  carrier : BitVec 32
  delivery : Option Attachment

def needsDelivery (p : Placed) : Bool :=
  p.localTransport && p.message.dockerContainer.isNone && !p.transport.peerContainer

inductive Action
  | tick (d : ℕ)
  /-- A setup message is received. -/
  | receive (m : Server.VxlanSetup)
  /-- Its task begins. -/
  | start (q : ℕ) (ready : Bool)
  | prepare (q : ℕ) (result : Option Prepared)
  | enter (q : ℕ) (results : Results)
  /-- A heartbeat is received. -/
  | heartbeat (epoch : List UInt8)
  | disable (ok : Bool)
  | list
  | retire (n : Name) (refused : Refused)
  | cleaned (ok : Bool)
  | peers (ok : Bool)
  | arm (ok : Bool)

/-- The heartbeat with the epoch is one with another epoch. -/
def State.changed (s : State) (epoch : List UInt8) : Bool :=
  s.serverEpoch.any fun current => current ≠ epoch

/-- No task of the net id is under way. -/
def State.laneFree (s : State) (id : ℕ) : Bool :=
  s.tasks.entries.all fun e => !(e.2.started && e.2.message.vxlanId == id)

def State.drop (s : State) (q : ℕ) : State := { s with tasks := s.tasks.erase q }

def State.setStage (s : State) (q : ℕ) (t : Task) (stage : Stage) : State :=
  { s with tasks := s.tasks.insert q { t with stage } }

/-- The task for message `q` goes on. -/
def taskStep (s : State) (q : ℕ) (t : Task) : Action → Option State
  | .start _ ready =>
    match t.stage with
    | .queued =>
      if s.laneFree t.message.vxlanId then
        if (checkSetup ready t.message).toOption.isNone || (s.edges.lookup t.name).isSome then
          some (s.drop q)
        else some (s.setStage q t .preparing)
      else none
    | _ => none
  | .prepare _ result =>
    match t.stage with
    | .preparing =>
      match result.bind fun x => (place true t.message x.output x.carrier).map (·, x.delivery) with
      | none => some (s.drop q)
      | some (p, delivery) =>
        if needsDelivery p then
          if delivery.isNone then some (s.drop q) else some (s.setStage q t (.placed p delivery))
        else some (s.setStage q t (.placed p none))
    | _ => none
  | .enter _ results =>
    match t.stage with
    | .placed p delivery => some ((s.enter t.name p delivery results).drop q)
    | _ => none
  | _ => none

def channelStep (s : State) : Action → Option State
  | .receive m =>
    match s.phase with
    | .idle =>
      some { s with
        tasks := s.tasks.insert s.next ⟨m, .queued⟩
        received := Function.update s.received (nameOf m) s.next
        next := s.next + 1 }
    | _ => none
  | .heartbeat epoch =>
    match s.phase with
    | .idle =>
      some { s with
        next := s.next + 1
        phase := if epoch.length ≠ 16 then .stopped
          else if s.changed epoch then .disabling epoch else .arming epoch }
    | _ => none
  | .disable ok =>
    match s.phase with
    | .disabling epoch =>
      some (if ok then { s with deadline := 0, phase := .listing epoch } else { s with phase := .stopped })
    | _ => none
  | .list =>
    match s.phase with
    | .listing epoch => some { s with phase := .retiring epoch s.edges.keys false }
    | _ => none
  | .retire n refused =>
    match s.phase with
    | .retiring epoch todo failed =>
      if todo.contains n then
        match retire s n refused with
        | none => some { s with phase := .retiring epoch (todo.erase n) failed }
        | some r =>
          some { s with
            edges := r.edges, outgoing := r.outgoing, incoming := r.incoming
            phase := .cleaning epoch (todo.erase n) failed r.bad r.removed }
      else none
    | _ => none
  | .cleaned ok =>
    match s.phase with
    | .cleaning epoch todo failed bad removed =>
      if ok && !bad then some { s with phase := .retiring epoch todo failed }
      else some { s with edges := restore s.edges removed, phase := .retiring epoch todo true }
    | _ => none
  | .peers ok =>
    match s.phase with
    | .retiring epoch [] failed =>
      some { s with phase := if ok && !failed then .arming epoch else .stopped }
    | _ => none
  | .arm ok =>
    match s.phase with
    | .arming epoch =>
      some (if ok then
          { s with serverEpoch := some epoch, deadline := s.now + 3000000000, phase := .idle }
        else { s with serverEpoch := some epoch, phase := .stopped })
    | _ => none
  | _ => none

def step (s : State) : Action → Option State
  | .tick d => some { s with now := s.now + d }
  | .start q ready => (s.tasks.lookup q).bind fun t => taskStep s q t (.start q ready)
  | .prepare q result => (s.tasks.lookup q).bind fun t => taskStep s q t (.prepare q result)
  | .enter q results => (s.tasks.lookup q).bind fun t => taskStep s q t (.enter q results)
  | a => channelStep s a

end Nullnet.Client.Policy.Epochs
