import Mathlib.Data.Finset.Basic
import Nullnet.Lib.Dict
import Nullnet.Lib.Runs

/-! # Carriers

A carrier is a VXLAN link that the policy edges with one carrier id share. `carriers` maps the id to a
`Carrier`, whose `state` is `None` or a `CarrierState`: the index of the link, the VNIs that are
registered on it, and a count of the operations under way. A lock guards the state, but adding and
removing a VNI happens without it, under the count.

The model is about one carrier id and has a call of `carrier` or `release_carrier` for each VNI, with a
step for each read or write of the map, of the count and of the set of VNIs, each taking of the lock
and each answer of the kernel (`Reply`). The things behind an `Arc` have numbers; the strong count of a
`Carrier` is that of the calls that hold it and of the map. Whether a call returns an error
is left out. -/

namespace Nullnet.Client.Carriers

open Nullnet.Lib

/-! ## State -/

/-- What a call is for: `carrier` adds its VNI, `release_carrier` removes it. -/
inductive Op
  | add
  | remove
  deriving DecidableEq

/-- Where a call is. The first number is that of its `Carrier`, the second that of its
`CarrierState`. -/
inductive Phase
  /-- Before it looks into the map. -/
  | entering (op : Op)
  /-- It waits for the lock. -/
  | waiting (c : ℕ) (op : Op)
  /-- Under the lock: the link is created, and looked up if its record is not echoed. -/
  | creating (c : ℕ)
  | searching (c index : ℕ)
  /-- Under the lock: the program is attached to the new link and the link set up. -/
  | starting (c index : ℕ)
  /-- Under the lock: the new link is deleted again. -/
  | undoing (c index : ℕ)
  /-- Under the lock: `release_carrier` reads the count, then the VNIs, or counts itself. -/
  | judging (c a : ℕ)
  | counting (c a : ℕ)
  | joining (c a : ℕ)
  /-- Counted: the kernel adds or removes the VNI. -/
  | working (c a : ℕ) (op : Op)
  /-- Counted: the VNI is entered into the set or taken out of it. -/
  | recording (c a : ℕ) (op : Op)
  /-- Counted: at the beginning of `finish_carrier_operation`. -/
  | finishing (c a : ℕ)
  /-- It was the last one in the count: it looks at the VNIs, then waits for the lock. -/
  | looking (c a : ℕ)
  | locking (c a : ℕ)
  /-- Under the lock: it reads the count again, then the VNIs. -/
  | checking (c a : ℕ)
  | viewing (c a : ℕ)
  /-- Under the lock: the link is removed; `last` if this is done by `release_carrier` itself. -/
  | removing (c a : ℕ) (last : Bool)
  /-- Under the lock: the state is `None` again, the map is looked at. -/
  | clearing (c : ℕ)
  /-- It only has its `Carrier` left to drop. -/
  | returning (c : ℕ)
  deriving DecidableEq

structure Carrier where
  /-- The call that holds the lock. -/
  holder : Option ℕ := none
  state : Option ℕ := none

structure CarrierState where
  index : ℕ := 0
  vnis : Finset ℕ := ∅
  operations : ℕ := 0
  /-- The link could not be removed, and no operation was counted since. -/
  stuck : Bool := false

/-- What became of a link that `carrier` could not make use of. -/
inductive Fate
  | live
  /-- It could not be deleted. -/
  | undeleted
  /-- It was created, but not found. -/
  | unfound
  deriving DecidableEq

structure Link where
  vnis : Finset ℕ := ∅
  fate : Fate := .live

structure State where
  /-- The entry of `carriers` for the id. -/
  entry : Option ℕ := none
  objects : ℕ → Carrier := fun _ => {}
  actives : ℕ → CarrierState := fun _ => {}
  /-- The number of the next thing behind an `Arc`. -/
  fresh : ℕ := 0
  links : ℕ → Option Link := fun _ => none
  calls : Dict ℕ Phase := ∅

/-- An answer of the kernel. A created link has an index that no link has. -/
inductive Reply
  | ok
  | failed
  /-- The kernel did what it was asked, but the call gets an error: its socket waits for the answer only
  so long. -/
  | lost
  | created (index : ℕ) (echoed : Bool)
  deriving DecidableEq

namespace Phase

/-- The `Carrier` that a call holds. -/
def holds : Phase → Option ℕ
  | entering _ => none
  | waiting c _ | creating c | searching c _ | starting c _ | undoing c _ | judging c _
  | counting c _ | joining c _ | working c _ _ | recording c _ _ | finishing c _ | looking c _
  | locking c _ | checking c _ | viewing c _ | removing c _ _ | clearing c | returning c => some c

/-- The `Carrier` that a call has still to do with. -/
def uses : Phase → Option ℕ
  | returning _ => none
  | p => p.holds

/-- The call holds the lock. -/
def locked : Phase → Bool
  | creating _ | searching _ _ | starting _ _ | undoing _ _ | judging _ _ | counting _ _
  | joining _ _ | checking _ _ | viewing _ _ | removing _ _ _ | clearing _ => true
  | _ => false

/-- The `CarrierState` in whose count the call is. -/
def works : Phase → Option ℕ
  | working _ a _ | recording _ a _ | finishing _ a => some a
  | _ => none

end Phase

namespace State

def goto (s : State) (v : ℕ) (p : Phase) : State :=
  { s with calls := s.calls.insert v p }

def setCarrier (s : State) (c : ℕ) (x : Carrier) : State :=
  { s with objects := Function.update s.objects c x }

def setActive (s : State) (a : ℕ) (x : CarrierState) : State :=
  { s with actives := Function.update s.actives a x }

def setLink (s : State) (i : ℕ) (x : Option Link) : State :=
  { s with links := Function.update s.links i x }

def lock (s : State) (c v : ℕ) : State :=
  s.setCarrier c { s.objects c with holder := some v }

def unlock (s : State) (c : ℕ) : State :=
  s.setCarrier c { s.objects c with holder := none }

/-- `operations.fetch_add(1)`. -/
def enlist (s : State) (a : ℕ) : State :=
  let active := s.actives a
  s.setActive a { active with operations := active.operations + 1, stuck := false }

def strongCount (s : State) (c : ℕ) : ℕ :=
  (if s.entry = some c then 1 else 0) + s.calls.entries.countP fun e => e.2.holds = some c

end State

/-! ## Steps -/

def Op.apply (op : Op) (v : ℕ) (vnis : Finset ℕ) : Finset ℕ :=
  match op with
  | .add => insert v vnis
  | .remove => vnis.erase v

/-- The call for `v` goes on; `reply` is the answer of the kernel where one is asked. -/
def advance (s : State) (v : ℕ) (reply : Reply) : Phase → Option State
  | .entering op =>
    match s.entry, op with
    | some c, _ => some (s.goto v (.waiting c op))
    | none, .add =>
      some ({ s with entry := some s.fresh, fresh := s.fresh + 1 }.goto v (.waiting s.fresh .add))
    | none, .remove => some { s with calls := s.calls.erase v }
  | .waiting c op =>
    if (s.objects c).holder ≠ none then none else
    match (s.objects c).state, op with
    | some a, .add => some ((s.enlist a).goto v (.working c a .add))
    | none, .add => some ((s.lock c v).goto v (.creating c))
    | some a, .remove => some ((s.lock c v).goto v (.judging c a))
    | none, .remove => some (s.goto v (.returning c))
  | .creating c =>
    match reply with
    | .created i echoed =>
      if s.links i ≠ none then none else
      some ((s.setLink i (some {})).goto v (if echoed then .starting c i else .searching c i))
    | .failed => some ((s.unlock c).goto v (.returning c))
    | .ok | .lost => none
  | .searching c i =>
    match reply with
    | .ok => some (s.goto v (.starting c i))
    | .failed =>
      some (((s.setLink i (some { fate := .unfound })).unlock c).goto v (.returning c))
    | .lost | .created _ _ => none
  | .starting c i =>
    match reply with
    | .ok =>
      let active := s.fresh
      some ((({ s with fresh := s.fresh + 1 }.setActive active { index := i, operations := 1 }).setCarrier
        c { state := some active }).goto v (.working c active .add))
    | .failed => some (s.goto v (.undoing c i))
    | .lost | .created _ _ => none
  | .undoing c i =>
    match reply with
    | .ok | .lost => some (((s.setLink i none).unlock c).goto v (.returning c))
    | .failed =>
      some (((s.setLink i (some { fate := .undeleted })).unlock c).goto v (.returning c))
    | .created _ _ => none
  | .judging c a =>
    some (s.goto v (if (s.actives a).operations = 0 then .counting c a else .joining c a))
  | .counting c a =>
    some (s.goto v (if (s.actives a).vnis = {v} then .removing c a true else .joining c a))
  | .joining c a => some (((s.enlist a).unlock c).goto v (.working c a .remove))
  | .working c a op =>
    let index := (s.actives a).index
    let change (l : Link) : Link := { l with vnis := op.apply v l.vnis }
    let changed := s.setLink index ((s.links index).map change)
    match reply with
    | .ok => some (changed.goto v (.recording c a op))
    | .lost => some (changed.goto v (.finishing c a))
    | .failed => some (s.goto v (.finishing c a))
    | .created _ _ => none
  | .recording c a op =>
    let active := s.actives a
    some ((s.setActive a { active with vnis := op.apply v active.vnis }).goto v (.finishing c a))
  | .finishing c a =>
    let active := s.actives a
    some ((s.setActive a { active with operations := active.operations - 1 }).goto v
      (if active.operations = 1 then .looking c a else .returning c))
  | .looking c a =>
    some (s.goto v (if (s.actives a).vnis = ∅ then .locking c a else .returning c))
  | .locking c a =>
    if (s.objects c).holder ≠ none then none else
    if (s.objects c).state = some a then some ((s.lock c v).goto v (.checking c a))
    else some (s.goto v (.returning c))
  | .checking c a =>
    if (s.actives a).operations = 0 then some (s.goto v (.viewing c a))
    else some ((s.unlock c).goto v (.returning c))
  | .viewing c a =>
    if (s.actives a).vnis = ∅ then some (s.goto v (.removing c a false))
    else some ((s.unlock c).goto v (.returning c))
  | .removing c a _ =>
    let active := s.actives a
    match reply with
    | .ok =>
      some (((s.setLink active.index none).setCarrier c { holder := some v }).goto v (.clearing c))
    | .lost => some (((s.setLink active.index none).unlock c).goto v (.returning c))
    | .failed =>
      some (((s.setActive a { active with stuck := true }).unlock c).goto v (.returning c))
    | .created _ _ => none
  | .clearing c =>
    let entry := if s.entry = some c ∧ s.strongCount c = 2 then none else s.entry
    some (({ s with entry }.unlock c).goto v (.returning c))
  | .returning _ => some { s with calls := s.calls.erase v }

inductive Action
  | call (v : ℕ) (op : Op)
  | go (v : ℕ) (reply : Reply)
  deriving DecidableEq

/-- Calls for one VNI do not overlap. -/
def step (s : State) : Action → Option State
  | .call v op => if s.calls.lookup v = none then some (s.goto v (.entering op)) else none
  | .go v reply => (s.calls.lookup v).bind (advance s v reply)

end Nullnet.Client.Carriers
