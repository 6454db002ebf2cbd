import Nullnet.Client.XfrmCleanup
import Nullnet.Lib.Runs

/-! # Owners that come and go at the same time

The calls of `install_port` and `remove` go on independently. Each (local, remote, port) has a lock,
which is held while its owners change; the batches of multiplexed edges are sent without it. The model
has a call for each owner, with a step for each taking of a lock and each request to the kernel.
Creations succeed; deletions may fail in every way that `Fate` has. -/

namespace Nullnet.Client.NativeXfrm

open Nullnet.Lib

/-! ## Calls -/

/-- Where a call is. A removal carries whether it had no error so far, and whether all deletions of it
succeeded. -/
inductive Phase
  /-- An install waits for the lock. -/
  | installing (e : Edge)
  /-- Under the lock: the inbound policy is created. -/
  | inbounding (e : Edge)
  /-- Under the lock: the transport of a shared edge is created. -/
  | sharing (e : Edge)
  /-- The transport of a multiplexed edge is created. -/
  | batching (e : Edge)
  /-- The transport of a multiplexed edge is deleted. -/
  | removing (e : Edge)
  /-- A removal waits for the lock. -/
  | awaiting (e : Edge) (ok clean : Bool)
  /-- Under the lock: the transport of a shared edge is deleted. -/
  | clearing (e : Edge)
  /-- Under the lock: the inbound policy is deleted. -/
  | deleting (e : Edge) (ok clean : Bool)

namespace Phase

def edge : Phase → Edge
  | installing e | inbounding e | sharing e | batching e | removing e | awaiting e _ _ | clearing e
  | deleting e _ _ => e

/-- The call holds the lock. -/
def locked : Phase → Bool
  | inbounding _ | sharing _ | clearing _ | deleting _ _ _ => true
  | _ => false

def registered : Phase → Bool
  | installing _ | inbounding _ | sharing _ => false
  | _ => true

end Phase

structure Result where
  owner : ℕ
  /-- All deletions of it succeeded. -/
  clean : Bool
  ok : Bool
  deriving DecidableEq

structure Calls where
  xfrm : Xfrm := {}
  /-- Who holds the lock of a peer. -/
  holder : Peer → Option ℕ := fun _ => none
  tasks : Dict ℕ Phase := ∅
  /-- The owners whose install succeeded and whose removal was not begun since. -/
  standing : Finset ℕ := ∅
  results : List Result := []

def Fate.succeeds (f : Fate) : Bool := f.opened && f.accepts.all id && !f.lost

namespace Calls

variable (s : Calls) (owner : ℕ) (e : Edge)

def goto (p : Phase) : Calls := { s with tasks := s.tasks.insert owner p }

def lock : Calls := { s with holder := Function.update s.holder e.peer (some owner) }

def unlock : Calls := { s with holder := Function.update s.holder e.peer none }

def setKernel (k : Kernel) : Calls := { s with xfrm := { s.xfrm with kernel := k } }

def register : Calls := { s with xfrm := s.xfrm.register owner e }

def installed : Calls :=
  { s with tasks := s.tasks.erase owner, standing := insert owner s.standing }

def removed (clean ok : Bool) : Calls :=
  { s with tasks := s.tasks.erase owner, results := ⟨owner, clean, ok⟩ :: s.results }

/-- The end of a removal: the owner is unregistered unless there was an error. -/
def leave (ok clean : Bool) : Calls :=
  (if ok then { s with xfrm := s.xfrm.unregister owner e } else s).removed owner clean ok

def isLast : Bool :=
  decide (owner ∈ s.xfrm.owners e.peer ∧ (s.xfrm.owners e.peer).card = 1)

def go (f : Fate) : Phase → Option Calls
  | .installing e =>
    if s.holder e.peer ≠ none then none
    else if s.xfrm.firstPeer e then some ((s.lock owner e).goto owner (.inbounding e))
    else if e.multiplexed then some ((s.register owner e).goto owner (.batching e))
    else if transportOwnedBy (s.xfrm.owners e.peer) s.xfrm.edges e.id none then
      some ((s.register owner e).installed owner)
    else some ((s.lock owner e).goto owner (.sharing e))
  | .inbounding e =>
    let created := policy s.xfrm.kernel e true false {}
    if created.2 then
      let s := s.setKernel created.1
      -- the first owner of the peer is also the first one of the transport
      some (if e.multiplexed then ((s.register owner e).unlock e).goto owner (.batching e)
        else s.goto owner (.sharing e))
    else none
  | .sharing e =>
    let created := createTransport s.xfrm.kernel e {}
    if created.2 then
      some ((((s.setKernel created.1).register owner e).unlock e).installed owner)
    else none
  | .batching e =>
    let created := createTransport s.xfrm.kernel e {}
    if created.2 then some ((s.setKernel created.1).installed owner) else none
  | .removing e =>
    if f.opened then
      let deleted := deleteTransport s.xfrm.kernel e f
      some ((s.setKernel deleted.1).goto owner (.awaiting e deleted.2 f.succeeds))
    else some (s.removed owner false false)
  | .awaiting e ok clean =>
    if s.holder e.peer ≠ none then none
    else if !e.multiplexed &&
        !transportOwnedBy (s.xfrm.owners e.peer) s.xfrm.edges e.id (some owner) then
      some ((s.lock owner e).goto owner (.clearing e))
    else if s.isLast owner e then some ((s.lock owner e).goto owner (.deleting e ok clean))
    else some (s.leave owner e ok clean)
  | .clearing e =>
    if f.opened then
      let deleted := deleteTransport s.xfrm.kernel e f
      let s := s.setKernel deleted.1
      some (if s.isLast owner e then s.goto owner (.deleting e deleted.2 f.succeeds)
        else (s.unlock e).leave owner e deleted.2 f.succeeds)
    else some ((s.unlock e).removed owner false false)
  | .deleting e ok clean =>
    let deleted := policy s.xfrm.kernel e true true f
    some (((s.setKernel deleted.1).unlock e).leave owner e (ok && deleted.2) (clean && f.succeeds))

end Calls

inductive Action
  | install (owner : ℕ) (e : Edge)
  | remove (owner : ℕ)
  | go (owner : ℕ) (f : Fate)

/-- Calls of one owner do not overlap, and an owner is installed only if it is not registered. -/
def Calls.step (s : Calls) : Action → Option Calls
  | .install owner e =>
    if s.tasks.lookup owner = none ∧ s.xfrm.edges.lookup owner = none then
      some (s.goto owner (.installing e))
    else none
  | .remove owner =>
    if s.tasks.lookup owner = none then
      let s := { s with standing := s.standing.erase owner }
      match s.xfrm.edges.lookup owner with
      | none => some (s.removed owner true true)
      | some e => some (s.goto owner (if e.multiplexed then .removing e else .awaiting e true true))
    else none
  | .go owner f => (s.tasks.lookup owner).bind (s.go owner f)

/-! ## Kernel objects -/

def Object.id : Object → Option ℕ
  | .state _ id _ => some id
  | .outbound _ id => some id
  | .inbound _ => none

section

variable {e e' : Edge} {k : Kernel} {f : Fate} {x : Object}

theorem id_of_mem_transport (h : x ∈ e.transport) : x.id = some e.id := by
  simp only [Edge.transport, List.mem_cons, List.not_mem_nil, or_false] at h
  rcases h with rfl | rfl | rfl <;> rfl

theorem transport_congr (hid : e.id = e'.id) (hpeer : e.peer = e'.peer) :
    e.transport = e'.transport := by
  have hlocal : e.localIp = e'.localIp := congrArg Prod.fst hpeer
  have hremote : e.remoteIp = e'.remoteIp := congrArg (fun p => p.2.1) hpeer
  simp [Edge.transport, Edge.state, Edge.outbound, Edge.direction, hid, hpeer, hlocal, hremote]

theorem mem_create : x ∈ (createTransport k e {}).1 ↔ x ∈ k ∨ x ∈ e.transport :=
  mem_createTransport

theorem mem_policy : x ∈ (policy k e true false {}).1 ↔ x ∈ k ∨ x = e.inbound :=
  mem_policy_create.trans (or_congr_right ⟨And.right, fun h => ⟨rfl, h⟩⟩)

theorem mem_requests_delete {y : Object} : ∀ (ns : List (Object → Bool)) (accepts : List Bool)
    (k : Kernel), y ∈ k → (∀ names ∈ ns, names y = false) →
      y ∈ (k.requests (ns.map .delete) accepts).1
  | [], _, _, hy, _ => hy
  | names :: ns, accepts, k, hy, hn => by
    refine mem_requests_delete ns accepts.tail _ (mem_request_delete.mpr ⟨hy, ?_⟩) fun n hmem =>
      hn n (.tail _ hmem)
    rw [hn names (.head _)]
    exact fun h => nomatch h.2

/-- The deletion of a transport leaves other objects; that of a multiplexed edge finds the outbound policy
by the id. -/
theorem mem_delete (hx : x ∈ k) (hnot : x ∉ e.transport) (hid : e.multiplexed = true → x.id ≠ some e.id) :
    x ∈ (deleteTransport k e f).1 := by
  unfold deleteTransport batch
  simp only [Edge.transport, List.mem_cons, List.not_mem_nil, or_false, not_or] at hnot
  split_ifs
  · refine mem_requests_delete
      [e.namesOutbound, fun x => x = e.state e.direction, fun x => x = e.state (!e.direction)] _ _ hx
      fun names hn => ?_
    simp only [List.mem_cons, List.not_mem_nil, or_false] at hn
    rcases hn with rfl | rfl | rfl
    · cases x with
      | outbound peer id =>
        by_cases hm : e.multiplexed = true
        · have hne : id ≠ e.id := fun h => hid hm (congrArg some h)
          simp [Edge.namesOutbound, hne]
        · have hne : ¬(id = e.id ∧ peer = e.peer) := fun h => hnot.2.2 (by rw [h.1, h.2]; rfl)
          simp only [Edge.namesOutbound, Bool.eq_false_of_not_eq_true hm, Bool.false_or,
            ← Bool.decide_and, hne, decide_false]
      | state => rfl
      | inbound => rfl
    · exact decide_eq_false hnot.1
    · exact decide_eq_false hnot.2.1
  · exact hx

theorem requests_delete_ok : ∀ (ns : List (Object → Bool)) (accepts : List Bool) (k : Kernel),
    accepts.all id = true →
      (k.requests (ns.map .delete) accepts).2.all (fun a => a = .ok || a = .missing) = true
  | [], _, _, _ => rfl
  | names :: ns, accepts, k, h => by
    have hhead : accepts.headD true = true := by
      cases accepts with
      | nil => rfl
      | cons a as => exact (Bool.and_eq_true_iff.mp h).1
    have htail : accepts.tail.all id = true := by
      cases accepts with
      | nil => rfl
      | cons a as => exact (Bool.and_eq_true_iff.mp h).2
    refine Bool.and_eq_true_iff.mpr ⟨?_, requests_delete_ok ns accepts.tail _ htail⟩
    rw [hhead]
    simp only [Kernel.request]
    split_ifs <;> rfl

theorem deleteTransport_ok (h : f.succeeds = true) : (deleteTransport k e f).2 = true := by
  simp only [Fate.succeeds, Bool.and_eq_true, Bool.not_eq_true'] at h
  obtain ⟨⟨hopened, haccepts⟩, hlost⟩ := h
  unfold deleteTransport batch
  rw [if_pos hopened, hlost]
  exact requests_delete_ok
    [e.namesOutbound, fun x => x = e.state e.direction, fun x => x = e.state (!e.direction)]
    f.accepts k haccepts

theorem policy_delete_ok (h : f.succeeds = true) : (policy k e true true f).2 = true := by
  simp only [Fate.succeeds, Bool.and_eq_true, Bool.not_eq_true'] at h
  obtain ⟨⟨hopened, haccepts⟩, hlost⟩ := h
  unfold policy batch
  rw [if_pos hopened, hlost]
  exact requests_delete_ok [fun x => x = e.inbound] f.accepts k haccepts

end

end Nullnet.Client.NativeXfrm
