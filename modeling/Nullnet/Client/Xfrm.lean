import Nullnet.Lib.Dict
import Nullnet.Server.Net
import Mathlib.Data.Finset.Card

/-! # The encrypted edges of a client

An edge between two hosts is encrypted by the kernel: a security association each way and an outbound
policy for the transport of the edge, and one inbound policy for everything that comes from the other
host on the port. The client keeps who uses what (`Xfrm.edges`, `Xfrm.peers`), and the objects of the
kernel go with their last owner.

The kernel answers each request of a batch on its own, so that a batch that fails may have been carried
out in part; and an answer can get lost (`Fate`). An install that fails takes its owner out of the maps
again, or never entered it. -/

namespace Nullnet.Client.NativeXfrm

open Nullnet.Lib
open Nullnet.Server (Ipv4Addr)

/-! ## Edges and their objects -/

abbrev Peer : Type := Ipv4Addr × Ipv4Addr × UInt16

/-- An edge; the mark, the indices of the associations and the index of the policy are made from its
id. -/
structure Edge where
  id : ℕ
  generation : ℕ
  localIp : Ipv4Addr
  remoteIp : Ipv4Addr
  port : UInt16
  deriving DecidableEq

inductive Object
  | state (destination : Ipv4Addr) (id : ℕ) (direction : Bool)
  | outbound (peer : Peer) (id : ℕ)
  | inbound (peer : Peer)
  deriving DecidableEq

/-- A request to the kernel; what a deletion is for is found by a part of the object. -/
inductive Message
  | create (x : Object)
  | delete (names : Object → Bool)

namespace Edge

variable (e : Edge)

def peer : Peer := (e.localIp, e.remoteIp, e.port)

def direction : Bool := decide (e.remoteIp < e.localIp)

def multiplexed : Bool := decide (e.generation ≠ 0)

def state (direction : Bool) : Object :=
  .state (if direction ≠ e.direction then e.localIp else e.remoteIp) e.id direction

def outbound : Object := .outbound e.peer e.id

def inbound : Object := .inbound e.peer

def transport : List Object := [e.state e.direction, e.state (!e.direction), e.outbound]

/-- The policy that the deletion of the outbound policy finds: the one with the index of a multiplexed
edge, and otherwise the one with the hosts, the port and the mark. -/
def namesOutbound : Object → Bool
  | .outbound peer id => id = e.id && (e.multiplexed || decide (peer = e.peer))
  | _ => false

def stateMessage (direction delete : Bool) : Message :=
  if delete then .delete fun x => x = e.state direction else .create (e.state direction)

def policyMessage (inbound delete : Bool) : Message :=
  match inbound, delete with
  | true, true => .delete fun x => x = e.inbound
  | true, false => .create e.inbound
  | false, true => .delete e.namesOutbound
  | false, false => .create e.outbound

theorem inbound_notMem_transport : e.inbound ∉ e.transport := by
  simp [inbound, transport, state, outbound]

end Edge

/-! ## Requests to the kernel -/

abbrev Kernel : Type := Finset Object

inductive Answered
  | ok
  | missing
  | error
  deriving DecidableEq

/-- A request that the kernel accepts or refuses. What exists is not created again. -/
def Kernel.request (k : Kernel) (m : Message) (accepts : Bool) : Kernel × Answered :=
  match accepts, m with
  | false, _ => (k, .error)
  | true, .create x => if x ∈ k then (k, .error) else (insert x k, .ok)
  | true, .delete names =>
    if ∃ x ∈ k, names x then (k.filter fun x => names x = false, .ok) else (k, .missing)

/-- Requests that are sent together: the kernel goes through all of them. -/
def Kernel.requests (k : Kernel) : List Message → List Bool → Kernel × List Answered
  | [], _ => (k, [])
  | m :: ms, accepts =>
    let first := k.request m (accepts.headD true)
    let rest := Kernel.requests first.1 ms accepts.tail
    (rest.1, first.2 :: rest.2)

/-- What becomes of requests that are sent together: whether there is a socket to send them on, which
of them the kernel accepts, and whether its answers get lost. -/
structure Fate where
  opened : Bool := true
  accepts : List Bool := []
  lost : Bool := false

/-- Send requests and read the answers; a deletion that finds nothing is as good as one that does. -/
def batch (k : Kernel) (messages : List Message) (delete : Bool) (f : Fate) : Kernel × Bool :=
  if f.opened then
    let (k, answers) := k.requests messages f.accepts
    (k, !f.lost && answers.all fun a => a = .ok || (delete && a = .missing))
  else (k, false)

def policy (k : Kernel) (e : Edge) (inbound delete : Bool) (f : Fate) : Kernel × Bool :=
  batch k [e.policyMessage inbound delete] delete f

/-- Create the associations and the outbound policy of an edge. -/
def createTransport (k : Kernel) (e : Edge) (f : Fate) : Kernel × Bool :=
  batch k [e.stateMessage e.direction false, e.stateMessage (!e.direction) false,
    e.policyMessage false false] false f

def deleteTransport (k : Kernel) (e : Edge) (f : Fate) : Kernel × Bool :=
  batch k [e.policyMessage false true, e.stateMessage e.direction true,
    e.stateMessage (!e.direction) true] true f

/-! ## Owners -/

/-- The kernel, `EDGES` and `PEERS`. A peer that is not in the map has no owner. -/
structure Xfrm where
  kernel : Kernel := ∅
  edges : Dict ℕ Edge := ∅
  peers : Dict Peer (Finset ℕ) := ∅

def transportOwnedBy (owners : Finset ℕ) (edges : Dict ℕ Edge) (id : ℕ) (except : Option ℕ) :
    Bool :=
  decide (∃ owner ∈ owners, some owner ≠ except ∧
    (edges.lookup owner).any (fun edge => edge.id = id) = true)

/-- What becomes of the requests of an install. -/
structure InstallFates where
  inbound : Fate := {}
  transport : Fate := {}
  undo : Fate := {}

structure RemoveFates where
  transport : Fate := {}
  inbound : Fate := {}

namespace Xfrm

def owners (s : Xfrm) (p : Peer) : Finset ℕ := (s.peers.lookup p).getD ∅

def register (s : Xfrm) (owner : ℕ) (e : Edge) : Xfrm :=
  { s with
    edges := s.edges.insert owner e
    peers := s.peers.insert e.peer (insert owner (s.owners e.peer)) }

def unregister (s : Xfrm) (owner : ℕ) (e : Edge) : Xfrm :=
  { s with
    edges := s.edges.erase owner
    peers := s.peers.insert e.peer ((s.owners e.peer).erase owner) }

def firstPeer (s : Xfrm) (e : Edge) : Bool := decide (s.owners e.peer = ∅)

/-- Create the inbound policy for the first owner of a peer. -/
def createInbound (s : Xfrm) (e : Edge) (f : Fate) : Xfrm × Bool :=
  if s.firstPeer e then
    let created := policy s.kernel e true false f
    ({ s with kernel := created.1 }, created.2)
  else (s, true)

/-- Delete the inbound policy, whatever comes of it. -/
def undoInbound (s : Xfrm) (e : Edge) (f : Fate) : Xfrm :=
  { s with kernel := (policy s.kernel e true true f).1 }

/-- `install_unique`: the owner is registered before the batch, and taken out if it fails. -/
def installUnique (s : Xfrm) (owner : ℕ) (e : Edge) (r : InstallFates) : Xfrm × Bool :=
  let inbound := s.createInbound e r.inbound
  if inbound.2 then
    let s := inbound.1.register owner e
    let created := createTransport s.kernel e r.transport
    let s := { s with kernel := created.1 }
    if created.2 then (s, true)
    else
      let s := s.unregister owner e
      (if s.owners e.peer = ∅ then s.undoInbound e r.undo else s, false)
  else (inbound.1, false)

/-- `install_port`: a transport that is not multiplexed is shared, and its owner is registered after
the batch. -/
def installPort (s : Xfrm) (owner : ℕ) (e : Edge) (r : InstallFates) : Xfrm × Bool :=
  if e.multiplexed then s.installUnique owner e r
  else
    let firstPeer := s.firstPeer e
    let firstTransport := !transportOwnedBy (s.owners e.peer) s.edges e.id none
    let inbound := s.createInbound e r.inbound
    if inbound.2 then
      let s := inbound.1
      let created :=
        if firstTransport then createTransport s.kernel e r.transport else (s.kernel, true)
      let s := { s with kernel := created.1 }
      if created.2 then (s.register owner e, true)
      else (if firstPeer then s.undoInbound e r.undo else s, false)
    else (inbound.1, false)

/-- The end of a removal: the inbound policy goes with the last owner, and the owner unless there was
an error. -/
def removeInbound (s : Xfrm) (owner : ℕ) (e : Edge) (ok : Bool) (f : Fate) : Xfrm × Bool :=
  let deleted :=
    if owner ∈ s.owners e.peer ∧ (s.owners e.peer).card = 1 then policy s.kernel e true true f
    else (s.kernel, true)
  let s := { s with kernel := deleted.1 }
  if ok && deleted.2 then (s.unregister owner e, true) else (s, false)

/-- `remove_unique`: without a socket for the transport it gives up at once. -/
def removeUnique (s : Xfrm) (owner : ℕ) (e : Edge) (d : RemoveFates) : Xfrm × Bool :=
  if d.transport.opened then
    let deleted := deleteTransport s.kernel e d.transport
    { s with kernel := deleted.1 }.removeInbound owner e deleted.2 d.inbound
  else (s, false)

/-- `remove`: a shared transport that others use stays. -/
def remove (s : Xfrm) (owner : ℕ) (d : RemoveFates) : Xfrm × Bool :=
  match s.edges.lookup owner with
  | none => (s, true)
  | some e =>
    if e.multiplexed then s.removeUnique owner e d
    else
      let lastTransport := !transportOwnedBy (s.owners e.peer) s.edges e.id (some owner)
      if lastTransport then s.removeUnique owner e d
      else s.removeInbound owner e true d.inbound

end Xfrm

/-! ## What requests leave in the kernel -/

/-- The objects whose creation the kernel accepts. -/
def accepted : List Object → List Bool → List Object
  | [], _ => []
  | x :: xs, accepts =>
    if accepts.headD true then x :: accepted xs accepts.tail else accepted xs accepts.tail

/-- The objects of an edge's transport whose creation is carried out. -/
def Fate.made (f : Fate) (e : Edge) : List Object :=
  if f.opened then accepted e.transport f.accepts else []

def Fate.carries (f : Fate) : Bool := f.opened && f.accepts.headD true

theorem accepted_subset : ∀ (xs : List Object) (accepts : List Bool), accepted xs accepts ⊆ xs
  | [], _ => fun _ h => h
  | x :: xs, accepts => by
    have ih := accepted_subset xs accepts.tail
    rw [accepted]
    split_ifs
    · exact List.cons_subset_cons x ih
    · exact fun y hy => .tail _ (ih hy)

theorem Fate.made_subset (f : Fate) (e : Edge) : f.made e ⊆ e.transport := by
  unfold Fate.made
  split_ifs
  · exact accepted_subset _ _
  · exact List.nil_subset _

theorem mem_requests_create {y : Object} : ∀ (xs : List Object) (accepts : List Bool) (k : Kernel),
    y ∈ (k.requests (xs.map .create) accepts).1 ↔ y ∈ k ∨ y ∈ accepted xs accepts
  | [], _, k => by simp [Kernel.requests, accepted]
  | x :: xs, accepts, k => by
    rw [List.map_cons, Kernel.requests, mem_requests_create xs, accepted]
    cases accepts.headD true
    · rfl
    · by_cases hx : x ∈ k
      · simp only [Kernel.request, if_pos hx, if_true, List.mem_cons]
        constructor
        · rintro (h | h)
          · exact .inl h
          · exact .inr (.inr h)
        · rintro (h | rfl | h)
          · exact .inl h
          · exact .inl hx
          · exact .inr h
      · simp only [Kernel.request, if_neg hx, if_true, List.mem_cons, Finset.mem_insert]
        tauto

variable {k : Kernel} {e : Edge} {f : Fate} {x : Object}

theorem mem_createTransport : x ∈ (createTransport k e f).1 ↔ x ∈ k ∨ x ∈ f.made e := by
  unfold createTransport batch Fate.made
  split_ifs
  · exact mem_requests_create e.transport f.accepts k
  · simp

theorem mem_policy_create :
    x ∈ (policy k e true false f).1 ↔ x ∈ k ∨ f.carries = true ∧ x = e.inbound := by
  unfold policy batch Fate.carries
  split_ifs with ho
  · have h := mem_requests_create (y := x) [e.inbound] f.accepts k
    rw [ho, Bool.true_and]
    refine h.trans (or_congr Iff.rfl ?_)
    unfold accepted
    split_ifs with hh
    · simp only [accepted, hh, List.mem_singleton, true_and]
    · exact ⟨fun hx => absurd hx List.not_mem_nil, fun hx => absurd hx.1 hh⟩
  · simp [ho]

theorem policy_create_ok :
    (policy k e true false f).2 = true ↔ f.carries = true ∧ e.inbound ∉ k ∧ f.lost = false := by
  unfold policy batch Fate.carries
  split_ifs with ho
  · simp only [Kernel.requests, Edge.policyMessage, ho, Bool.true_and, List.all_cons, List.all_nil,
      Bool.and_true, Bool.and_eq_true, Bool.false_and, Bool.or_false, decide_eq_true_eq,
      Bool.not_eq_true']
    cases f.accepts.headD true
    · simp [Kernel.request]
    · by_cases hx : e.inbound ∈ k <;> simp [Kernel.request, hx]
  · simp [ho]

theorem mem_request_delete {names : Object → Bool} {accepts : Bool} :
    x ∈ (k.request (.delete names) accepts).1 ↔ x ∈ k ∧ ¬(accepts = true ∧ names x = true) := by
  cases accepts
  · simp [Kernel.request]
  · by_cases h : ∃ x ∈ k, names x = true
    · simp [Kernel.request, if_pos h]
    · simp only [Kernel.request, if_neg h, true_and]
      exact ⟨fun hx => ⟨hx, fun hn => h ⟨x, hx, hn⟩⟩, And.left⟩

theorem of_mem_requests_delete {y : Object} : ∀ (ns : List (Object → Bool)) (accepts : List Bool)
    (k : Kernel), y ∈ (k.requests (ns.map .delete) accepts).1 →
      y ∈ k ∧ ((k.requests (ns.map .delete) accepts).2.all (fun a => a = .ok || a = .missing) = true →
        ∀ names ∈ ns, names y = false)
  | [], _, _, hy => ⟨hy, fun _ _ hn => absurd hn List.not_mem_nil⟩
  | names :: ns, accepts, k, hy => by
    obtain ⟨hfirst, hrest⟩ := of_mem_requests_delete ns accepts.tail _ hy
    obtain ⟨hk, hnot⟩ := mem_request_delete.mp hfirst
    refine ⟨hk, fun hall n hn => ?_⟩
    obtain ⟨hok, hall⟩ := Bool.and_eq_true_iff.mp hall
    rcases List.mem_cons.mp hn with rfl | hn
    · -- a refused deletion is answered by an error
      cases hacc : accepts.headD true with
      | false => rw [hacc] at hok; exact absurd hok (by simp [Kernel.request])
      | true => exact Bool.eq_false_of_not_eq_true fun hny => hnot ⟨hacc, hny⟩
    · exact hrest hall n hn

theorem mem_policy_delete :
    x ∈ (policy k e true true f).1 ↔ x ∈ k ∧ ¬(f.carries = true ∧ x = e.inbound) := by
  unfold policy batch Fate.carries
  split_ifs with ho
  · refine mem_request_delete.trans ?_
    simp [ho]
  · simp [ho]

theorem carries_of_policy_delete (h : (policy k e true true f).2 = true) : f.carries = true := by
  unfold policy batch at h
  unfold Fate.carries
  split_ifs at h with ho
  rw [ho, Bool.true_and]
  by_contra hacc
  simp only [Kernel.requests, Bool.eq_false_of_not_eq_true hacc, Kernel.request] at h
  simp at h

end Nullnet.Client.NativeXfrm
