import Nullnet.Lib.Dict
import Nullnet.Server.Net
import Mathlib.Data.Finset.Basic

/-! # The open flows of a client

A client keeps, for each owner (a container, or a container and a port), the flows that are open. The
set is filled when a flow starts, loses a flow when the kernel says that it ended, and is replaced as a
whole from a dump of the kernel's table. What the server learns are the crossings between no flow and
one flow: `Transition.active` and `Transition.idle`. While an owner is suppressed (the client has just
flushed its flows from the kernel's table) that it has no flow is not reported.

The time is an argument of the operations that read it. -/

namespace Nullnet.Client

open Nullnet.Lib
open Nullnet.Server (Ipv4Addr)

structure Flow where
  srcIp : Ipv4Addr
  srcPort : UInt16
  dstIp : Ipv4Addr
  dstPort : UInt16
  proto : UInt8
  deriving DecidableEq

abbrev FlowSet : Type := Finset Flow

/-- The flows of an owner by their destination. -/
abbrev ByDst : Type := Dict Ipv4Addr FlowSet

inductive Transition (K : Type)
  | active (owner : K)
  | idle (owner : K)
  deriving DecidableEq

def Transition.owner {K : Type} : Transition K → K
  | .active owner => owner
  | .idle owner => owner

structure Change (K : Type) where
  ownerKey : Option K := none
  owner : Option (Transition K) := none
  dsts : List (Ipv4Addr × Bool) := []

structure OpenFlows (K : Type) where
  perOwner : Dict K ByDst := ∅
  ownerOf : Dict Flow K := ∅
  suppressed : Dict K ℕ := ∅
  revisions : Dict K UInt64 := ∅
  nextRevision : UInt64 := 0

/-! ## Flows by destination -/

namespace ByDst

/-- `entry(dst).or_default().insert(flow)`. -/
def add (m : ByDst) (flow : Flow) : ByDst :=
  m.insert flow.dstIp (insert flow ((m.lookup flow.dstIp).getD ∅))

/-- Remove a flow, and its destination with the last one; the flag says that the destination has no
flow any more. -/
def remove (m : ByDst) (flow : Flow) : ByDst × Bool :=
  match m.lookup flow.dstIp with
  | none => (m, false)
  | some set =>
    if set.erase flow = ∅ then (m.erase flow.dstIp, true)
    else (m.insert flow.dstIp (set.erase flow), false)

/-- No destination is kept without a flow. -/
def Tidy (m : ByDst) : Prop := ∀ dst set, m.lookup dst = some set → set.Nonempty

theorem tidy_empty : Tidy ∅ := fun dst set h => by rw [AList.lookup_empty] at h; cases h

variable {m : ByDst}

theorem Tidy.add (h : m.Tidy) (flow : Flow) : (m.add flow).Tidy := by
  intro dst set hset
  rw [ByDst.add, Dict.lookup_insert] at hset
  split_ifs at hset with hd
  · cases hset
    exact Finset.insert_nonempty _ _
  · exact h dst set hset

theorem Tidy.remove (h : m.Tidy) (flow : Flow) : (m.remove flow).1.Tidy := by
  unfold ByDst.remove
  rcases hm : m.lookup flow.dstIp with - | set
  · exact h
  · dsimp only
    split_ifs with he
    · intro dst set' hset
      rw [Dict.lookup_erase] at hset
      split_ifs at hset
      exact h dst set' hset
    · intro dst set' hset
      rw [Dict.lookup_insert] at hset
      split_ifs at hset
      · cases hset
        exact Finset.nonempty_iff_ne_empty.mpr he
      · exact h dst set' hset

theorem add_ne_nil (m : ByDst) (flow : Flow) : (m.add flow).entries ≠ [] := List.cons_ne_nil _ _

def ofFlows (flows : List Flow) : ByDst := flows.foldl add ∅

theorem tidy_ofFlows (flows : List Flow) : (ofFlows flows).Tidy := by
  suffices h : ∀ m : ByDst, m.Tidy → (flows.foldl add m).Tidy from h ∅ tidy_empty
  induction flows with
  | nil => exact fun m hm => hm
  | cons f flows ih => exact fun m hm => ih _ (hm.add f)

theorem ofFlows_eq_nil {flows : List Flow} : (ofFlows flows).entries = [] ↔ flows = [] := by
  rcases List.eq_nil_or_concat flows with rfl | ⟨l, f, rfl⟩
  · exact ⟨fun _ => rfl, fun _ => rfl⟩
  · rw [ofFlows, List.concat_eq_append, List.foldl_append]
    exact ⟨fun h => absurd h (add_ne_nil _ f), fun h => absurd h (by simp)⟩

end ByDst

/-! ## Operations -/

namespace OpenFlows

variable {K : Type} [DecidableEq K] {s : OpenFlows K} {owner : K} {s' : OpenFlows K} {byDst : ByDst}

def revision (s : OpenFlows K) (owner : K) : UInt64 := (s.revisions.lookup owner).getD 0

def changed (s : OpenFlows K) (owner : K) : OpenFlows K :=
  { s with
    nextRevision := s.nextRevision + 1
    revisions := s.revisions.insert owner (s.nextRevision + 1) }

/-- That the owner has no flow cannot be trusted now. -/
def isSuppressed (s : OpenFlows K) (owner : K) (now : ℕ) : Bool :=
  (s.suppressed.lookup owner).any fun until_ => now < until_

/-- Store the flows of an owner; no flows are stored as no entry. -/
def store (perOwner : Dict K ByDst) (owner : K) (byDst : ByDst) : Dict K ByDst :=
  if byDst.entries = [] then perOwner.erase owner else perOwner.insert owner byDst

def insert (s : OpenFlows K) (owner : K) (flow : Flow) : Change K × OpenFlows K :=
  let s := s.changed owner
  let byDst := (s.perOwner.lookup owner).getD ∅
  let set := (byDst.lookup flow.dstIp).getD ∅
  let s := { s with
    suppressed := s.suppressed.erase owner
    perOwner := s.perOwner.insert owner (byDst.add flow) }
  if flow ∈ set then ({}, s)
  else
    ({ ownerKey := some owner
       owner := if byDst.entries = [] then some (.active owner) else none
       dsts := if set = ∅ then [(flow.dstIp, true)] else [] },
     { s with ownerOf := s.ownerOf.insert flow owner })

def remove (s : OpenFlows K) (flow : Flow) (now : ℕ) : Change K × OpenFlows K :=
  match s.ownerOf.lookup flow with
  | none => ({}, s)
  | some owner =>
    let s := { s with ownerOf := s.ownerOf.erase flow }.changed owner
    match s.perOwner.lookup owner with
    | none => ({}, s)
    | some byDst =>
      let dstIdle := (byDst.remove flow).2
      let byDst := (byDst.remove flow).1
      let s := { s with perOwner := store s.perOwner owner byDst }
      if s.isSuppressed owner now then ({}, s)
      else
        ({ ownerKey := some owner
           dsts := if dstIdle then [(flow.dstIp, false)] else []
           owner := if byDst.entries = [] then some (.idle owner) else none }, s)

/-- Stop trusting that the owner has no flow. -/
def suppressFor (s : OpenFlows K) (owner : K) (window now : ℕ) : OpenFlows K :=
  let s := s.changed owner
  { s with suppressed := s.suppressed.insert owner (now + window) }

/-- Replace the flows of an owner by those of a dump. -/
def reconcile (s : OpenFlows K) (owner : K) (flows : List Flow) (now : ℕ) :
    Change K × OpenFlows K :=
  let s := s.changed owner
  let old := s.perOwner.lookup owner
  let oldDsts := (old.getD ∅).keys
  let oldFlow (f : Flow) : Bool := (old.getD ∅).entries.any fun e => f ∈ e.2
  let byDst := ByDst.ofFlows flows
  let s := { s with
    ownerOf := flows.foldl (fun m f => m.insert f owner) (s.ownerOf.retain fun f _ => !oldFlow f)
    perOwner := store s.perOwner owner byDst
    suppressed := if byDst.entries = [] then s.suppressed else s.suppressed.erase owner }
  let suppressed := s.isSuppressed owner now
  let appeared := (byDst.keys.filter fun d => !oldDsts.contains d).map fun d => (d, true)
  let gone := (oldDsts.filter fun d => !byDst.keys.contains d).map fun d => (d, false)
  ({ ownerKey := some owner
     owner := if old.isSome ∧ byDst.entries = [] ∧ ¬ suppressed then some (.idle owner) else none
     dsts := appeared ++ if suppressed then [] else gone }, s)

/-- `reconcile`, unless the owner has changed since the dump. -/
def reconcileAt (s : OpenFlows K) (owner : K) (revision : UInt64) (flows : List Flow) (now : ℕ) :
    Change K × OpenFlows K :=
  if s.revision owner ≠ revision then ({}, s) else s.reconcile owner flows now

/-! ## Calls -/

/-- The calls, with what they take and the time at which they run. -/
inductive Call (K : Type)
  | insert (owner : K) (flow : Flow)
  | remove (flow : Flow) (now : ℕ)
  | suppressFor (owner : K) (window now : ℕ)
  | reconcile (owner : K) (flows : List Flow) (now : ℕ)
  | reconcileAt (owner : K) (revision : UInt64) (flows : List Flow) (now : ℕ)

/-- What a call reports, and the flows after it. -/
def call (s : OpenFlows K) : Call K → Change K × OpenFlows K
  | .insert owner flow => s.insert owner flow
  | .remove flow now => s.remove flow now
  | .suppressFor owner window now => ({}, s.suppressFor owner window now)
  | .reconcile owner flows now => s.reconcile owner flows now
  | .reconcileAt owner revision flows now => s.reconcileAt owner revision flows now

/-- The owner whose flows a call replaces, the flows that replace them, and when. -/
def replaces (s : OpenFlows K) : Call K → Option (K × List Flow × ℕ)
  | .reconcile owner flows now => some (owner, flows, now)
  | .reconcileAt owner revision flows now =>
    if s.revision owner ≠ revision then none else some (owner, flows, now)
  | _ => none

theorem call_of_replaces {c : Call K} {flows : List Flow} {now : ℕ}
    (h : s.replaces c = some (owner, flows, now)) : s.call c = s.reconcile owner flows now := by
  cases c with
  | reconcile => cases h; rfl
  | reconcileAt o r l t =>
    simp only [replaces, Option.ite_none_left_eq_some, Option.some.injEq, Prod.mk.injEq] at h
    obtain ⟨hr, rfl, rfl, rfl⟩ := h
    exact if_neg hr
  | insert | remove | suppressFor => cases h

/-! ## Which owners have flows -/

def isActive (s : OpenFlows K) (owner : K) : Bool := (s.perOwner.lookup owner).isSome

def HasOpen (s : OpenFlows K) (owner : K) : Prop :=
  ∃ byDst dst set flow, s.perOwner.lookup owner = some byDst ∧ byDst.lookup dst = some set ∧
    flow ∈ set

/-- No owner is kept without a flow. -/
def Tidy (s : OpenFlows K) : Prop :=
  ∀ owner byDst, s.perOwner.lookup owner = some byDst → byDst.entries ≠ [] ∧ byDst.Tidy

theorem Tidy.hasOpen_iff (h : s.Tidy) : s.HasOpen owner ↔ s.isActive owner := by
  constructor
  · rintro ⟨byDst, -, -, -, ho, -⟩
    rw [isActive, ho]; rfl
  · intro ha
    obtain ⟨byDst, ho⟩ := Option.isSome_iff_exists.mp ha
    obtain ⟨hne, ht⟩ := h owner byDst ho
    obtain ⟨⟨dst, set⟩, he⟩ := List.exists_mem_of_ne_nil _ hne
    have hset : byDst.lookup dst = some set := Dict.lookup_eq_some.mpr he
    obtain ⟨flow, hf⟩ := ht dst set hset
    exact ⟨byDst, dst, set, flow, ho, hset, hf⟩

theorem tidy_new : ({} : OpenFlows K).Tidy := fun owner byDst h => by
  rw [AList.lookup_empty] at h; cases h

theorem Tidy.store (h : s.Tidy)
    (ht : byDst.Tidy) (hs : s'.perOwner = store s.perOwner owner byDst) : s'.Tidy := by
  intro p m hm
  rw [hs, OpenFlows.store] at hm
  split_ifs at hm with he
  · rw [Dict.lookup_erase] at hm
    split_ifs at hm
    exact h p m hm
  · rw [Dict.lookup_insert] at hm
    split_ifs at hm
    · cases hm
      exact ⟨he, ht⟩
    · exact h p m hm

theorem isActive_store (hs : s'.perOwner = store s.perOwner owner byDst) (p : K) :
    s'.isActive p = if p = owner then decide (byDst.entries ≠ []) else s.isActive p := by
  unfold isActive
  rw [hs, store]
  by_cases he : byDst.entries = []
  · rw [if_pos he, Dict.lookup_erase]
    split_ifs <;> simp [he]
  · rw [if_neg he, Dict.lookup_insert]
    split_ifs <;> simp [he]

/-! ## What a call does to an owner -/

section

variable {s : OpenFlows K}

theorem perOwner_insert (s : OpenFlows K) (owner : K) (flow : Flow) :
    (s.insert owner flow).2.perOwner =
      store s.perOwner owner (((s.perOwner.lookup owner).getD ∅).add flow) := by
  rw [store, if_neg (ByDst.add_ne_nil _ flow)]
  unfold insert
  dsimp only
  split_ifs <;> rfl

theorem remove_fields {flow : Flow} {byDst : ByDst} (hf : s.ownerOf.lookup flow = some owner)
    (ho : s.perOwner.lookup owner = some byDst) (now : ℕ) :
    (s.remove flow now).2.perOwner = store s.perOwner owner (byDst.remove flow).1 ∧
      (s.remove flow now).2.ownerOf = s.ownerOf.erase flow := by
  rw [remove, hf]
  dsimp only [changed]
  rw [ho]
  dsimp only
  split_ifs <;> exact ⟨rfl, rfl⟩

theorem insert_spec (h : s.Tidy) (owner : K) (flow : Flow) : (s.insert owner flow).2.Tidy ∧
      (∀ p, (s.insert owner flow).2.isActive p = if p = owner then true else s.isActive p) ∧
      (s.insert owner flow).1.owner = if s.isActive owner then none else some (.active owner) := by
  obtain ⟨byDst, hbyDst⟩ : ∃ m, (s.perOwner.lookup owner).getD ∅ = m := ⟨_, rfl⟩
  have htidy : byDst.Tidy := by
    rcases ho : s.perOwner.lookup owner with - | m
    · rw [← hbyDst, ho]; exact ByDst.tidy_empty
    · rw [← hbyDst, ho]; exact (h owner m ho).2
  have hnil : byDst.entries = [] ↔ s.isActive owner = false := by
    rcases ho : s.perOwner.lookup owner with - | m
    · simp [← hbyDst, isActive, ho]
    · simpa [← hbyDst, isActive, ho] using (h owner m ho).1
  have hne : (byDst.add flow).entries ≠ [] := byDst.add_ne_nil flow
  have hperOwner :
      (s.insert owner flow).2.perOwner = store s.perOwner owner (byDst.add flow) :=
    hbyDst ▸ perOwner_insert s owner flow
  have howner : (s.insert owner flow).1.owner =
      if flow ∈ (byDst.lookup flow.dstIp).getD ∅ then none
      else if byDst.entries = [] then some (.active owner) else none := by
    rw [← hbyDst]
    unfold insert
    dsimp only [changed]
    split_ifs <;> rfl
  refine ⟨h.store (htidy.add flow) hperOwner, fun p => ?_, ?_⟩
  · rw [isActive_store hperOwner, decide_eq_true hne]
  · rw [howner]
    rcases ha : s.isActive owner with - | -
    · -- without an entry the flow cannot be there already
      have hempty : byDst = ∅ := AList.ext (hnil.mpr ha)
      simp [hempty]
    · have hsome : byDst.entries ≠ [] := fun he => by simp [hnil.mp he] at ha
      simp [hsome]

theorem remove_spec (h : s.Tidy) (flow : Flow) (now : ℕ) : (s.remove flow now).2.Tidy ∧
      ((s.remove flow now).1.owner = none ∧ (∀ p, (s.remove flow now).2.isActive p = s.isActive p) ∨
        ∃ owner, s.ownerOf.lookup flow = some owner ∧ s.isActive owner ∧
          (∀ p, (s.remove flow now).2.isActive p = if p = owner then false else s.isActive p) ∧
          (s.remove flow now).1.owner =
            if s.isSuppressed owner now then none else some (.idle owner)) := by
  rcases hf : s.ownerOf.lookup flow with - | owner
  · have hr : s.remove flow now = ({}, s) := by rw [remove, hf]
    rw [hr]
    exact ⟨h, .inl ⟨rfl, fun _ => rfl⟩⟩
  rcases ho : s.perOwner.lookup owner with - | byDst
  · have hr : s.remove flow now = ({}, { s with ownerOf := s.ownerOf.erase flow }.changed owner) := by
      simp only [remove, hf, changed, ho]
    rw [hr]
    exact ⟨h, .inl ⟨rfl, fun _ => rfl⟩⟩
  have hactive : s.isActive owner = true := by rw [isActive, ho]; rfl
  have hperOwner := (remove_fields hf ho now).1
  have howner : (s.remove flow now).1.owner =
      if s.isSuppressed owner now then none
      else if (byDst.remove flow).1.entries = [] then some (.idle owner) else none := by
    rw [remove, hf]
    dsimp only [changed]
    rw [ho]
    show (if s.isSuppressed owner now then _ else _ : Change K × OpenFlows K).1.owner = _
    split_ifs <;> rfl
  refine ⟨h.store ((h owner byDst ho).2.remove flow) hperOwner, ?_⟩
  by_cases he : (byDst.remove flow).1.entries = []
  · refine .inr ⟨owner, rfl, hactive, fun p => ?_, ?_⟩
    · rw [isActive_store hperOwner, decide_eq_false (not_not.mpr he)]
    · rw [howner, if_pos he]
  · refine .inl ⟨?_, fun p => ?_⟩
    · rw [howner, if_neg he, ite_self]
    · rw [isActive_store hperOwner, decide_eq_true he]
      split_ifs with hp
      · rw [hp, hactive]
      · rfl

theorem reconcile_spec (h : s.Tidy) (owner : K) (flows : List Flow) (now : ℕ) :
    (s.reconcile owner flows now).2.Tidy ∧ (∀ p, (s.reconcile owner flows now).2.isActive p =
        if p = owner then decide (flows ≠ []) else s.isActive p) ∧
      (s.reconcile owner flows now).1.owner =
        if s.isActive owner ∧ flows = [] ∧ ¬ s.isSuppressed owner now then some (.idle owner)
        else none := by
  have hperOwner : (s.reconcile owner flows now).2.perOwner =
      store s.perOwner owner (ByDst.ofFlows flows) := rfl
  refine ⟨h.store (ByDst.tidy_ofFlows flows) hperOwner, fun p => ?_, ?_⟩
  · rw [isActive_store hperOwner]
    simp only [ne_eq, ByDst.ofFlows_eq_nil]
  · simp only [reconcile, ByDst.ofFlows_eq_nil, changed]
    by_cases hl : flows = []
    · simp only [hl, if_true, isSuppressed, isActive]
    · simp only [hl, false_and, and_false, if_false]

end

end OpenFlows

end Nullnet.Client
