import Mathlib.Data.Finset.Basic
import Nullnet.Lib.Runs
import Nullnet.Server.Net

/-! # The pool of network ids

The pool hands out the ids of VLANs or VXLANs. Freed ids wait in a queue, oldest first, next to a
set of the same ids; a fresh id comes from a counter. The ids are `u32` in the source; the counter
stays below `2 ^ 22`, so they are natural numbers here. `Accounts net p out` says that the pool `p`
accounts for the handed-out ids `out`, and a `Ledger` is the pool with its history. -/

namespace Nullnet.Server

open Nullnet.Lib

/-- Minimum allocatable id, for both kinds of network. -/
def MIN_NET_ID : ℕ := 101

def MAX_NET_ID : Net → ℕ
  | .vlan => 4094
  | .vxlan => 2097151

def InRange (net : Net) (id : ℕ) : Prop := MIN_NET_ID ≤ id ∧ id ≤ MAX_NET_ID net

instance (net : Net) (id : ℕ) : Decidable (InRange net id) := by
  unfold InRange; infer_instance

/-- The pool: the next fresh id, the freed ids oldest first, and the set of the freed ids. -/
structure NetIdPool where
  nextFresh : ℕ
  freed : List ℕ
  freedSet : Finset ℕ
  deriving DecidableEq

namespace NetIdPool

def new : NetIdPool := ⟨MIN_NET_ID, [], ∅⟩

/-- Reuse the id that was freed first, or else take a fresh one; `none` if there is none left. -/
def allocate (net : Net) (p : NetIdPool) : Option ℕ × NetIdPool :=
  match p.freed with
  | id :: freed => (some id, { p with freed := freed, freedSet := p.freedSet.erase id })
  | [] =>
    if p.nextFresh ≤ MAX_NET_ID net then
      (some p.nextFresh, { p with nextFresh := p.nextFresh + 1 })
    else (none, p)

/-- Return an id to the pool; an id that is out of range or already queued is ignored. -/
def free (net : Net) (id : ℕ) (p : NetIdPool) : NetIdPool :=
  if MIN_NET_ID ≤ id ∧ id ≤ MAX_NET_ID net ∧ id ∉ p.freedSet then
    { p with freed := p.freed ++ [id], freedSet := insert id p.freedSet }
  else p

theorem allocate_cases (net : Net) (p : NetIdPool) :
    (∃ id freed, p.freed = id :: freed ∧ p.allocate net =
      (some id, { p with freed := freed, freedSet := p.freedSet.erase id })) ∨
    (p.freed = [] ∧ p.nextFresh ≤ MAX_NET_ID net ∧ p.allocate net =
      (some p.nextFresh, { p with nextFresh := p.nextFresh + 1 })) ∨
    (p.freed = [] ∧ MAX_NET_ID net < p.nextFresh ∧ p.allocate net = (none, p)) := by
  unfold allocate
  rcases hf : p.freed with - | ⟨id, freed⟩
  · by_cases h : p.nextFresh ≤ MAX_NET_ID net
    · exact .inr (.inl ⟨rfl, h, by simp [h]⟩)
    · exact .inr (.inr ⟨rfl, Nat.lt_of_not_le h, by simp [h]⟩)
  · exact .inl ⟨id, freed, rfl, rfl⟩

/-- The ids that the pool can hand out are at least the minimum, whatever was freed. -/
def AboveMin (p : NetIdPool) : Prop := MIN_NET_ID ≤ p.nextFresh ∧ ∀ id ∈ p.freed, MIN_NET_ID ≤ id

theorem AboveMin.allocate {p : NetIdPool} (h : p.AboveMin) (net : Net) :
    (p.allocate net).2.AboveMin ∧ ∀ id, (p.allocate net).1 = some id → MIN_NET_ID ≤ id := by
  rcases p.allocate_cases net with ⟨i, freed, hf, he⟩ | ⟨-, -, he⟩ | ⟨-, -, he⟩ <;> rw [he]
  · have hmem : ∀ id, id = i ∨ id ∈ freed → MIN_NET_ID ≤ id := by simpa [hf] using h.2
    refine ⟨⟨h.1, fun id hid => hmem id (.inr hid)⟩, fun id hid => hmem id (.inl ?_)⟩
    exact (Option.some.inj hid).symm
  · refine ⟨⟨h.1.trans (Nat.le_succ _), h.2⟩, fun id hid => ?_⟩
    exact Option.some.inj hid ▸ h.1
  · exact ⟨h, by simp⟩

theorem AboveMin.free {net : Net} {p : NetIdPool} (h : p.AboveMin) (id : ℕ) :
    (p.free net id).AboveMin := by
  unfold NetIdPool.free
  split_ifs with hid
  · refine ⟨h.1, fun i hi => ?_⟩
    rcases List.mem_append.mp hi with hi | hi
    · exact h.2 i hi
    · rw [List.mem_singleton] at hi; exact hi ▸ hid.1
  · exact h

end NetIdPool

/-! ## Accounting for the ids that are out -/

/-- **The pool accounts for the ids in `out`**: the queue and the set agree, and an id below the
counter is either queued or out. -/
structure Accounts (net : Net) (p : NetIdPool) (out : List ℕ) : Prop where
  min_le : MIN_NET_ID ≤ p.nextFresh
  le_max : p.nextFresh ≤ MAX_NET_ID net + 1
  freed_nodup : p.freed.Nodup
  mem_freedSet : ∀ id, id ∈ p.freedSet ↔ id ∈ p.freed
  out_nodup : out.Nodup
  disjoint : ∀ id ∈ out, id ∉ p.freed
  below : ∀ id, id ∈ out ∨ id ∈ p.freed ↔ MIN_NET_ID ≤ id ∧ id < p.nextFresh

namespace Accounts

variable {net : Net} {p p' : NetIdPool} {out : List ℕ} {id : ℕ}

theorem new (net : Net) : Accounts net .new [] where
  min_le := le_rfl
  le_max := by cases net <;> decide
  freed_nodup := List.nodup_nil
  mem_freedSet := by simp [NetIdPool.new]
  out_nodup := List.nodup_nil
  disjoint := by simp
  below := by
    intro id
    simp only [NetIdPool.new, List.not_mem_nil, or_self, false_iff]
    omega

theorem inRange_of_mem (h : Accounts net p out) (hid : id ∈ out) : InRange net id := by
  have h1 := (h.below id).mp (.inl hid)
  have h2 := h.le_max
  exact ⟨h1.1, by omega⟩

/-- **Allocation**: the id was not out, and the pool accounts for it next to the others. -/
theorem allocate (h : Accounts net p out) (ha : p.allocate net = (some id, p')) :
    id ∉ out ∧ Accounts net p' (id :: out) := by
  rcases p.allocate_cases net with ⟨i, freed, hf, he⟩ | ⟨hf, hle, he⟩ | ⟨-, -, he⟩ <;>
    rw [he] at ha
  · -- the oldest freed id is reused
    obtain ⟨rfl, rfl⟩ : i = id ∧ _ = p' := by simpa using ha
    have hnd : i ∉ freed ∧ freed.Nodup := by simpa [hf] using h.freed_nodup
    have hout : i ∉ out := fun hi => h.disjoint i hi (by simp [hf])
    refine ⟨hout, h.min_le, h.le_max, hnd.2, ?_, List.nodup_cons.mpr ⟨hout, h.out_nodup⟩, ?_, ?_⟩
    · intro j
      rw [Finset.mem_erase, h.mem_freedSet, hf, List.mem_cons]
      have := hnd.1
      grind
    · intro j hj
      rcases List.mem_cons.mp hj with rfl | hj
      · exact hnd.1
      · exact fun hm => h.disjoint j hj (by simp [hf, hm])
    · intro j
      rw [← h.below j, hf, List.mem_cons, List.mem_cons]
      tauto
  · -- a fresh id is taken from the counter
    obtain ⟨rfl, rfl⟩ : p.nextFresh = id ∧ _ = p' := by simpa using ha
    have hout : p.nextFresh ∉ out := fun hi => by have := (h.below _).mp (.inl hi); omega
    refine ⟨hout, h.min_le.trans (Nat.le_succ _), Nat.succ_le_succ hle, h.freed_nodup,
      h.mem_freedSet, List.nodup_cons.mpr ⟨hout, h.out_nodup⟩, ?_, ?_⟩
    · simp [hf]
    · intro j
      have h1 := h.below j
      have h2 := h.min_le
      simp only [hf, List.not_mem_nil, or_false, List.mem_cons] at h1 ⊢
      rw [h1]
      omega
  · simp at ha

theorem allocate_none (h : Accounts net p out) (ha : p.allocate net = (none, p')) :
    p' = p ∧ ∀ id, InRange net id → id ∈ out := by
  rcases p.allocate_cases net with ⟨i, freed, -, he⟩ | ⟨-, -, he⟩ | ⟨hf, hlt, he⟩ <;>
    rw [he] at ha
  · simp at ha
  · simp at ha
  · refine ⟨by simpa using ha.symm, fun id hid => ?_⟩
    have := (h.below id).mpr ⟨hid.1, hid.2.trans_lt hlt⟩
    simpa [hf] using this

/-- **Freeing**: the id goes to the back of the queue and is no longer out. -/
theorem free (h : Accounts net p out) (hid : id ∈ out) :
    (p.free net id).freed = p.freed ++ [id] ∧ Accounts net (p.free net id) (out.erase id) := by
  have hr := h.inRange_of_mem hid
  have hq := h.disjoint id hid
  have he : p.free net id =
      { p with freed := p.freed ++ [id], freedSet := insert id p.freedSet } := by
    unfold NetIdPool.free
    rw [if_pos ⟨hr.1, hr.2, fun hs => hq ((h.mem_freedSet id).mp hs)⟩]
  have hmem : ∀ j, j ∈ out.erase id ↔ j ≠ id ∧ j ∈ out := fun j => h.out_nodup.mem_erase_iff
  rw [he]
  refine ⟨rfl, h.min_le, h.le_max, ?_, ?_, h.out_nodup.erase id, ?_, ?_⟩
  · exact List.nodup_append.mpr ⟨h.freed_nodup, List.nodup_singleton id,
      fun a ha b hb hab => hq (by rw [List.mem_singleton] at hb; rwa [← hb, ← hab])⟩
  · intro j
    rw [Finset.mem_insert, h.mem_freedSet, List.mem_append, List.mem_singleton, or_comm]
  · intro j hj
    rw [hmem] at hj
    simp only [List.mem_append, List.mem_singleton, not_or]
    exact ⟨h.disjoint j hj.2, hj.1⟩
  · intro j
    rw [← h.below j, hmem, List.mem_append, List.mem_singleton]
    by_cases hj : j = id
    · simp [hj, hid]
    · simp [hj]

end Accounts

/-! ## Histories of calls -/

inductive PoolCall
  | allocate
  | free (id : ℕ)

inductive PoolEvent
  | handedOut (id : ℕ)
  | freed (id : ℕ)

def everHandedOut : List PoolEvent → List ℕ
  | [] => []
  | .handedOut id :: h => id :: everHandedOut h
  | .freed _ :: h => everHandedOut h

/-- The freed ids, in the order in which they were freed; a history has its last event first. -/
def frees : List PoolEvent → List ℕ
  | [] => []
  | .handedOut _ :: h => frees h
  | .freed id :: h => frees h ++ [id]

/-- The ids that were handed out again, in the order in which that happened. -/
def reuses : List PoolEvent → List ℕ
  | [] => []
  | .handedOut id :: h => if id ∈ everHandedOut h then reuses h ++ [id] else reuses h
  | .freed _ :: h => reuses h

/-- The pool, the ids that are handed out and not yet freed, and the history of the calls. -/
structure Ledger where
  pool : NetIdPool
  out : List ℕ
  history : List PoolEvent

namespace Ledger

def new : Ledger := ⟨.new, [], []⟩

/-- One call; only an id that is handed out is freed. -/
def step (net : Net) (l : Ledger) : PoolCall → Option Ledger
  | .allocate =>
    match l.pool.allocate net with
    | (some id, pool) => some ⟨pool, id :: l.out, .handedOut id :: l.history⟩
    | (none, pool) => some ⟨pool, l.out, l.history⟩
  | .free id =>
    if id ∈ l.out then
      some ⟨l.pool.free net id, l.out.erase id, .freed id :: l.history⟩
    else none

/-- The pool accounts for the ids that are out, the ids below the counter are those ever handed
out, and the queue is what has been freed and not yet reused. -/
structure Inv (net : Net) (l : Ledger) : Prop where
  accounts : Accounts net l.pool l.out
  mem_ever : ∀ id, id ∈ everHandedOut l.history ↔ MIN_NET_ID ≤ id ∧ id < l.pool.nextFresh
  fifo : frees l.history = reuses l.history ++ l.pool.freed

theorem inv_new (net : Net) : Inv net .new where
  accounts := .new net
  mem_ever id := by
    simp only [new, everHandedOut, List.not_mem_nil, NetIdPool.new, false_iff]
    omega
  fifo := rfl

variable {net : Net} {l : Ledger} {id : ℕ}

theorem Inv.ever_of_waiting (h : Inv net l)
    (hid : id ∈ l.pool.freed) : id ∈ everHandedOut l.history :=
  (h.mem_ever id).mpr ((h.accounts.below id).mp (.inr hid))

theorem Inv.allocate {pool : NetIdPool} (h : Inv net l) (ha : l.pool.allocate net = (some id, pool)) :
    Inv net ⟨pool, id :: l.out, .handedOut id :: l.history⟩ := by
  refine ⟨(h.accounts.allocate ha).2, ?_, ?_⟩
  all_goals
    rcases l.pool.allocate_cases net with ⟨i, freed, hf, he⟩ | ⟨hf, -, he⟩ | ⟨-, -, he⟩ <;>
      rw [he, Prod.mk.injEq] at ha <;> obtain ⟨hi, rfl⟩ := ha <;> cases hi
  · -- a reused id is below the counter
    intro j
    have := (h.mem_ever id).mp (h.ever_of_waiting (by simp [hf]))
    rw [everHandedOut, List.mem_cons, h.mem_ever]
    grind
  · intro j
    have := h.accounts.min_le
    simp only [everHandedOut, List.mem_cons, h.mem_ever]
    omega
  · have hin : id ∈ everHandedOut l.history := h.ever_of_waiting (by simp [hf])
    simp only [frees, reuses, if_pos hin, h.fifo, hf, List.append_assoc, List.singleton_append]
  · have hnot : l.pool.nextFresh ∉ everHandedOut l.history := by
      rw [h.mem_ever]; omega
    simp only [frees, reuses, if_neg hnot, h.fifo]

theorem Inv.free (h : Inv net l) (hid : id ∈ l.out) :
    Inv net ⟨l.pool.free net id, l.out.erase id, .freed id :: l.history⟩ := by
  obtain ⟨hq, ha⟩ := h.accounts.free hid
  have hn : (l.pool.free net id).nextFresh = l.pool.nextFresh := by
    unfold NetIdPool.free; split_ifs <;> rfl
  refine ⟨ha, fun j => ?_, ?_⟩
  · rw [everHandedOut, h.mem_ever, hn]
  · simp only [frees, reuses, hq, h.fifo, List.append_assoc]

theorem Inv.step {l' : Ledger} {c : PoolCall} (h : Inv net l)
    (hs : l.step net c = some l') : Inv net l' := by
  cases c with
  | allocate =>
    simp only [Ledger.step] at hs
    rcases ha : l.pool.allocate net with ⟨- | id, pool⟩ <;>
      simp only [ha, Option.some.injEq] at hs <;> subst hs
    · rw [(h.accounts.allocate_none ha).1]; exact h
    · exact h.allocate ha
  | free id =>
    simp only [Ledger.step] at hs
    split_ifs at hs with hid
    cases hs
    exact h.free hid

theorem inv_of_run {calls : List PoolCall}
    (h : run (Ledger.step net) .new calls = some l) : Inv net l :=
  (reach_of_run h).invariant _ (inv_new net) fun _ _ _ hi _ hs => hi.step hs

/-- A waiting id is handed out before any fresh one, the one that waits longest first. -/
theorem Inv.allocate_order (h : Inv net l) (ha : (l.pool.allocate net).1 = some id) :
    (∀ i rest, l.pool.freed = i :: rest → id = i) ∧
      (id ∉ everHandedOut l.history → l.pool.freed = []) := by
  rcases l.pool.allocate_cases net with ⟨i, freed, hf, he⟩ | ⟨hf, -, -⟩ | ⟨hf, -, -⟩
  · have hi : i = id := by simpa [he] using ha
    exact ⟨fun j rest hj => by rw [hf] at hj; grind,
      fun hn => absurd (h.ever_of_waiting (by simp [hf, hi])) hn⟩
  · exact ⟨by simp [hf], fun _ => hf⟩
  · exact ⟨by simp [hf], fun _ => hf⟩

end Ledger

/-- **The pool after any sequence of calls.** The ids that are out are distinct and in range. The
queue and the set hold the same ids, once each, none of which is out, and together with those that
are out they are the ids below the counter. An allocation fails only if the whole range is out. What
was freed is what was reused, in that order, followed by what still waits, and an id that was never
handed out before is handed out only if none waits. -/
theorem ledger_correct (net : Net) (calls : List PoolCall) (l : Ledger)
    (h : run (Ledger.step net) .new calls = some l) :
    (l.out.Nodup ∧ ∀ id ∈ l.out, InRange net id) ∧
    (l.pool.freed.Nodup ∧ (∀ id, id ∈ l.pool.freedSet ↔ id ∈ l.pool.freed) ∧
      (∀ id ∈ l.out, id ∉ l.pool.freed) ∧
      ∀ id, id ∈ l.out ∨ id ∈ l.pool.freed ↔ MIN_NET_ID ≤ id ∧ id < l.pool.nextFresh) ∧
    ((l.pool.allocate net).1 = none → ∀ id, InRange net id → id ∈ l.out) ∧
    frees l.history = reuses l.history ++ l.pool.freed ∧
    ∀ id, (l.pool.allocate net).1 = some id →
      (∀ i rest, l.pool.freed = i :: rest → id = i) ∧
      (id ∉ everHandedOut l.history → l.pool.freed = []) := by
  have hi := Ledger.inv_of_run h
  have ha := hi.accounts
  refine ⟨⟨ha.out_nodup, fun id => ha.inRange_of_mem⟩,
    ⟨ha.freed_nodup, ha.mem_freedSet, ha.disjoint, ha.below⟩, fun hn => ?_, hi.fifo,
    fun id => hi.allocate_order⟩
  have hnone : l.pool.allocate net = (none, (l.pool.allocate net).2) := Prod.ext hn rfl
  exact (ha.allocate_none hnone).2

/-- Three ids are taken, two are freed, and the one freed first is reused. -/
def reuseCalls : List PoolCall :=
  [.allocate, .allocate, .allocate, .free 102, .free 101, .allocate]

/-- The ledger after `reuseCalls`. -/
def reuseLedger : Ledger where
  pool := ⟨104, [101], {101}⟩
  out := [102, 103]
  history := [.handedOut 102, .freed 101, .freed 102, .handedOut 103, .handedOut 102,
    .handedOut 101]

theorem ledger_correct_reuse : run (Ledger.step .vlan) .new reuseCalls = some reuseLedger ∧
    frees reuseLedger.history = reuses reuseLedger.history ++ reuseLedger.pool.freed :=
  ⟨by rfl, (ledger_correct .vlan reuseCalls reuseLedger (by rfl)).2.2.2.1⟩

end Nullnet.Server
