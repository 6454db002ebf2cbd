import Nullnet.Lib.Channel
import Nullnet.Lib.Runs

/-! # The writer of the session history

Mutations of the session history are submitted to a writer through a bounded channel. When the channel is
full, a *gap* begins: submissions are dropped until the writer has applied everything that was accepted
before, and an interruption that ends the open rows. The writer looks whether the channel is empty first
and then, under the lock of the gap, whether there is a gap: one that begins in between, with a full
channel, is taken for one whose accepted mutations have all been applied (`unhurried`). -/

namespace Nullnet.Server.HistoryLog

open Nullnet.Lib

def CAPACITY : ℕ := 16384

def BATCH_SIZE : ℕ := 512

inductive Applied (M : Type)
  | update (mutation : M)
  | interrupt (timestamp : ℕ)
  deriving DecidableEq

inductive Phase (M : Type)
  | waiting
  /-- A batch was received; its places in the channel are not free yet. -/
  | received (updates : List M)
  /-- The batch is applied, again and again until it succeeds. -/
  | persisting (updates : List M)
  /-- Is the channel empty? -/
  | checking
  /-- It was; is there a gap? -/
  | locking
  /-- The interruption is applied, again and again until it succeeds. -/
  | interrupting (timestamp : ℕ)
  /-- The gap is over. -/
  | clearing
  deriving DecidableEq

def Phase.updates {M : Type} : Phase M → List M
  | received updates | persisting updates => updates
  | _ => []

namespace Phase

variable {M : Type}

def isReceived : Phase M → Bool
  | received _ => true
  | _ => false

def isLocking : Phase M → Bool
  | locking => true
  | _ => false

def isClearing : Phase M → Bool
  | clearing => true
  | _ => false

/-- The writer has seen the gap. -/
def closes : Phase M → Bool
  | interrupting _ | clearing => true
  | _ => false

theorem isClearing_of_closes {p : Phase M} (h : p.closes = false) : p.isClearing = false := by
  cases p with
  | clearing => exact h
  | _ => rfl

end Phase

structure Writer (M : Type) where
  channel : Channel M CAPACITY := .empty
  /-- How many submissions were dropped since the gap began. -/
  gap : ℕ := 0
  phase : Phase M := .waiting
  /-- What was applied to the table, in order. -/
  db : List (Applied M) := []
  /-- All submissions, and whether they were accepted. -/
  submits : List (M × Bool) := []

inductive Action (M : Type)
  | submit (mutation : M)
  /-- `recv_many` takes some of the mutations. -/
  | receive (k : ℕ)
  /-- It frees their places. -/
  | release
  /-- A transaction succeeds, or fails and leaves the table as it is. -/
  | persist (ok : Bool)
  | look
  | lock (now : ℕ)
  | clear

namespace Writer

variable {M : Type}

def submit (s : Writer M) (mutation : M) : Writer M × Bool :=
  if s.gap > 0 then ({ s with gap := s.gap + 1 }, false)
  else
    match s.channel.trySend mutation with
    | some channel => ({ s with channel := channel }, true)
    | none => ({ s with gap := 1 }, false)

/-- Submissions, and the steps of `run` and `persist`. -/
def step (s : Writer M) : Action M → Option (Writer M)
  | .submit mutation =>
    let (s, accepted) := s.submit mutation
    some { s with submits := s.submits ++ [(mutation, accepted)] }
  | .receive k =>
    match s.phase with
    | .waiting =>
      if 0 < k ∧ k ≤ BATCH_SIZE ∧ k ≤ s.channel.queue.length then
        some { s with
          channel := s.channel.receive k
          phase := .received (s.channel.queue.take k) }
      else none
    | _ => none
  | .release =>
    match s.phase with
    | .received updates =>
      some { s with
        channel := s.channel.release
        phase := if updates.isEmpty then .checking else .persisting updates }
    | _ => none
  | .persist ok =>
    match s.phase with
    | .persisting updates =>
      if ok then some { s with db := s.db ++ updates.map .update, phase := .checking } else some s
    | .interrupting timestamp =>
      if ok then some { s with db := s.db ++ [.interrupt timestamp], phase := .clearing } else some s
    | _ => none
  | .look =>
    match s.phase with
    | .checking => some { s with phase := if s.channel.queue.isEmpty then .locking else .waiting }
    | _ => none
  | .lock now =>
    match s.phase with
    | .locking => some { s with phase := if s.gap > 0 then .interrupting now else .waiting }
    | _ => none
  | .clear =>
    match s.phase with
    | .clearing => some { s with gap := 0, phase := .waiting }
    | _ => none

end Writer

/-! ## Gaps and interruptions -/

section

variable {M : Type}

def accepted (submits : List (M × Bool)) : List M :=
  submits.filterMap fun x => if x.2 then some x.1 else none

def Applied.mutation : Applied M → Option M
  | update m => some m
  | interrupt _ => none

/-- The mutations that were applied, without interruptions. -/
def updates (db : List (Applied M)) : List M := db.filterMap Applied.mutation

/-- Some submission was dropped after `n` were accepted, and before the next one was. -/
def dropsAt : List (M × Bool) → ℕ → Bool
  | [], _ => false
  | (_, true) :: _, 0 => false
  | (_, true) :: l, n + 1 => dropsAt l n
  | (_, false) :: _, 0 => true
  | (_, false) :: l, n + 1 => dropsAt l (n + 1)

/-- The number of interruptions that were applied after `n` mutations, and before the next one. -/
def interruptsAfter : List (Applied M) → ℕ → ℕ
  | [], _ => 0
  | .update _ :: _, 0 => 0
  | .update _ :: l, n + 1 => interruptsAfter l n
  | .interrupt _ :: l, 0 => interruptsAfter l 0 + 1
  | .interrupt _ :: l, n + 1 => interruptsAfter l (n + 1)

theorem accepted_append (l l' : List (M × Bool)) : accepted (l ++ l') = accepted l ++ accepted l' :=
  List.filterMap_append

theorem updates_append (l l' : List (Applied M)) : updates (l ++ l') = updates l ++ updates l' :=
  List.filterMap_append

theorem updates_map (l : List M) : updates (l.map Applied.update) = l := by
  rw [updates, List.filterMap_map]
  exact List.filterMap_some

theorem dropsAt_append (m : M) (b : Bool) : ∀ (l : List (M × Bool)) (n : ℕ),
    dropsAt (l ++ [(m, b)]) n = (dropsAt l n || (!b && decide (n = (accepted l).length)))
  | [], n => by cases b <;> cases n <;> rfl
  | (m', true) :: l, 0 => by
    have hlength : 0 ≠ (accepted ((m', true) :: l)).length := Nat.succ_ne_zero _ |>.symm
    simp only [List.cons_append, dropsAt, decide_eq_false hlength, Bool.and_false, Bool.or_false]
  | (m', true) :: l, n + 1 => by
    have hlength : (accepted ((m', true) :: l)).length = (accepted l).length + 1 := rfl
    simp only [List.cons_append, dropsAt, dropsAt_append m b l n, hlength, Nat.add_right_cancel_iff]
  | (m', false) :: l, 0 => rfl
  | (m', false) :: l, n + 1 => dropsAt_append m b l (n + 1)

theorem dropsAt_of_lt : ∀ {l : List (M × Bool)} {n : ℕ}, (accepted l).length < n → dropsAt l n = false
  | [], _, _ => rfl
  | (_, true) :: _, 0, h => absurd h (Nat.not_lt_zero _)
  | (_, true) :: l, _ + 1, h => dropsAt_of_lt (l := l) (Nat.lt_of_succ_lt_succ h)
  | (_, false) :: _, 0, h => absurd h (Nat.not_lt_zero _)
  | (_, false) :: l, _ + 1, h => dropsAt_of_lt (l := l) h

theorem dropsAt_dropped (m : M) (rest : List (M × Bool)) : ∀ before : List (M × Bool),
    dropsAt (before ++ (m, false) :: rest) (accepted before).length = true
  | [] => rfl
  | (_, true) :: before => dropsAt_dropped m rest before
  | (_, false) :: before => by
    have ih := dropsAt_dropped m rest before
    have haccepted : ∀ m' : M, accepted ((m', false) :: before) = accepted before := fun _ => rfl
    rw [List.cons_append, haccepted]
    cases hlength : (accepted before).length with
    | zero => rfl
    | succ n =>
      rw [hlength] at ih
      exact ih

theorem interruptsAfter_updates (l : List M) : ∀ (db : List (Applied M)) (n : ℕ),
    interruptsAfter (db ++ l.map .update) n = interruptsAfter db n
  | [], n => by
    induction l generalizing n with
    | nil => rfl
    | cons m l ih =>
      cases n with
      | zero => rfl
      | succ n => exact ih n
  | .update _ :: _, 0 => rfl
  | .update _ :: db, n + 1 => interruptsAfter_updates l db n
  | .interrupt _ :: db, 0 => congrArg (· + 1) (interruptsAfter_updates l db 0)
  | .interrupt _ :: db, n + 1 => interruptsAfter_updates l db (n + 1)

theorem interruptsAfter_interrupt (t : ℕ) : ∀ (db : List (Applied M)) (n : ℕ),
    interruptsAfter (db ++ [.interrupt t]) n =
      interruptsAfter db n + if n = (updates db).length then 1 else 0
  | [], n => by cases n <;> rfl
  | .update _ :: _, 0 => rfl
  | .update m :: db, n + 1 => by
    have hlength : (updates (.update m :: db)).length = (updates db).length + 1 := rfl
    rw [List.cons_append, interruptsAfter, interruptsAfter, interruptsAfter_interrupt t db n, hlength]
    simp only [Nat.add_right_cancel_iff]
  | .interrupt _ :: db, 0 => by
    rw [List.cons_append, interruptsAfter, interruptsAfter, interruptsAfter_interrupt t db 0]
    exact Nat.add_right_comm ..
  | .interrupt _ :: db, n + 1 => interruptsAfter_interrupt t db (n + 1)

theorem interruptsAfter_of_lt : ∀ {l : List (Applied M)} {n : ℕ}, (updates l).length < n →
    interruptsAfter l n = 0
  | [], _, _ => rfl
  | .update _ :: _, 0, h => absurd h (Nat.not_lt_zero _)
  | .update _ :: l, _ + 1, h => interruptsAfter_of_lt (l := l) (Nat.lt_of_succ_lt_succ h)
  | .interrupt _ :: _, 0, h => absurd h (Nat.not_lt_zero _)
  | .interrupt _ :: l, _ + 1, h => interruptsAfter_of_lt (l := l) h

end

end Nullnet.Server.HistoryLog
