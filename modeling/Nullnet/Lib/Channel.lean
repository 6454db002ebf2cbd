import Mathlib.Data.List.Basic

/-! # Bounded channels

A channel has `capacity` places for messages. A send takes a place and fails if there is none. The place
of a message becomes free some time after the message was received (`held` counts the places of received
messages that are not free yet), so that a send can fail although the queue is short. That the places are
not more than `capacity` is part of the channel. -/

namespace Nullnet.Lib

structure Channel (M : Type) (capacity : ℕ) where
  /-- The messages that were sent and not received, the oldest first. -/
  queue : List M
  held : ℕ
  bound : queue.length + held ≤ capacity

namespace Channel

variable {M : Type} {capacity : ℕ} {c : Channel M capacity} {m : M}

def empty : Channel M capacity := ⟨[], 0, Nat.zero_le capacity⟩

def trySend (c : Channel M capacity) (m : M) : Option (Channel M capacity) :=
  if h : c.queue.length + c.held < capacity then
    some ⟨c.queue ++ [m], c.held, by rw [List.length_append, List.length_singleton]; omega⟩
  else none

/-- Receive the first `k` messages; their places are held. -/
def receive (c : Channel M capacity) (k : ℕ) : Channel M capacity :=
  ⟨c.queue.drop k, c.held + min k c.queue.length, by
    have := c.bound
    rw [List.length_drop]
    omega⟩

/-- The places of received messages become free. -/
def release (c : Channel M capacity) : Channel M capacity :=
  ⟨c.queue, 0, Nat.le_trans (Nat.le_add_right _ _) c.bound⟩

theorem trySend_some {c' : Channel M capacity} (h : c.trySend m = some c') :
    c'.queue = c.queue ++ [m] ∧ c'.held = c.held ∧ c.queue.length + c.held < capacity := by
  unfold trySend at h
  split_ifs at h with hlt
  cases h
  exact ⟨rfl, rfl, hlt⟩

theorem trySend_none (h : c.trySend m = none) :
    c.queue.length + c.held = capacity := by
  unfold trySend at h
  split_ifs at h with hlt
  exact Nat.le_antisymm c.bound (Nat.le_of_not_lt hlt)

theorem trySend_of_full (h : c.queue.length + c.held = capacity) :
    c.trySend m = none := dif_neg (Nat.not_lt_of_le (Nat.le_of_eq h.symm))

theorem trySend_of_lt (h : c.queue.length + c.held < capacity) :
    ∃ c', c.trySend m = some c' := ⟨_, dif_pos h⟩

@[simp] theorem queue_receive (c : Channel M capacity) (k : ℕ) : (c.receive k).queue = c.queue.drop k :=
  rfl

@[simp] theorem queue_release (c : Channel M capacity) : c.release.queue = c.queue := rfl

@[simp] theorem held_release (c : Channel M capacity) : c.release.held = 0 := rfl

end Channel

end Nullnet.Lib
