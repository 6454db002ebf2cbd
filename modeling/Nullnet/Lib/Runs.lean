import Mathlib.Data.List.Basic

/-! # Runs of a step function

A system is a step function `step : S → A → Option S`: the state, the action that is taken, and the
state after it (`none` if the action is not possible there). Actions stand for everything that the
environment decides: which task goes on, what a remote party answers, what a user submits.

* `Reach step ok init s`: a run from `init` whose steps all meet `ok` visits `s`. The condition `ok`
  is about the action and the state *before* the step.
* `Reach.invariant`: what holds at first and is kept by each step holds in every visited state.
* `run`: the run of a list of actions, for concrete runs. -/

namespace Nullnet.Lib

variable {S A : Type}

/-- The states visited by the runs from `init` whose steps all meet `ok`. -/
inductive Reach (step : S → A → Option S) (ok : S → A → Prop) (init : S) : S → Prop
  | start : Reach step ok init init
  | next {s s' : S} {a : A} : Reach step ok init s → ok s a → step s a = some s' →
      Reach step ok init s'

/-- No condition on the steps. -/
def anyStep (_ : S) (_ : A) : Prop := True

variable {step : S → A → Option S} {ok ok' : S → A → Prop} {init s s' : S} {as : List A}

theorem Reach.invariant (I : S → Prop) (h0 : I init)
    (hs : ∀ s a s', I s → ok s a → step s a = some s' → I s') (h : Reach step ok init s) : I s := by
  induction h with
  | start => exact h0
  | next _ hok hst ih => exact hs _ _ _ ih hok hst

def run (step : S → A → Option S) : S → List A → Option S
  | s, [] => some s
  | s, a :: as => (step s a).bind fun s' => run step s' as

/-- Take a step only under a condition. -/
def guarded (step : S → A → Option S) (ok : S → A → Prop) [∀ s a, Decidable (ok s a)] (s : S)
    (a : A) : Option S :=
  if ok s a then step s a else none

theorem reach_run (h : Reach step ok init s) (hr : ∀ s a s', step s a = some s' → ok s a)
    (hs : run step s as = some s') : Reach step ok init s' := by
  induction as generalizing s with
  | nil => rw [run, Option.some.injEq] at hs; exact hs ▸ h
  | cons a as ih =>
    rw [run, Option.bind_eq_some_iff] at hs
    obtain ⟨s1, h1, hs⟩ := hs
    exact ih (.next h (hr _ _ _ h1) h1) hs

theorem reach_of_run (h : run step init as = some s) : Reach step anyStep init s :=
  reach_run .start (fun _ _ _ _ => trivial) h

/-- What holds at the end of a concrete run holds in a state that is reached. -/
theorem exists_reach {P : S → Prop} (as : List A) (h : ∃ s ∈ run step init as, P s) :
    ∃ s, Reach step anyStep init s ∧ P s := by
  obtain ⟨s, hs, hp⟩ := h
  exact ⟨s, reach_of_run hs, hp⟩

theorem reach_of_guarded [∀ s a, Decidable (ok s a)]
    (h : run (guarded step ok) init as = some s) : Reach step ok init s := by
  have key : Reach (guarded step ok) ok init s := by
    refine reach_run .start (fun s a s' hg => ?_) h
    unfold guarded at hg
    split_ifs at hg with hok
    exact hok
  refine key.invariant _ .start fun s a s' ih hok hg => ?_
  rw [guarded, if_pos hok] at hg
  exact .next ih hok hg

theorem exists_guarded [∀ s a, Decidable (ok s a)] {P : S → Prop} (as : List A)
    (h : ∃ s ∈ run (guarded step ok) init as, P s) : ∃ s, Reach step ok init s ∧ P s := by
  obtain ⟨s, hs, hp⟩ := h
  exact ⟨s, reach_of_guarded hs, hp⟩

end Nullnet.Lib
