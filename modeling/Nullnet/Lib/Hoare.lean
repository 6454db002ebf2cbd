import Nullnet.Lib.Jobs

/-! # Programs that run alone

A program of atomic calls that nobody interrupts. `runWith` runs it on a world with a list of outcomes,
one for each call. `wp` is the weakest precondition: for all outcomes the program ends in a world and
with a result that satisfy the postcondition. `wp_seq` takes a program apart step by step, and
`of_runWith` is what a precondition says about a run. -/

namespace Nullnet.Lib.Prog

variable {W C I : Type} {R : C → Type} {α β : Type} (exec : W → (c : C) → I → W × R c)

/-- The result of a program and the world after it; `none` if there are fewer outcomes than calls. -/
def runWith : Prog C R α → W → List I → Option (α × W)
  | .ret a, w, _ => some (a, w)
  | .call _ _, _, [] => none
  | .call c k, w, i :: is => (k (exec w c i).2).runWith (exec w c i).1 is

/-- The result and the world when all calls have the same outcome. -/
def runSame (i : I) : Prog C R α → W → α × W
  | .ret a, w => (a, w)
  | .call c k, w => (k (exec w c i).2).runSame i (exec w c i).1

/-- Weakest precondition. -/
def wp : Prog C R α → (α → W → Prop) → W → Prop
  | .ret a, Q, w => Q a w
  | .call c k, Q, w => ∀ i, (k (exec w c i).2).wp Q (exec w c i).1

variable {exec} {Q Q' : α → W → Prop} {w w' : W} {p : Prog C R α} {J : W → Prop}

theorem wp_bind {f : α → Prog C R β} {Q : β → W → Prop} :
    (p >>= f).wp exec Q w ↔ p.wp exec (fun a w => (f a).wp exec Q w) w := by
  induction p generalizing w with
  | ret a => rfl
  | call c k ih => exact forall_congr' fun i => ih _

theorem wp_mono (h : p.wp exec Q w) (hQ : ∀ a w, Q a w → Q' a w) : p.wp exec Q' w := by
  induction p generalizing w with
  | ret a => exact hQ a w h
  | call c k ih => exact fun i => ih _ (h i)

theorem wp_seq {f : α → Prog C R β} {Q' : β → W → Prop} (h : p.wp exec Q w)
    (hf : ∀ a w, Q a w → (f a).wp exec Q' w) : (p >>= f).wp exec Q' w :=
  wp_bind.mpr (wp_mono h hf)

theorem wp_invariant (hJ : ∀ w c i, J w → J (exec w c i).1) (p : Prog C R α) (h : J w) :
    p.wp exec (fun _ w => J w) w := by
  induction p generalizing w with
  | ret a => exact h
  | call c k ih => exact fun i => ih _ (hJ w c i h)

theorem wp_of_makes {P : C → Prop} (hJ : ∀ w c i, P c → J w → J (exec w c i).1)
    (hp : p.Makes P) (h : J w) : p.wp exec (fun _ w => J w) w := by
  induction p generalizing w with
  | ret a => exact h
  | call c k ih => exact fun i => ih _ (hp.2 _) (hJ w c i hp.1 h)

theorem runSame_bind (i : I) (p : Prog C R α) (f : α → Prog C R β) (w : W) :
    (p >>= f).runSame exec i w = (f (p.runSame exec i w).1).runSame exec i (p.runSame exec i w).2 := by
  induction p generalizing w with
  | ret a => rfl
  | call c k ih => exact ih _ _

theorem of_runSame (h : p.wp exec Q w) (i : I) :
    Q (p.runSame exec i w).1 (p.runSame exec i w).2 := by
  induction p generalizing w with
  | ret a => exact h
  | call c k ih => exact ih _ (h i)

/-- **A run ends in the postcondition.** -/
theorem of_runWith {is : List I} (h : p.wp exec Q w)
    (hr : p.runWith exec w is = some (a, w')) : Q a w' := by
  induction p generalizing w is with
  | ret b =>
    cases hr
    exact h
  | call c k ih =>
    cases is with
    | nil => cases hr
    | cons i is => exact ih _ (h i) hr

end Nullnet.Lib.Prog
