import Mathlib.Data.List.Induction

/-! # Predicates in postfix form

A combination of predicates by *and* and *or* as a list of tokens, in which an operator stands behind
its operands. The usual way to evaluate it is on a stack of truth values; the list is well formed if it
leaves exactly one value (`depth`). Tokens that push one value on every stack (`Computes`) can be chained
by an operator, and an interpreter that works in the usual way (`Interprets`) gives them this value. -/

namespace Nullnet.Lib

inductive Operator
  | and
  | or
  deriving DecidableEq

def Operator.apply : Operator → Bool → Bool → Bool
  | and, a, b => a && b
  | or, a, b => a || b

/-- What a list of values becomes. -/
def Operator.combine {A : Type} (op : Operator) (l : List A) (g : A → Bool) : Bool :=
  match op with
  | and => l.all g
  | or => l.any g

inductive PostfixToken (P : Type)
  | predicate (p : P)
  | operator (op : Operator)
  deriving DecidableEq

namespace PostfixToken

variable {P : Type}

/-- How many values are on the stack after the tokens, if no operator lacks an operand. -/
def depth : List (PostfixToken P) → ℕ → Option ℕ
  | [], n => some n
  | predicate _ :: tokens, n => depth tokens (n + 1)
  | operator _ :: tokens, n + 2 => depth tokens (n + 1)
  | operator _ :: _, _ => none

/-- The stack after the tokens. An operator without operands does nothing. -/
def run (eval : P → Bool) : List (PostfixToken P) → List Bool → List Bool
  | [], stack => stack
  | predicate p :: tokens, stack => run eval tokens (eval p :: stack)
  | operator op :: tokens, b :: a :: stack => run eval tokens (op.apply a b :: stack)
  | operator _ :: tokens, stack => run eval tokens stack

/-- Blocks of tokens, each from the second one on followed by the operator. -/
def chain (op : Operator) (blocks : List (List (PostfixToken P))) : List (PostfixToken P) :=
  blocks.zipIdx.flatMap fun e => e.1 ++ if 0 < e.2 then [operator op] else []

/-- The tokens push one value. -/
structure Computes (eval : P → Bool) (tokens : List (PostfixToken P)) (v : Bool) : Prop where
  depth_append : ∀ rest n, depth (tokens ++ rest) n = depth rest (n + 1)
  run_append : ∀ rest stack, run eval (tokens ++ rest) stack = run eval rest (v :: stack)

variable {eval : P → Bool} {tokens tokens' : List (PostfixToken P)} {v w : Bool}

theorem computes_predicate (p : P) : Computes eval [predicate p] (eval p) :=
  ⟨fun _ _ => rfl, fun _ _ => rfl⟩

theorem Computes.operator (op : Operator) (h : Computes eval tokens v)
    (h' : Computes eval tokens' w) :
    Computes eval (tokens ++ (tokens' ++ [.operator op])) (op.apply v w) where
  depth_append rest n := by
    simp only [List.append_assoc, h.depth_append, h'.depth_append]
    rfl
  run_append rest stack := by
    simp only [List.append_assoc, h.run_append, h'.run_append]
    rfl

theorem computes_chain (op : Operator) {A : Type} {f : A → List (PostfixToken P)} {g : A → Bool}
    {l : List A} (hne : l ≠ []) (h : ∀ a ∈ l, Computes eval (f a) (g a)) :
    Computes eval (chain op (l.map f)) (op.combine l g) := by
  induction l using List.reverseRecOn with
  | nil => exact absurd rfl hne
  | append_singleton l a ih =>
    have hchain : chain op ((l ++ [a]).map f) =
        chain op (l.map f) ++ (f a ++ if 0 < l.length then [.operator op] else []) := by
      simp [chain, List.zipIdx_append]
    have ha := h a (by simp)
    rw [hchain]
    rcases l with - | ⟨b, l⟩
    · cases op <;> simpa [chain, Operator.combine] using ha
    · have hvalue : op.combine (b :: l ++ [a]) g = op.apply (op.combine (b :: l) g) (g a) := by
        cases op <;> simp [Operator.combine, Operator.apply, Bool.and_assoc, Bool.or_assoc]
      rw [hvalue, if_pos (by simp)]
      exact (ih (List.cons_ne_nil b l) fun x hx => h x (List.mem_append_left _ hx)).operator op ha

/-! ## Interpreters -/

/-- An interpreter makes an expression of every well-formed list of tokens, or of more; for an evaluation
of the predicates, a well-formed one has the value that is left on the stack. -/
def Interprets (fromTokens : List (PostfixToken P) → Option ((P → Bool) → Bool)) : Prop :=
  ∀ tokens, depth tokens 0 = some 1 →
    ∃ expr, fromTokens tokens = some expr ∧ ∀ eval, run eval tokens [] = [expr eval]

theorem Interprets.value {fromTokens : List (PostfixToken P) → Option ((P → Bool) → Bool)}
    (hi : Interprets fromTokens) (h : Computes eval tokens v) :
    ∃ expr, fromTokens tokens = some expr ∧ expr eval = v := by
  have hdepth := h.depth_append [] 0
  have hrun := h.run_append [] []
  rw [List.append_nil] at hdepth hrun
  obtain ⟨expr, hexpr, heval⟩ := hi tokens hdepth
  exact ⟨expr, hexpr, (List.singleton_inj.mp ((heval eval).symm.trans hrun))⟩

/-- The interpreter that takes the well-formed lists. -/
def onStack (tokens : List (PostfixToken P)) : Option ((P → Bool) → Bool) :=
  if depth tokens 0 = some 1 then some fun eval => (run eval tokens []).headD false else none

theorem length_run {n m : ℕ} {stack : List Bool} (hd : depth tokens n = some m) (hn : stack.length = n) :
    (run eval tokens stack).length = m := by
  induction tokens generalizing n stack with
  | nil => exact hn.trans (Option.some.inj hd)
  | cons token tokens ih =>
    cases token with
    | predicate p => exact ih hd (congrArg (· + 1) hn)
    | operator op =>
      match stack, hn with
      | [], rfl | [_], rfl => cases hd
      | _ :: _ :: stack, rfl => exact ih hd rfl

theorem interprets_onStack : Interprets (onStack (P := P)) := by
  intro tokens hd
  refine ⟨_, if_pos hd, fun eval => ?_⟩
  have hlength : (run eval tokens []).length = 1 := length_run hd List.length_nil
  obtain ⟨v, hv⟩ := List.length_eq_one_iff.mp hlength
  rw [hv]
  rfl

end PostfixToken

end Nullnet.Lib
