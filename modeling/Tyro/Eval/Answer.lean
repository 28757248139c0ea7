import Tyro.Eval.Error

/-!
# Answers

Evaluation ends in one of three ways: with a result, with an error of the program, or because the
fuel that bounds its depth is used up. Answers are chained as programs are: the first one that is no
result ends the chain.
-/

namespace Tyro

/-- The outcome of an evaluation that is bounded by fuel. -/
inductive Answer (α : Type) where
  | result (value : α)
  | error (error : EvalError)
  | outOfFuel

namespace Answer

variable {α β : Type}

/-- Goes on with the result, if there is one. -/
def bind (a : Answer α) (next : α → Answer β) : Answer β :=
  match a with
  | .result x => next x
  | .error e => .error e
  | .outOfFuel => .outOfFuel

instance : Monad Answer where
  pure := .result
  bind := bind

@[simp] theorem pure_eq (x : α) : (pure x : Answer α) = .result x := rfl

@[simp] theorem result_bind (x : α) (next : α → Answer β) :
    (Answer.result x >>= next) = next x := rfl

@[simp] theorem error_bind (e : EvalError) (next : α → Answer β) :
    (Answer.error e >>= next) = .error e := rfl

@[simp] theorem outOfFuel_bind (next : α → Answer β) :
    (Answer.outOfFuel >>= next) = .outOfFuel := rfl

/-- A result or an error, as an answer. -/
def ofExcept : Except EvalError α → Answer α
  | .ok x => .result x
  | .error e => .error e

/-- The result or error, if the fuel was enough. -/
def finished? : Answer α → Option (Except EvalError α)
  | .result x => some (.ok x)
  | .error e => some (.error e)
  | .outOfFuel => none

end Answer

end Tyro
