/-!
# Arities

How many arguments something takes, and what is said when it gets another number of them. Functions,
logical operators and tests share the wording.
-/

namespace Tyro

/-- At least `least` arguments and, if there is a limit, at most `most`. -/
structure Arity where
  least : Nat
  most : Option Nat
  deriving DecidableEq, Repr

namespace Arity

/-- Exactly `n` arguments. -/
def exactly (n : Nat) : Arity := ⟨n, some n⟩

/-- `n` arguments or more. -/
def atLeast (n : Nat) : Arity := ⟨n, none⟩

/-- Whether a number of arguments is allowed. -/
def accepts (a : Arity) (count : Nat) : Bool :=
  a.least ≤ count && a.most.all fun most => count ≤ most

theorem accepts_exactly {n count : Nat} : (exactly n).accepts count = true ↔ count = n := by
  change (decide (n ≤ count) && decide (count ≤ n)) = true ↔ _
  rw [Bool.and_eq_true, decide_eq_true_iff, decide_eq_true_iff]
  omega

theorem accepts_atLeast {n count : Nat} : (atLeast n).accepts count = true ↔ n ≤ count := by
  change (decide (n ≤ count) && true) = true ↔ _
  rw [Bool.and_true, decide_eq_true_iff]

/-- A number of arguments with its noun. -/
def countText (n : Nat) : String := toString n ++ if n = 1 then " argument" else " arguments"

/-- The complaint about a number of arguments that is not allowed. -/
def complaint (a : Arity) (count : Nat) : String :=
  let tooMany := a.most.any fun most => most < count
  let bound :=
    match a.most with
    | some most =>
      if a.least = most then
        if tooMany then "only " ++ countText most else countText most
      else if tooMany then "at most " ++ countText most
      else "at least " ++ countText a.least
    | none => "at least " ++ countText a.least
  let found :=
    if tooMany then toString count
    else if count = 0 then "none"
    else "only " ++ toString count
  "expects " ++ bound ++ ", but found " ++ found

end Arity

end Tyro
