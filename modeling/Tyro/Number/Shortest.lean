import Tyro.Number.Nearest

/-!
# The shortest decimal of a double

Among the decimals that round to a finite magnitude, `Magnitude.shortest` picks one with the fewest
digits, and of those the nearest. It walks through the decimal grids from the coarse to the fine:
on each it tries the two neighbours of the exact value, and the first grid with a neighbour that
rounds back decides. If both do, the nearer one is taken, and the upper one when the value lies
half-way. The last grid holds the exact value, so the walk always ends with an answer.
-/

namespace Tyro.Magnitude

/-- A finite magnitude is a whole number of units of `10 ^ -1074`; this is their number. -/
def exactUnits (magnitude : Nat) : Nat := units magnitude * Nat.pow 5 finest

/-- The decimal `n * 10 ^ p / 10 ^ 1074`, without places that can only hold zeros. -/
def gridPoint (p n : Nat) : Decimal :=
  if p ≤ finest then ⟨n, finest - p⟩ else ⟨n * Nat.pow 10 (p - finest), 0⟩

/-- The neighbour of the exact value on the grid of step `10 ^ p` that rounds to the magnitude. Of
two such the nearer is taken, half-way the upper. -/
def neighbour? (magnitude exact p : Nat) : Option Decimal :=
  let step := Nat.pow 10 p
  let below := gridPoint p (exact / step)
  let above := gridPoint p (exact / step + 1)
  if nearest below = magnitude then
    if nearest above = magnitude ∧ step ≤ 2 * (exact % step) then some above else some below
  else if nearest above = magnitude then some above
  else none

/-- The first hit on the grids of step `10 ^ p` and finer. -/
def shortestFrom (magnitude exact : Nat) : Nat → Decimal
  | 0 => gridPoint 0 exact
  | p + 1 => (neighbour? magnitude exact (p + 1)).getD (shortestFrom magnitude exact p)

/-- A number of decimal digits that `n` does not exceed: the logarithm of 2 to the base 10 is a
little less than 0.30103. -/
def digitBound (n : Nat) : Nat := (n.log2 + 1) * 30103 / 100000 + 1

/-- The shortest decimal that rounds to a finite magnitude. -/
def shortest (magnitude : Nat) : Decimal :=
  if magnitude = 0 then ⟨0, 0⟩
  else
    let exact := exactUnits magnitude
    shortestFrom magnitude exact (digitBound exact)

/-- A neighbour that is picked rounds back. -/
theorem nearest_of_neighbour? {magnitude exact p : Nat} {d : Decimal}
    (h : neighbour? magnitude exact p = some d) : nearest d = magnitude := by
  unfold neighbour? at h
  dsimp only at h
  split at h
  · next below =>
    split at h
    · next above => exact Option.some.inj h ▸ above.1
    · exact Option.some.inj h ▸ below
  · split at h
    · next above => exact Option.some.inj h ▸ above
    · cases h

end Tyro.Magnitude
