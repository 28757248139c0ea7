import Tyro.Number.Shortest

/-!
# The shortest decimal rounds back

`nearest_shortest` says that the shortest decimal of a finite magnitude is rounded to that
magnitude. A decimal that the walk through the grids picks rounds back by `nearest_of_neighbour?`;
what is left is the exact value on the last grid, for which `units_eq` splits the value of a
magnitude into the 53 bits that are kept and the power of two that is scaled away.
-/

namespace Tyro.Magnitude

/-- A quotient without remainder is rounded to itself. -/
theorem roundHalfEven_mul {den : Nat} (positive : 0 < den) (quotient : Nat) :
    roundHalfEven (quotient * den) den = quotient := by
  simp [roundHalfEven, Nat.mul_div_cancel _ positive, positive]

/-- A power of two with an exponent from 52 on is a multiple of the binade. -/
theorem pow_binade (n : Nat) : Nat.pow 2 (52 + n) = binade * Nat.pow 2 n :=
  Nat.pow_add 2 52 n

/-- The binade, in figures. -/
theorem binade_eq : binade = 4503599627370496 := by decide

/-- A significand of 53 bits with `n` more bits loses exactly these. -/
theorem scale_mul_pow {significand : Nat} (low : binade ≤ significand)
    (high : significand < 2 * binade) (n : Nat) : scale (significand * Nat.pow 2 n) = n := by
  have positive : 0 < Nat.pow 2 n := Nat.pow_pos (by decide)
  unfold scale
  cases n with
  | zero => rw [if_pos (by simpa using high)]
  | succ n =>
    have double : Nat.pow 2 (n + 1) = 2 * Nat.pow 2 n := Nat.mul_comm _ 2
    have positive' : 0 < Nat.pow 2 n := Nat.pow_pos (by decide)
    have large : 2 * binade ≤ significand * Nat.pow 2 (n + 1) :=
      calc 2 * binade ≤ 2 * significand := Nat.mul_le_mul_left 2 low
        _ ≤ 2 * significand * Nat.pow 2 n := Nat.le_mul_of_pos_right _ positive'
        _ = significand * Nat.pow 2 (n + 1) := by rw [double, Nat.mul_comm 2, Nat.mul_assoc]
    have ne : significand * Nat.pow 2 (n + 1) ≠ 0 := by
      rw [binade_eq] at large
      omega
    have log : (significand * Nat.pow 2 (n + 1)).log2 = 52 + (n + 1) := by
      refine (Nat.log2_eq_iff ne).2 ⟨?_, ?_⟩
      · change Nat.pow 2 (52 + (n + 1)) ≤ _
        rw [pow_binade]
        exact Nat.mul_le_mul_right _ low
      · change _ < Nat.pow 2 (52 + (n + 1)) * 2
        rw [pow_binade, Nat.mul_right_comm, Nat.mul_comm binade]
        exact Nat.mul_lt_mul_of_pos_right high positive
    rw [if_neg (by omega), log]
    omega

/-- The value of a magnitude is a number of at most 53 bits, scaled by what the exponent says; the
two together make up the magnitude. -/
theorem units_eq (magnitude : Nat) :
    ∃ kept, units magnitude = kept * Nat.pow 2 (scale (units magnitude)) ∧
      scale (units magnitude) * binade + kept = magnitude := by
  have parts := Nat.div_add_mod magnitude binade
  have fraction : magnitude % binade < binade := Nat.mod_lt _ (by decide)
  unfold units
  dsimp only
  by_cases subnormal : magnitude / binade = 0
  · rw [if_pos subnormal]
    rw [subnormal, Nat.mul_zero, Nat.zero_add] at parts
    have unscaled : scale (magnitude % binade) = 0 := if_pos (by omega)
    refine ⟨magnitude % binade, ?_, ?_⟩
    · rw [unscaled]
      exact (Nat.mul_one _).symm
    · rw [unscaled, Nat.zero_mul, Nat.zero_add, parts]
  · rw [if_neg subnormal, scale_mul_pow (Nat.le_add_right _ _) (by omega)]
    refine ⟨binade + magnitude % binade, rfl, ?_⟩
    obtain ⟨n, hn⟩ := Nat.exists_eq_succ_of_ne_zero subnormal
    rw [hn, Nat.succ_eq_add_one, Nat.mul_add, Nat.mul_one, Nat.mul_comm] at parts
    rw [hn, Nat.succ_eq_add_one, Nat.add_sub_cancel]
    omega

/-- The value of a magnitude, as a quotient with any power of ten below, is rounded to the
magnitude. -/
theorem round_units (magnitude n : Nat) :
    units magnitude * Nat.pow 5 n * Nat.pow 2 n / Nat.pow 10 n = units magnitude ∧
      scale (units magnitude) * binade +
        roundHalfEven (units magnitude * Nat.pow 5 n * Nat.pow 2 n)
          (Nat.pow 10 n * Nat.pow 2 (scale (units magnitude))) = magnitude := by
  obtain ⟨kept, value, whole⟩ := units_eq magnitude
  have den : 0 < Nat.pow 10 n := Nat.pow_pos (by decide)
  have step : 0 < Nat.pow 2 (scale (units magnitude)) := Nat.pow_pos (by decide)
  have ten : Nat.pow 5 n * Nat.pow 2 n = Nat.pow 10 n := (Nat.mul_pow 5 2 n).symm
  have num : units magnitude * Nat.pow 5 n * Nat.pow 2 n = units magnitude * Nat.pow 10 n := by
    rw [Nat.mul_assoc, ten]
  have split : units magnitude * Nat.pow 10 n =
      kept * (Nat.pow 10 n * Nat.pow 2 (scale (units magnitude))) := by
    rw [Nat.mul_comm (Nat.pow 10 n), ← Nat.mul_assoc, ← value]
  rw [num]
  refine ⟨Nat.mul_div_cancel _ den, ?_⟩
  rw [split, roundHalfEven_mul (Nat.mul_pos den step), whole]

/-- The exact value of a finite magnitude is rounded to that magnitude. -/
theorem nearest_exactUnits {magnitude : Nat} (finite : magnitude < infinite) :
    nearest ⟨exactUnits magnitude, finest⟩ = magnitude := by
  unfold nearest exactUnits
  generalize finest = n
  obtain ⟨quotient, whole⟩ := round_units magnitude n
  dsimp only
  rw [quotient, whole]
  exact Nat.min_eq_right (Nat.le_of_lt finite)

/-- Whatever grid the walk begins with, the decimal that it ends with is rounded back. -/
theorem nearest_shortestFrom {magnitude : Nat} (finite : magnitude < infinite) (p : Nat) :
    nearest (shortestFrom magnitude (exactUnits magnitude) p) = magnitude := by
  induction p with
  | zero =>
    have last : shortestFrom magnitude (exactUnits magnitude) 0 =
        ⟨exactUnits magnitude, finest⟩ := by
      rw [shortestFrom, gridPoint, if_pos (Nat.zero_le _), Nat.sub_zero]
    rw [last]
    exact nearest_exactUnits finite
  | succ p ih =>
    rw [shortestFrom]
    cases hit : neighbour? magnitude (exactUnits magnitude) (p + 1) with
    | some d => exact nearest_of_neighbour? hit
    | none => exact ih

/-- The decimal zero is rounded to zero. -/
theorem nearest_zero : nearest ⟨0, 0⟩ = 0 := by
  unfold nearest
  generalize Nat.pow 2 finest = n
  simp [scale, roundHalfEven, binade_eq]

/-- The shortest decimal of a finite magnitude is rounded to that magnitude. -/
theorem nearest_shortest {magnitude : Nat} (finite : magnitude < infinite) :
    nearest (shortest magnitude) = magnitude := by
  unfold shortest
  split
  · next zero =>
    subst zero
    exact nearest_zero
  · exact nearest_shortestFrom finite _

end Tyro.Magnitude
