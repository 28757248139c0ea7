/-!
# Decimals

A decimal is a natural number of digits with a decimal point somewhere inside or after it. It is
always written positionally: there is no exponent, and a decimal without places has no point.
`Decimal.read_chars` says that the written form of a decimal is read back as the same decimal,
zeros at the end of its places included.
-/

namespace Tyro

/-- The number `digits / 10 ^ places`. -/
structure Decimal where
  digits : Nat
  places : Nat
  deriving DecidableEq, Repr

namespace Decimal

/-- The places as exactly `width` digits, filled up with zeros on the left. -/
def padded (width n : Nat) : List Char :=
  List.replicate (width - (Nat.toDigits 10 n).length) '0' ++ Nat.toDigits 10 n

/-- The written form: the whole part, then a point and the places if there are any. -/
def chars (d : Decimal) : List Char :=
  if d.places = 0 then Nat.toDigits 10 d.digits
  else
    Nat.toDigits 10 (d.digits / Nat.pow 10 d.places) ++
      '.' :: padded d.places (d.digits % Nat.pow 10 d.places)

/-- The decimal with these digits before and after the point. -/
def ofParts (whole places : List Char) : Decimal :=
  ⟨Nat.ofDigitChars 10 (whole ++ places) 0, places.length⟩

/-- Reads digits with at most one point among them. -/
def read (cs : List Char) : Decimal :=
  ofParts (cs.takeWhile (· ≠ '.')) ((cs.dropWhile (· ≠ '.')).drop 1)

/-! ## Reading undoes writing -/

theorem read_append_point {whole : List Char} (h : ∀ c ∈ whole, c ≠ '.') (places : List Char) :
    read (whole ++ '.' :: places) = ofParts whole places := by
  have h' : ∀ c ∈ whole, decide (c ≠ '.') = true := by simpa using h
  simp only [read]
  rw [List.takeWhile_append_of_pos h', List.dropWhile_append_of_pos h']
  simp

theorem read_of_pointless {whole : List Char} (h : ∀ c ∈ whole, c ≠ '.') :
    read whole = ofParts whole [] := by
  have h' : ∀ c ∈ whole, decide (c ≠ '.') = true := by simpa using h
  have take : whole.takeWhile (· ≠ '.') = whole := by
    rw [← List.append_nil whole, List.takeWhile_append_of_pos h']
    simp
  have drop : whole.dropWhile (· ≠ '.') = [] := by
    rw [← List.append_nil whole, List.dropWhile_append_of_pos h']
    simp
  simp only [read, take, drop]
  simp

theorem ne_point_of_mem_toDigits {n : Nat} {c : Char} (h : c ∈ Nat.toDigits 10 n) : c ≠ '.' := by
  rintro rfl
  exact absurd (Nat.isDigit_of_mem_toDigits (by decide) (by decide) h) (by decide)

theorem length_padded {width n : Nat} (positive : 0 < width) (fits : n < Nat.pow 10 width) :
    (padded width n).length = width := by
  have := (@Nat.length_toDigits_le_iff 10 n width (by decide) positive).2 fits
  simp only [padded, List.length_append, List.length_replicate]
  omega

theorem ofDigitChars_padded (width n : Nat) : Nat.ofDigitChars 10 (padded width n) 0 = n := by
  simp [padded, Nat.ofDigitChars_append]

/-- The written form of a decimal is read back as the same decimal. -/
theorem read_chars (d : Decimal) : read d.chars = d := by
  obtain ⟨digits, places⟩ := d
  unfold chars
  dsimp only
  split
  · next h =>
    subst h
    rw [read_of_pointless fun _ => ne_point_of_mem_toDigits]
    simp [ofParts]
  · next h =>
    have fits : digits % Nat.pow 10 places < Nat.pow 10 places :=
      Nat.mod_lt _ (Nat.pow_pos (by decide))
    have len := length_padded (Nat.pos_of_ne_zero h) fits
    rw [read_append_point fun _ => ne_point_of_mem_toDigits]
    simp only [ofParts, len, Decimal.mk.injEq, and_true]
    rw [Nat.ofDigitChars_append, Nat.ofDigitChars_ten_toDigits,
      Nat.ofDigitChars_eq_ofDigitChars_zero, ofDigitChars_padded, len]
    exact Nat.div_add_mod digits (Nat.pow 10 places)

end Decimal

end Tyro
