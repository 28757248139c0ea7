import Tyro.Proofs.Number.Bits
import Tyro.Proofs.Number.Magnitude
import Tyro.Proofs.Token.Written

/-!
# Numbers, written and read

A finite double is written as a decimal with an optional minus sign. That text is one number token
(`isToken_chars`), and it is read back as the same double, bit for bit (`read?_chars`). A literal is
only ever read as a finite double (`isFinite_of_read?`), so that every number of a program can be
written and read again.
-/

namespace Tyro

/-! ## The written decimal -/

namespace Decimal

/-- A natural number has a first digit. -/
theorem toDigits_ne_nil (n : Nat) : Nat.toDigits 10 n ≠ [] :=
  List.ne_nil_of_length_pos Nat.length_toDigits_pos

/-- A natural number is written with digits. -/
theorem isDigit_of_mem_toDigits {n : Nat} {c : Char} (h : c ∈ Nat.toDigits 10 n) :
    c.isDigit = true :=
  Nat.isDigit_of_mem_toDigits (by decide) (by decide) h

/-- The places of a decimal are digits. -/
theorem isDigit_of_mem_padded {width n : Nat} {c : Char} (h : c ∈ padded width n) :
    c.isDigit = true := by
  rcases List.mem_append.1 h with zero | digit
  · rw [(List.mem_replicate.1 zero).2]
    decide
  · exact isDigit_of_mem_toDigits digit

/-- Places that are filled up end in digits of their own. -/
theorem padded_ne_nil (width n : Nat) : padded width n ≠ [] :=
  List.append_ne_nil_of_right_ne_nil _ (toDigits_ne_nil n)

/-- A decimal is written as one number. -/
theorem isToken_chars (d : Decimal) : Token.IsToken .number d.chars := by
  unfold chars
  split
  · exact Token.isToken_digits (toDigits_ne_nil _) fun _ => isDigit_of_mem_toDigits
  · exact Token.isToken_fraction (toDigits_ne_nil _) (fun _ => isDigit_of_mem_toDigits)
      (padded_ne_nil _ _) fun _ => isDigit_of_mem_padded

/-- A decimal is written with a digit in front. -/
theorem chars_eq_cons (d : Decimal) : ∃ c cs, d.chars = c :: cs ∧ c.isDigit = true := by
  have head (n : Nat) (rest : List Char) :
      ∃ c cs, Nat.toDigits 10 n ++ rest = c :: cs ∧ c.isDigit = true := by
    obtain ⟨c, cs, digits⟩ := List.exists_cons_of_ne_nil (toDigits_ne_nil n)
    refine ⟨c, cs ++ rest, by rw [digits, List.cons_append], ?_⟩
    exact isDigit_of_mem_toDigits (digits ▸ List.mem_cons_self)
  unfold chars
  split
  · obtain ⟨c, cs, whole, digit⟩ := head d.digits []
    exact ⟨c, cs, by rwa [List.append_nil] at whole, digit⟩
  · exact head _ _

end Decimal

/-! ## The written double -/

namespace Number

/-- A finite double is written as its shortest decimal, after a minus sign if it has one. -/
theorem chars_eq {x : Float} (finite : IsFinite x) :
    chars x = (if x.toBits.toNat < signBit then [] else ['-']) ++
      (Magnitude.shortest (x.toBits.toNat % signBit)).chars := by
  unfold chars
  exact if_pos finite

/-- A finite double is written as one number token. -/
theorem isToken_chars {x : Float} (finite : IsFinite x) : Token.IsToken .number (chars x) := by
  have written := Decimal.isToken_chars (Magnitude.shortest (x.toBits.toNat % signBit))
  rw [chars_eq finite]
  split
  · exact written
  · obtain ⟨c, cs, head, digit⟩ :=
      Decimal.chars_eq_cons (Magnitude.shortest (x.toBits.toNat % signBit))
    rw [head] at written ⊢
    exact written.negative digit

/-- The shortest decimal of a finite magnitude is read as the double of that magnitude. -/
theorem ofDecimal?_shortest {magnitude : Nat} (negative : Bool)
    (finite : magnitude < Magnitude.infinite) :
    ofDecimal? negative (Decimal.read (Magnitude.shortest magnitude).chars) =
      some (ofMagnitude negative magnitude) := by
  rw [Decimal.read_chars]
  unfold ofDecimal?
  dsimp only
  rw [Magnitude.nearest_shortest finite, if_pos finite]

/-- After a minus sign a decimal is read. -/
theorem read?_minus (cs : List Char) :
    read? ('-' :: cs) = ofDecimal? true (Decimal.read cs) := by
  unfold read?
  split
  · next same =>
    rw [(List.cons.inj same).2]
  · next unsigned => exact absurd rfl (unsigned cs)

/-- Without a minus sign a decimal is read. -/
theorem read?_digit {c : Char} (digit : c.isDigit = true) (cs : List Char) :
    read? (c :: cs) = ofDecimal? false (Decimal.read (c :: cs)) := by
  have unsigned : c ≠ '-' := by
    rintro rfl
    exact absurd digit (by decide)
  unfold read?
  split
  · next minus => exact absurd (List.cons.inj minus).1 unsigned
  · rfl

/-- A finite double is read back from its text. -/
theorem read?_chars {x : Float} (finite : IsFinite x) : read? (chars x) = some x := by
  have whole := ofMagnitude_toBits finite
  rw [chars_eq finite]
  split
  · next positive =>
    rw [show decide (¬ x.toBits.toNat < signBit) = false by simpa using positive] at whole
    obtain ⟨c, cs, head, digit⟩ :=
      Decimal.chars_eq_cons (Magnitude.shortest (x.toBits.toNat % signBit))
    rw [List.nil_append, head, read?_digit digit, ← head, ofDecimal?_shortest false finite, whole]
  · next negative =>
    rw [show decide (¬ x.toBits.toNat < signBit) = true by simpa using negative] at whole
    rw [List.singleton_append, read?_minus, ofDecimal?_shortest true finite, whole]

/-- A decimal is read as a finite double. -/
theorem isFinite_of_ofDecimal? {negative : Bool} {d : Decimal} {x : Float}
    (h : ofDecimal? negative d = some x) : IsFinite x := by
  unfold ofDecimal? at h
  dsimp only at h
  split at h
  · next finite => exact Option.some.inj h ▸ isFinite_ofMagnitude negative finite
  · cases h

/-- A literal is read as a finite double. -/
theorem isFinite_of_read? {cs : List Char} {x : Float} (h : read? cs = some x) : IsFinite x := by
  unfold read? at h
  split at h <;> exact isFinite_of_ofDecimal? h

end Number

end Tyro
