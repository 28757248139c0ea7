import Tyro.Number.Text

/-!
# The bits of a finite double

A double is its 64 bits, a sign above a magnitude, with one single pattern for what is no number.
`pack_unpack` takes a pattern apart and puts it together again. For a finite pattern nothing is lost
(`toBits_ofBits`), so that a finite double is the one of its own sign and magnitude
(`ofMagnitude_toBits`).
-/

namespace Tyro.Number

open Float.Model.UnpackedFloat

/-- A double is finite if its magnitude is below the infinite one. -/
def IsFinite (x : Float) : Prop := x.toBits.toNat % signBit < Magnitude.infinite

/-! ## Taking a pattern apart -/

/-- The fields of a pattern of 64 bits, one after the other, are the pattern. -/
theorem fields_append (b : BitVec 64) :
    b.extractLsb 63 63 ++ b.extractLsb 62 52 ++ b.extractLsb 51 0 = b := by
  apply BitVec.eq_of_getLsbD_eq
  intro i hi
  have bound : i < 64 := hi
  rw [BitVec.getLsbD_append]
  by_cases fraction : i < 52
  · simp [fraction]
  · rw [BitVec.getLsbD_append]
    by_cases exponent : i < 63
    · have inside : i - 52 < 11 := by omega
      simp only [fraction, inside, decide_true, decide_false, BitVec.getLsbD_extractLsb]
      rw [show 52 + (i - 52) = i by omega]
      simp
    · have last : i = 63 := by omega
      subst last
      simp

/-- The sign, the exponent and the fraction of a pattern make up the pattern. -/
theorem packComponents_fields (b : BitVec 64) :
    packComponents .binary64 (Sign.ofBitVec (@unpackSign .binary64 b))
      (@unpackExponent .binary64 b) (@unpackMantissa .binary64 b) = b := by
  have sign : (Sign.ofBitVec (@unpackSign .binary64 b)).toBitVec = @unpackSign .binary64 b := by
    generalize @unpackSign .binary64 b = s
    revert s
    decide
  rw [packComponents, sign]
  exact fields_append b

/-- A significand of less than 53 bits is packed with the lowest exponent. -/
theorem pack_subnormal (s : Sign) {m : Nat} (positive : 0 < m) (fits : m < 4503599627370496) :
    pack .binary64 (.finite s m (-1074) positive) =
      packComponents .binary64 s 0#11 (BitVec.ofNat 52 m) := by
  have log : m.log2 < 52 := (Nat.log2_lt (Nat.ne_of_gt positive)).2 fits
  have exponent : (-1074 + 1023 + 52 : Int).toNat = 1 := rfl
  unfold pack
  dsimp only
  rw [if_neg, if_neg]
  · change ¬ m.log2 + 1 = 53
    omega
  · change ¬ 2048 ≤ (-1074 + 1023 + 52 : Int).toNat + 1
    rw [exponent]
    decide

/-- A significand of 53 bits is packed without its first one. -/
theorem pack_normal (s : Sign) {m e f : Nat} {place : Int} (positive : 0 < m)
    (lead : m = 4503599627370496 + f) (fits : f < 4503599627370496) (finite : e < 2047)
    (low : place = e - 1075) :
    pack .binary64 (.finite s m place positive) =
      packComponents .binary64 s (BitVec.ofNat 11 e) (BitVec.ofNat 52 f) := by
  have log : m.log2 = 52 := by
    refine (Nat.log2_eq_iff (Nat.ne_of_gt positive)).2 ?_
    change 4503599627370496 ≤ m ∧ m < 9007199254740992
    omega
  have exponent : (place + 1023 + 52).toNat = e := by omega
  have fraction : BitVec.ofNat 52 m = BitVec.ofNat 52 f := by
    apply BitVec.eq_of_toNat_eq
    rw [BitVec.toNat_ofNat, BitVec.toNat_ofNat, lead]
    exact Nat.add_mod_left _ f
  unfold pack
  dsimp only
  rw [if_neg, if_pos]
  · change packComponents .binary64 s (BitVec.ofNat 11 (place + 1023 + 52).toNat)
      (BitVec.ofNat 52 m) = _
    rw [exponent, fraction]
  · rw [log]
    rfl
  · change ¬ 2048 ≤ (place + 1023 + 52).toNat + 1
    omega

/-- What is taken apart is put together again, unless the pattern is one for no number. -/
theorem pack_unpack {b : BitVec 64} (finite : @unpackExponent .binary64 b ≠ -1#11) :
    pack .binary64 (Float.Model.UnpackedFloat.unpack .binary64 b) = b := by
  have whole := packComponents_fields b
  have fits : (@unpackMantissa .binary64 b).toNat < 4503599627370496 :=
    (@unpackMantissa .binary64 b).isLt
  have below : (@unpackExponent .binary64 b).toNat < 2047 := by
    have lt : (@unpackExponent .binary64 b).toNat < 2048 := (@unpackExponent .binary64 b).isLt
    have ne : (@unpackExponent .binary64 b).toNat ≠ 2047 :=
      fun h => finite (BitVec.eq_of_toNat_eq h)
    omega
  unfold Float.Model.UnpackedFloat.unpack
  dsimp only
  rw [if_neg finite]
  by_cases low : @unpackExponent .binary64 b = 0#11
  · rw [if_pos low]
    by_cases zero : @unpackMantissa .binary64 b = 0#52
    · rw [dif_pos zero]
      rwa [low, zero] at whole
    · rw [dif_neg zero]
      have positive : 0 < (@unpackMantissa .binary64 b).toNat :=
        Nat.pos_of_ne_zero fun h => zero (BitVec.eq_of_toNat_eq h)
      have packed := pack_subnormal (Sign.ofBitVec (@unpackSign .binary64 b)) positive fits
      rw [BitVec.ofNat_toNat, BitVec.setWidth_eq] at packed
      rw [low] at whole ⊢
      exact packed.trans whole
  · rw [if_neg low]
    have lead : (1#1 ++ @unpackMantissa .binary64 b).toNat =
        4503599627370496 + (@unpackMantissa .binary64 b).toNat := by
      rw [BitVec.toNat_append, ← Nat.shiftLeft_add_eq_or_of_lt (@unpackMantissa .binary64 b).isLt]
      rfl
    have place : (((@unpackExponent .binary64 b).toNat : Int) -
        (Float.Model.Format.binary64.exponentBias + (52 : Nat)) : Int) =
        (@unpackExponent .binary64 b).toNat - 1075 := rfl
    rw [pack_normal (Sign.ofBitVec (@unpackSign .binary64 b)) _ lead fits below place,
      BitVec.ofNat_toNat, BitVec.ofNat_toNat, BitVec.setWidth_eq, BitVec.setWidth_eq]
    exact whole

/-! ## Finite doubles -/

/-- The exponent field of a finite pattern is not the one of infinity. -/
theorem unpackExponent_ne {b : BitVec 64} (finite : b.toNat % signBit < Magnitude.infinite) :
    @unpackExponent .binary64 b ≠ -1#11 := by
  intro exponent
  have value : (@unpackExponent .binary64 b).toNat = b.toNat / 4503599627370496 % 2048 := by
    change (b.extractLsb 62 52).toNat = _
    rw [BitVec.extractLsb_toNat, Nat.shiftRight_eq_div_pow]
  have last : (@unpackExponent .binary64 b).toNat = 2047 := by
    rw [exponent]
    rfl
  change b.toNat % 9223372036854775808 < 9218868437227405312 at finite
  omega

/-- A finite pattern of bits is the bits of its double. -/
theorem toBits_ofBits {b : UInt64} (finite : b.toNat % signBit < Magnitude.infinite) :
    (Float.ofBits b).toBits = b :=
  congrArg UInt64.ofBitVec (pack_unpack (unpackExponent_ne finite))

/-- A double is determined by its bits. -/
theorem eq_of_toBits_eq {x y : Float} (h : x.toBits = y.toBits) : x = y := by
  obtain ⟨⟨x, _⟩⟩ := x
  obtain ⟨⟨y, _⟩⟩ := y
  have same : x = y := h
  subst same
  rfl

/-- Without the sign bit, a finite magnitude is left. -/
theorem signed_mod {magnitude : Nat} (negative : Bool) (finite : magnitude < Magnitude.infinite) :
    (if negative then signBit + magnitude else magnitude) % signBit = magnitude := by
  have lt : magnitude < signBit := Nat.lt_trans finite (by decide)
  split
  · rw [Nat.add_mod_left, Nat.mod_eq_of_lt lt]
  · exact Nat.mod_eq_of_lt lt

/-- The pattern of a sign and a finite magnitude has just these. -/
theorem toNat_ofNat_sign {magnitude : Nat} (negative : Bool)
    (finite : magnitude < Magnitude.infinite) :
    (UInt64.ofNat (if negative then signBit + magnitude else magnitude)).toNat =
      if negative then signBit + magnitude else magnitude := by
  have lt : magnitude < 9218868437227405312 := finite
  have half : signBit = 9223372036854775808 := rfl
  apply UInt64.toNat_ofNat_of_lt'
  change _ < 18446744073709551616
  split <;> omega

/-- The bits of the double of a sign and a finite magnitude. -/
theorem toBits_ofMagnitude {magnitude : Nat} (negative : Bool)
    (finite : magnitude < Magnitude.infinite) :
    (ofMagnitude negative magnitude).toBits.toNat =
      if negative then signBit + magnitude else magnitude := by
  have pattern := toNat_ofNat_sign negative finite
  unfold ofMagnitude
  rw [toBits_ofBits, pattern]
  rwa [pattern, signed_mod negative finite]

/-- The double of a finite magnitude is finite. -/
theorem isFinite_ofMagnitude {magnitude : Nat} (negative : Bool)
    (finite : magnitude < Magnitude.infinite) : IsFinite (ofMagnitude negative magnitude) := by
  unfold IsFinite
  rwa [toBits_ofMagnitude negative finite, signed_mod negative finite]

/-- A finite double is the one of its own sign and magnitude. -/
theorem ofMagnitude_toBits {x : Float} (finite : IsFinite x) :
    ofMagnitude (decide (¬ x.toBits.toNat < signBit)) (x.toBits.toNat % signBit) = x := by
  apply eq_of_toBits_eq
  apply UInt64.toNat.inj
  rw [toBits_ofMagnitude _ finite]
  have lt : x.toBits.toNat < 18446744073709551616 := x.toBits.toNat_lt
  have half : signBit = 9223372036854775808 := rfl
  by_cases positive : x.toBits.toNat < signBit
  · simp only [positive, not_true, decide_false, Bool.false_eq_true, if_false]
    exact Nat.mod_eq_of_lt positive
  · simp only [positive, not_false_eq_true, decide_true, if_true]
    rw [half] at positive ⊢
    omega

end Tyro.Number
