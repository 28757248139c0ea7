import Tyro.Number.Decimal

/-!
# The double nearest to a decimal

A double without its sign is a *magnitude*: its lower 63 bits, as a natural number. Magnitudes are
ordered as the doubles are, and a finite one stands for a whole number of units of the smallest
positive double, `2 ^ -1074`, which `Magnitude.units` computes. `Magnitude.nearest` rounds a decimal
to the nearest magnitude in exact arithmetic, a half going to the even neighbour; a decimal too
large for every finite magnitude is rounded to the infinite one.
-/

namespace Tyro.Magnitude

/-- The number of binary places of the smallest positive double. It is the number of its decimal
places too, since `2 ^ -n` is `5 ^ n / 10 ^ n`. -/
def finest : Nat := 1074

/-- The number of magnitudes that share an exponent. -/
def binade : Nat := Nat.pow 2 52

/-- The magnitude of infinity. Every finite magnitude is below it, every NaN above. -/
def infinite : Nat := 2047 * binade

/-- The value of a finite magnitude, counted in units of `2 ^ -1074`. -/
def units (magnitude : Nat) : Nat :=
  let exponent := magnitude / binade
  let fraction := magnitude % binade
  if exponent = 0 then fraction else (binade + fraction) * Nat.pow 2 (exponent - 1)

/-- The quotient as the nearest natural number, a half going to the even neighbour. -/
def roundHalfEven (num den : Nat) : Nat :=
  let quotient := num / den
  let twice := 2 * (num % den)
  if twice < den then quotient
  else if den < twice then quotient + 1
  else if quotient % 2 = 0 then quotient
  else quotient + 1

/-- How many binary places a value of this many units loses when only 53 bits are kept. -/
def scale (units : Nat) : Nat := if units < 2 * binade then 0 else units.log2 - 52

/-- The magnitude nearest to a decimal, a half going to the even neighbour. The 53 bits that remain
after the scaling carry into the exponent by themselves, both for the leading bit that a normal
magnitude hides and when rounding adds a bit. -/
def nearest (d : Decimal) : Nat :=
  let num := d.digits * Nat.pow 2 finest
  let den := Nat.pow 10 d.places
  let places := scale (num / den)
  min infinite (places * binade + roundHalfEven num (den * Nat.pow 2 places))

end Tyro.Magnitude
