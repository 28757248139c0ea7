import Tyro.Number.Shortest

/-!
# The text of a number

Numbers are doubles. `Number.read?` takes a literal, an optional minus sign followed by a decimal,
to the nearest double, unless the literal is too large for every finite one. `Number.text` writes a
double as the shortest decimal that is read back as the same double, with a minus sign where the
double has one, zero included. Only results of arithmetic can be infinite or no number at all; these
are written as words.
-/

namespace Tyro.Number

/-- The sign bit of a double, above its magnitude. -/
def signBit : Nat := Nat.pow 2 63

/-- The double of a given sign and magnitude. -/
def ofMagnitude (negative : Bool) (magnitude : Nat) : Float :=
  Float.ofBits (UInt64.ofNat (if negative then signBit + magnitude else magnitude))

/-- The double nearest to a decimal, with the given sign, if it is finite. -/
def ofDecimal? (negative : Bool) (d : Decimal) : Option Float :=
  let magnitude := Magnitude.nearest d
  if magnitude < Magnitude.infinite then some (ofMagnitude negative magnitude) else none

/-- The double nearest to a literal, if it is finite. -/
def read? : List Char → Option Float
  | '-' :: cs => ofDecimal? true (Decimal.read cs)
  | cs => ofDecimal? false (Decimal.read cs)

/-- The characters that a double is written with. -/
def chars (x : Float) : List Char :=
  let bits := x.toBits.toNat
  let magnitude := bits % signBit
  let sign := if bits < signBit then [] else ['-']
  if magnitude < Magnitude.infinite then sign ++ (Magnitude.shortest magnitude).chars
  else if magnitude = Magnitude.infinite then sign ++ ['i', 'n', 'f']
  else ['N', 'a', 'N']

/-- The text that a double is written with. -/
def text (x : Float) : String := String.ofList (chars x)

end Tyro.Number
