import ColumnFlow.Number.Double

/-!
# Shortest decimal text

A number of double precision is written with the fewest decimal digits from which it can be read back, and of
those with as many digits the nearest. There is no exponent: zeros fill the places up to the point.
-/

namespace ColumnFlow.Double

/-- `digits` times ten to the `power`. -/
structure Decimal where
  digits : Nat
  power : Int
  deriving DecidableEq, Repr, Inhabited

namespace Decimal

/-- Compare with `n` times two to the `exponent`. -/
def compareTo (d : Decimal) (n : Nat) (exponent : Int) : Ordering :=
  compare (d.digits * Nat.pow 10 d.power.toNat * powerOfTwo (-exponent))
    (n * powerOfTwo exponent * Nat.pow 10 (-d.power).toNat)

/-- Whether `mantissa` times two to the `exponent` is the number nearest to a decimal. The next number below one
with the least full mantissa is half as far away. -/
def readsBack (d : Decimal) (mantissa : Nat) (exponent : Int) : Bool :=
  let isEven := mantissa % 2 == 0
  let below := if mantissa == mantissaLead && exponent > leastExponent then 4 * mantissa - 1 else 4 * mantissa - 2
  let fromBelow := d.compareTo below (exponent - 2)
  let fromAbove := d.compareTo (4 * mantissa + 2) (exponent - 2)
  (fromBelow == .gt || (isEven && fromBelow == .eq)) && (fromAbove == .lt || (isEven && fromAbove == .eq))

/-- The best decimal of a power of ten: of the two around the number the nearer that reads back. -/
def ofPower? (mantissa : Nat) (exponent : Int) (power : Int) : Option Decimal :=
  let n := mantissa * powerOfTwo exponent * Nat.pow 10 (-power).toNat
  let d := powerOfTwo (-exponent) * Nat.pow 10 power.toNat
  let low : Decimal := { digits := n / d, power }
  let high : Decimal := { digits := n / d + 1, power }
  match low.readsBack mantissa exponent, high.readsBack mantissa exponent with
  | true, true => some { digits := roundQuotient n d, power }
  | true, false => some low
  | false, true => some high
  | false, false => none

/-- The highest power of ten that is tried, and how many below it. -/
def highestPower : Int := 309

def powerCount : Nat := 660

/-- The decimal with the fewest digits that reads back. -/
def shortest (mantissa : Nat) (exponent : Int) : Decimal :=
  ((List.range powerCount).findSome? fun (step : Nat) => ofPower? mantissa exponent (highestPower - step)).getD
    { digits := 0, power := 0 }

/-- The digits around a point. -/
def text (d : Decimal) : String :=
  let places := (-d.power).toNat
  let digits := Nat.toDigits 10 (d.digits * Nat.pow 10 d.power.toNat)
  let padded := List.replicate (places + 1 - digits.length) '0' ++ digits
  let whole := padded.take (padded.length - places)
  let part := padded.drop (padded.length - places)
  String.ofList whole ++ if part.isEmpty then "" else "." ++ String.ofList part

end Decimal

def text : Double → String
  | .finite negative mantissa exponent =>
    (if negative then "-" else "") ++ if mantissa == 0 then "0" else (Decimal.shortest mantissa exponent).text
  | .infinite negative => if negative then "-Inf" else "+Inf"
  | .undefined => "NaN"

end ColumnFlow.Double
