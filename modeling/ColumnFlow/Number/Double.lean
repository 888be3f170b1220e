/-!
# Numbers of double precision

A finite number of double precision has 53 significant bits and an exponent from -1074 on. The result of an
operation is the exact result rounded to the nearest of these numbers, and of two that are equally near to the
one whose mantissa is even. A result beyond the largest number is infinite.
-/

namespace ColumnFlow

inductive Double where
  /-- `mantissa` times two to the `exponent`. -/
  | finite (negative : Bool) (mantissa : Nat) (exponent : Int)
  | infinite (negative : Bool)
  /-- The result of an operation that has none, such as zero over zero. -/
  | undefined
  deriving DecidableEq, Repr, Inhabited

namespace Double

/-- One more than the largest mantissa. -/
def mantissaLimit : Nat := 9007199254740992

/-- The least mantissa of a number that uses all bits. -/
def mantissaLead : Nat := 4503599627370496

def leastExponent : Int := -1074

def greatestExponent : Int := 971

def zero (negative : Bool) : Double := .finite negative 0 leastExponent

/-- Two to a power; one if the power is negative. -/
def powerOfTwo (power : Int) : Nat := Nat.pow 2 power.toNat

/-! ### Rounding -/

/-- A quotient rounded to the nearest whole number, a half to the even one. -/
def roundQuotient (n d : Nat) : Nat :=
  let q := n / d
  let twice := 2 * (n % d)
  if twice < d then q else if twice > d then q + 1 else q + q % 2

/-- The exponent with which a quotient has a mantissa of 53 bits, or the least one. -/
def exponentOf (n d : Nat) : Int :=
  let guess : Int := (Nat.log2 n : Int) - (Nat.log2 d : Int) - 52
  let isShort := n * powerOfTwo (-guess) < mantissaLead * d * powerOfTwo guess
  max (if isShort then guess - 1 else guess) leastExponent

/-- The number nearest to a quotient of two whole numbers. -/
def ofQuotient (negative : Bool) (n d : Nat) : Double :=
  if n == 0 then zero negative
  else
    let exponent := exponentOf n d
    let rounded := roundQuotient (n * powerOfTwo (-exponent)) (d * powerOfTwo exponent)
    let (mantissa, exponent) :=
      if rounded == mantissaLimit then (mantissaLead, exponent + 1) else (rounded, exponent)
    if exponent > greatestExponent then .infinite negative else .finite negative mantissa exponent

/-- The number nearest to `n` times two to the `power`. -/
def ofScaled (negative : Bool) (n : Nat) (power : Int) : Double :=
  ofQuotient negative (n * powerOfTwo power) (powerOfTwo (-power))

def ofInt (n : Int) : Double := ofQuotient (n < 0) n.natAbs 1

/-- More decimal digits than this before the point are too many for a finite number, and more zeros than this
after it too many for one that is not zero. -/
def decimalReach : Int := 400

/-- The number nearest to `digits` times ten to the `power`. -/
def ofDecimal (negative : Bool) (digits : Nat) (power : Int) : Double :=
  let size : Int := (Nat.toDigits 10 digits).length + power
  if digits == 0 || size < -decimalReach then zero negative
  else if size > decimalReach then .infinite negative
  else ofQuotient negative (digits * Nat.pow 10 power.toNat) (Nat.pow 10 (-power).toNat)

/-! ### Arithmetic -/

def isZero : Double → Bool
  | .finite _ mantissa _ => mantissa == 0
  | _ => false

def isNegative : Double → Bool
  | .finite negative _ _ => negative
  | .infinite negative => negative
  | .undefined => false

def isBelowZero (x : Double) : Bool := x.isNegative && !x.isZero

def isInfinite : Double → Bool
  | .infinite _ => true
  | _ => false

def neg : Double → Double
  | .finite negative mantissa exponent => .finite (!negative) mantissa exponent
  | .infinite negative => .infinite (!negative)
  | .undefined => .undefined

/-- `mantissa` times two to the `exponent`, counted in units of two to the `unit`. -/
def inUnits (unit : Int) (negative : Bool) (mantissa : Nat) (exponent : Int) : Int :=
  let magnitude : Int := (mantissa * powerOfTwo (exponent - unit) : Nat)
  if negative then -magnitude else magnitude

def add : Double → Double → Double
  | .finite s m e, .finite t n f =>
    let unit := min e f
    let sum := inUnits unit s m e + inUnits unit t n f
    if sum == 0 then zero (s && t) else ofScaled (sum < 0) sum.natAbs unit
  | .undefined, _ | _, .undefined => .undefined
  | .infinite s, .infinite t => if s == t then .infinite s else .undefined
  | .infinite s, _ | _, .infinite s => .infinite s

def sub (x y : Double) : Double := x.add y.neg

def mul : Double → Double → Double
  | .finite s m e, .finite t n f => ofScaled (s != t) (m * n) (e + f)
  | .undefined, _ | _, .undefined => .undefined
  | x, y => if x.isZero || y.isZero then .undefined else .infinite (x.isNegative != y.isNegative)

def div : Double → Double → Double
  | .finite s m e, .finite t n f =>
    if n != 0 then ofQuotient (s != t) (m * powerOfTwo (e - f)) (n * powerOfTwo (f - e))
    else if m == 0 then .undefined
    else .infinite (s != t)
  | .finite s _ _, .infinite t => zero (s != t)
  | .infinite s, .finite t _ _ => .infinite (s != t)
  | _, _ => .undefined

/-! ### Whole numbers -/

/-- The whole part, as far as it is a signed number of 64 bits. Anything else becomes the least of them. -/
def whole : Double → Int
  | .finite negative mantissa exponent =>
    let magnitude : Int := (mantissa * powerOfTwo exponent / powerOfTwo (-exponent) : Nat)
    let n := if negative then -magnitude else magnitude
    if n < -9223372036854775808 || n > 9223372036854775807 then -9223372036854775808 else n
  | _ => -9223372036854775808

end Double

end ColumnFlow
