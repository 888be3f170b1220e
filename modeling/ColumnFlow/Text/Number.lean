/-!
# Integers in text

An integer may have a sign, and a lead that names its base: `0x`, `0o`, `0b`, or a single `0` for octal.
Underscores may stand between digits. The value has to fit into 64 bits with a sign.
-/

namespace ColumnFlow.Text

inductive NumberFault where
  | malformed
  | outOfRange
  deriving DecidableEq, Repr

def NumberFault.message : NumberFault → String
  | .malformed => "invalid syntax"
  | .outOfRange => "value out of range"

def digitValue? (c : Char) : Option Nat :=
  if '0' ≤ c && c ≤ '9' then some (c.toNat - 48)
  else if 'a' ≤ c && c ≤ 'z' then some (c.toNat - 87)
  else if 'A' ≤ c && c ≤ 'Z' then some (c.toNat - 55)
  else none

/-- The largest magnitude that is told apart from one that is too large. -/
def maxWord : Nat := 18446744073709551615

/-- The value of digits in a base. A value that is too large is reported before any later character. -/
def digitsValue (base : Nat) : Nat → List Char → Except NumberFault Nat
  | value, [] => .ok value
  | value, c :: rest =>
    match digitValue? c with
    | none => .error .malformed
    | some digit =>
      if digit ≥ base then .error .malformed
      else if value * base + digit > maxWord then .error .outOfRange
      else digitsValue base (value * base + digit) rest

/-- Whether every underscore stands between two digits. The lead of a base counts as a digit. -/
def underscoresFit : Bool → List Char → Bool
  | _, [] => true
  | afterDigit, '_' :: rest => afterDigit && !rest.isEmpty && underscoresFit false rest
  | _, _ :: rest => underscoresFit true rest

/-- Take the sign off. -/
def takeSign : List Char → Bool × List Char
  | '-' :: rest => (true, rest)
  | '+' :: rest => (false, rest)
  | cs => (false, cs)

/-- The base of a number, its digits, and whether a lead stands before them. -/
def takeBase : List Char → Nat × List Char × Bool
  | '0' :: c :: rest =>
    if c == 'x' || c == 'X' then (16, rest, true)
    else if c == 'o' || c == 'O' then (8, rest, true)
    else if c == 'b' || c == 'B' then (2, rest, true)
    else (8, c :: rest, true)
  | cs => (10, cs, false)

/-- The magnitude of the least signed value. -/
def signedLimit : Nat := 9223372036854775808

/-- A number taken as one of 64 bits with a sign: what does not fit starts again at the other end. -/
def wrapSigned (n : Int) : Int := Int.bmod n 18446744073709551616

/-- A signed value that fits into 64 bits. -/
def signed (negative : Bool) (magnitude : Nat) : Except NumberFault Int :=
  if negative then
    if magnitude > signedLimit then .error .outOfRange else .ok (-(magnitude : Int))
  else if magnitude ≥ signedLimit then .error .outOfRange
  else .ok magnitude

def readInteger (s : String) : Except NumberFault Int := do
  let (negative, cs) := takeSign s.toList
  let (base, digits, hasLead) := takeBase cs
  let plain := digits.filter (· != '_')
  if plain.isEmpty then throw .malformed
  let magnitude ← digitsValue base 0 plain
  if !underscoresFit hasLead digits then throw .malformed
  signed negative magnitude

/-- A decimal integer without lead and underscores. -/
def readDecimal (s : String) : Except NumberFault Int := do
  let (negative, digits) := takeSign s.toList
  if digits.isEmpty then throw .malformed
  signed negative (← digitsValue 10 0 digits)

end ColumnFlow.Text
