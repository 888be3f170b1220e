import ColumnFlow.Number.Double
import ColumnFlow.Text.Number

/-!
# Spans of time

A span is counted in nanoseconds and written as numbers with units, such as `1m30s` or `1.5s`. A part of a unit
is worked out in double precision.
-/

namespace ColumnFlow

structure Duration where
  nanoseconds : Int
  deriving DecidableEq, Repr, Inhabited

namespace Duration

/-- A number of milliseconds, taken in 64 bits. -/
def ofMilliseconds (n : Int) : Duration := ⟨Text.wrapSigned (n * 1000000)⟩

/-- Whole milliseconds, toward zero. -/
def milliseconds (d : Duration) : Int := d.nanoseconds.tdiv 1000000

/-! ### Text -/

/-- The lowest `places` digits of a number as a fraction, without zeros at the end. -/
def fractionText (n places : Nat) : String :=
  let digits := Nat.toDigits 10 (n % Nat.pow 10 places)
  let padded := List.replicate (places - digits.length) '0' ++ digits
  let kept := (padded.reverse.dropWhile (· == '0')).reverse
  if n % Nat.pow 10 places == 0 then "" else "." ++ String.ofList kept

/-- A number of units of ten to the `places`. -/
def scaledText (n places : Nat) (unit : String) : String :=
  s!"{n / Nat.pow 10 places}{fractionText n places}{unit}"

def magnitudeText (n : Nat) : String :=
  if n == 0 then "0s"
  else if n < 1000 then scaledText n 0 "ns"
  else if n < 1000000 then scaledText n 3 "µs"
  else if n < 1000000000 then scaledText n 6 "ms"
  else
    let seconds := n / 1000000000
    let minutes := seconds / 60
    let rest := s!"{seconds % 60}{fractionText n 9}s"
    if minutes == 0 then rest
    else if minutes < 60 then s!"{minutes}m{rest}"
    else s!"{minutes / 60}h{minutes % 60}m{rest}"

def text (d : Duration) : String :=
  if d.nanoseconds < 0 then "-" ++ magnitudeText d.nanoseconds.natAbs else magnitudeText d.nanoseconds.natAbs

/-! ### Reading -/

/-- The nanoseconds of a unit. -/
def unit? : String → Option Nat
  | "ns" => some 1
  | "us" | "µs" | "μs" => some 1000
  | "ms" => some 1000000
  | "s" => some 1000000000
  | "m" => some 60000000000
  | "h" => some 3600000000000
  | _ => none

def isNumberChar (c : Char) : Bool := c == '.' || c.isDigit

def digitsNat (cs : List Char) : Nat := cs.foldl (fun n c => n * 10 + (c.toNat - 48)) 0

/-- The largest magnitude of a span. -/
def limit : Nat := 9223372036854775808

/-- The digits of a fraction as a whole number, and ten to their count. Digits that do not fit into 63 bits are
left out. -/
def fraction : Nat → Double → List Char → Nat × Double
  | value, scale, [] => (value, scale)
  | value, scale, c :: rest =>
    let longer := value * 10 + (c.toNat - 48)
    if value > (limit - 1) / 10 || longer > limit then (value, scale)
    else fraction longer (scale.mul (.ofInt 10)) rest

/-- The nanoseconds of a fraction of a unit. -/
def fractionOf (size : Nat) (digits : List Char) : Nat :=
  let (value, scale) := fraction 0 (.ofInt 1) digits
  ((Double.ofInt value).mul ((Double.ofInt size).div scale)).whole.toNat

/-- One number with its unit, and what follows. -/
def term? (cs : List Char) : Option (Nat × List Char) := do
  let whole := cs.takeWhile Char.isDigit
  let (part, rest) := match cs.dropWhile Char.isDigit with
    | '.' :: rest => (rest.takeWhile Char.isDigit, rest.dropWhile Char.isDigit)
    | rest => ([], rest)
  if whole.isEmpty && part.isEmpty then none
  let size ← unit? (String.ofList (rest.takeWhile (!isNumberChar ·)))
  let value := digitsNat whole * size + fractionOf size part
  if value > limit then none
  return (value, rest.dropWhile (!isNumberChar ·))

/-- The sum of numbers with units, taken in 64 bits. -/
def terms? : Nat → Nat → List Char → Option Nat
  | _, total, [] => some total
  | 0, _, _ :: _ => none
  | n + 1, total, cs => do
    let (value, rest) ← term? cs
    let total := (total + value) % (2 * limit)
    if total > limit then none else terms? n total rest

def ofText? (s : String) : Option Duration :=
  let (negative, cs) := match s.toList with
    | '-' :: cs => (true, cs)
    | '+' :: cs => (false, cs)
    | cs => (false, cs)
  if cs == ['0'] then some ⟨0⟩
  else if cs.isEmpty then none
  else do
    let total ← terms? cs.length 0 cs
    if negative then return ⟨-total⟩
    else if total ≥ limit then none
    else return ⟨total⟩

end Duration

end ColumnFlow
