import ColumnFlow.Number.Double
import ColumnFlow.Text.Number
import ColumnFlow.Yaml.Decode

/-!
# What a node means on its own

Where nothing says what kind of value is wanted, a plain scalar is read as the first of these that it can be:
nothing, a truth value, a date, an integer, a number of double precision, a text.
-/

namespace ColumnFlow.Yaml

inductive Value where
  | null
  | bool (value : Bool)
  | int (value : Int)
  | float (value : Double)
  /-- A date in its full form. -/
  | date (text : String)
  | text (value : String)
  | list (items : List Value)
  | map (entries : List (String × Value))
  deriving Inhabited

/-! ### Dates -/

def isLeapYear (y : Nat) : Bool := (y % 4 == 0 && y % 100 != 0) || y % 400 == 0

def daysIn (year month : Nat) : Nat :=
  if month == 2 then if isLeapYear year then 29 else 28
  else if month == 4 || month == 6 || month == 9 || month == 11 then 30
  else 31

/-- One or two digits, and what follows. -/
def shortNumber? : List Char → Option (Nat × List Char)
  | c :: d :: rest =>
    if !c.isDigit then none
    else if d.isDigit then some ((c.toNat - 48) * 10 + (d.toNat - 48), rest)
    else some (c.toNat - 48, d :: rest)
  | [c] => if c.isDigit then some (c.toNat - 48, []) else none
  | [] => none

def expect? (c : Char) : List Char → Option (List Char)
  | d :: rest => if c == d then some rest else none
  | [] => none

/-- A number with at least two digits. -/
def padTwo (n : Nat) : String := if n < 10 then s!"0{n}" else toString n

/-- The part of a second, without zeros at its end. -/
def fraction? : List Char → Option (String × List Char)
  | c :: rest =>
    if c == '.' || c == ',' then
      let digits := rest.takeWhile Char.isDigit
      if digits.isEmpty then none
      else
        let kept := ((digits.take 9).reverse.dropWhile (· == '0')).reverse
        let text := if kept.isEmpty then "" else "." ++ String.ofList kept
        some (text, rest.dropWhile Char.isDigit)
    else some ("", c :: rest)
  | [] => some ("", [])

/-- The zone of a time: none, `Z`, or hours and minutes with a sign. A whole day and a whole hour are still in
range. -/
def zone? (required : Bool) (cs : List Char) : Option String := do
  match cs with
  | [] => if required then none else return "Z"
  | ['Z'] => if required then return "Z" else none
  | [sign, a, b, ':', c, d] =>
    if !required || !(sign == '+' || sign == '-') then none
    let (hours, _) ← shortNumber? [a, b]
    let (minutes, _) ← shortNumber? [c, d]
    if !([a, b, c, d].all Char.isDigit) || hours > 24 || minutes > 60 then none
    let total := hours * 60 + minutes
    return if total == 0 then "Z" else s!"{sign}{padTwo (total / 60)}:{padTwo (total % 60)}"
  | _ => none

def clock? (cs : List Char) (required : Bool) : Option String := do
  let (hour, cs) ← shortNumber? cs
  let (minute, cs) ← shortNumber? (← expect? ':' cs)
  let (second, cs) ← shortNumber? (← expect? ':' cs)
  let (part, cs) ← fraction? cs
  let zone ← zone? required cs
  if hour < 24 && minute < 60 && second < 60 then
    return s!"{padTwo hour}:{padTwo minute}:{padTwo second}{part}{zone}"
  else none

/-- A date, with or without a time, in its full form. -/
def date? (s : String) : Option String := do
  let cs := s.toList
  let year := cs.takeWhile Char.isDigit
  if year.length != 4 then none
  let number := year.foldl (fun n c => n * 10 + (c.toNat - 48)) 0
  let (month, cs) ← shortNumber? (← expect? '-' (cs.drop 4))
  let (day, cs) ← shortNumber? (← expect? '-' cs)
  if month == 0 || month > 12 || day == 0 || day > daysIn number month then none
  let lead := s!"{String.ofList year}-{padTwo month}-{padTwo day}T"
  match cs with
  | [] => return lead ++ "00:00:00Z"
  | c :: rest =>
    if c == 'T' || c == 't' then return lead ++ (← clock? rest true)
    else if c == ' ' then return lead ++ (← clock? rest false)
    else none

/-! ### Numbers -/

def digitsNat (cs : List Char) : Nat := cs.foldl (fun n c => n * 10 + (c.toNat - 48)) 0

/-- The exponent after `e`. -/
def exponent? : List Char → Option Int
  | [] => some 0
  | c :: rest =>
    if c == 'e' || c == 'E' then
      let (negative, digits) := Text.takeSign rest
      if digits.isEmpty || !digits.all Char.isDigit then none
      else some (if negative then -(digitsNat digits : Int) else digitsNat digits)
    else none

/-- A decimal number in double precision. One that is too large is none. -/
def float? (cs : List Char) : Option Double := do
  let (negative, cs) := Text.takeSign cs
  let whole := cs.takeWhile Char.isDigit
  let (part, rest) := match cs.dropWhile Char.isDigit with
    | '.' :: rest => (rest.takeWhile Char.isDigit, rest.dropWhile Char.isDigit)
    | rest => ([], rest)
  if whole.isEmpty && part.isEmpty then none
  let power ← exponent? rest
  let value := Double.ofDecimal negative (digitsNat (whole ++ part)) (power - part.length)
  if value.isInfinite then none else return value

/-- An integer; it may also take all of 64 bits without a sign. After `0b` and `0o` a sign can follow. -/
def integer? (cs : List Char) : Option Int :=
  match Text.readInteger (String.ofList cs) with
  | .ok n => some n
  | .error _ =>
    let (base, digits, hasLead) := Text.takeBase cs
    let (negative, magnitude) := Text.takeSign digits
    let value := if digits.isEmpty || magnitude.isEmpty then none else (Text.digitsValue base 0 magnitude).toOption
    if magnitude.length == digits.length then value.map Int.ofNat
    else match cs with
      | '0' :: c :: _ =>
        if hasLead && (c == 'b' || c == 'o') then
          value.bind fun n => (Text.signed negative n).toOption
        else none
      | _ => none

/-- Whether every underscore stands between two digits. -/
def underscoresApart : Bool → List Char → Bool
  | _, [] => true
  | afterDigit, '_' :: rest => afterDigit && rest.head?.any Char.isDigit && underscoresApart false rest
  | _, c :: rest => underscoresApart c.isDigit rest

/-! ### Resolution -/

def trueWords : List String := ["true", "True", "TRUE"]

def falseWords : List String := ["false", "False", "FALSE"]

/-- The words for numbers that are not finite. -/
def floatWords : List (String × Double) :=
  [(".nan", .undefined), (".NaN", .undefined), (".NAN", .undefined),
   (".inf", .infinite false), (".Inf", .infinite false), (".INF", .infinite false),
   ("+.inf", .infinite false), ("+.Inf", .infinite false), ("+.INF", .infinite false),
   ("-.inf", .infinite true), ("-.Inf", .infinite true), ("-.INF", .infinite true)]

/-- A scalar that starts like a number. Underscores do not count. -/
def numberOrText (s : String) : Value :=
  let plain := s.toList.filter (· != '_')
  match integer? plain with
  | some n => .int n
  | none =>
    match float? plain with
    | some x => .float x
    | none => .text s

/-- A scalar that starts with a point. Underscores may stand between digits. -/
def fractionOrText (s : String) : Value :=
  let cs := s.toList
  match if underscoresApart false cs then float? (cs.filter (· != '_')) else none with
  | some x => .float x
  | none => .text s

/-- What a plain scalar is read as. -/
def Value.ofPlain (s : String) : Value :=
  if Node.nullWords.contains s then .null
  else if trueWords.contains s then .bool true
  else if falseWords.contains s then .bool false
  else match floatWords.lookup s with
    | some x => .float x
    | none =>
      match s.toList with
      | c :: _ =>
        if c.isDigit || c == '+' || c == '-' then
          match date? s with
          | some full => .date full
          | none => numberOrText s
        else if c == '.' then fractionOrText s
        else .text s
      | [] => .text s

/-- A key as it is shown. An integer is shown in decimal, whatever its base was. -/
def Value.keyText (name : String) (plain : Bool) : String :=
  match if plain then Value.ofPlain name else .text name with
  | .null => "<nil>"
  | .bool b => if b then "true" else "false"
  | .int n => toString n
  | _ => name

mutual

/-- The value of a node. A key may not be repeated, and has to be a scalar. -/
def Value.ofNode : Node → Except DecodeFault Value
  | .scalar value plain => .ok (if plain then .ofPlain value else .text value)
  | .list items => return .list (← Value.ofItems items)
  | .map entries =>
    if Node.hasRepeatedKey entries then .error .repeatedKey
    else return .map (← Value.ofEntries entries)

def Value.ofItems : List Node → Except DecodeFault (List Value)
  | [] => .ok []
  | item :: rest => return (← Value.ofNode item) :: (← Value.ofItems rest)

def Value.ofEntries : List (Node × Node) → Except DecodeFault (List (String × Value))
  | [] => .ok []
  | entry :: rest => return (← Value.ofEntry entry) :: (← Value.ofEntries rest)

def Value.ofEntry : Node × Node → Except DecodeFault (String × Value)
  | (key, value) => do
    let name ← match key with
      | .scalar name plain => pure (Value.keyText name plain)
      | _ => throw .wrongType
    return (name, ← Value.ofNode value)

end

/-- A truth value. Besides the words of the language it can be written as an answer or a switch. -/
def Node.readFlag : Node → Except DecodeFault Bool
  | .scalar value plain =>
    if plain && nullWords.contains value then .ok false
    else if plain && trueWords.contains value then .ok true
    else if plain && falseWords.contains value then .ok false
    else if ["y", "Y", "yes", "on"].contains value then .ok true
    else if ["n", "N", "no", "off"].contains value then .ok false
    else .error .wrongType
  | _ => .error .wrongType

end ColumnFlow.Yaml
