/-!
# JSON

Values in the order in which they are written, and their text with two blanks of indentation per level. The
text can stand inside a page: the characters that would end a tag or a line of script are written as escapes.
-/

namespace ColumnFlow

inductive JsonValue where
  | null
  | bool (value : Bool)
  | int (value : Int)
  | text (value : String)
  | list (items : List JsonValue)
  | record (fields : List (String × JsonValue))

namespace JsonValue

def ofNat (n : Nat) : JsonValue := .int n

def texts (values : List String) : JsonValue := .list (values.map .text)

/-- A field that is left out when its text is empty. -/
def textField (name value : String) : List (String × JsonValue) :=
  if value == "" then [] else [(name, .text value)]

/-- A field that is left out when it is false. -/
def flagField (name : String) (value : Bool) : List (String × JsonValue) :=
  if value then [(name, .bool true)] else []

/-- A field that is left out when the list is empty. -/
def listField (name : String) (items : List JsonValue) : List (String × JsonValue) :=
  if items.isEmpty then [] else [(name, .list items)]

/-! ### Text -/

def hexDigit (n : Nat) : Char := if n < 10 then Char.ofNat (48 + n) else Char.ofNat (87 + n)

/-- `\u` and four digits. -/
def unicodeEscape (n : Nat) : List Char :=
  ['\\', 'u', hexDigit (n / 4096 % 16), hexDigit (n / 256 % 16), hexDigit (n / 16 % 16), hexDigit (n % 16)]

def escapeChar (c : Char) : List Char :=
  match c with
  | '"' => ['\\', '"']
  | '\\' => ['\\', '\\']
  | '\n' => ['\\', 'n']
  | '\r' => ['\\', 'r']
  | '\t' => ['\\', 't']
  | '\x08' => ['\\', 'b']
  | '\x0c' => ['\\', 'f']
  | '<' | '>' | '&' => unicodeEscape c.toNat
  | _ => if c.toNat < 0x20 || c.toNat == 0x2028 || c.toNat == 0x2029 then unicodeEscape c.toNat else [c]

def quotedText (s : String) : String := String.ofList ('"' :: s.toList.flatMap escapeChar ++ ['"'])

/-- A new line at a level of indentation. -/
def lineBreak (level : Nat) : String := "\n" ++ String.ofList (List.replicate (2 * level) ' ')

mutual

/-- The text of a value that starts at a level of indentation. -/
def renderAt (level : Nat) : JsonValue → String
  | .null => "null"
  | .bool value => if value then "true" else "false"
  | .int value => toString value
  | .text value => quotedText value
  | .list [] => "[]"
  | .list (item :: rest) =>
    "[" ++ lineBreak (level + 1) ++ renderAt (level + 1) item ++ renderItems (level + 1) rest
      ++ lineBreak level ++ "]"
  | .record [] => "\x7b\x7d"
  | .record ((name, value) :: rest) =>
    "\x7b" ++ lineBreak (level + 1) ++ quotedText name ++ ": " ++ renderAt (level + 1) value
      ++ renderFields (level + 1) rest ++ lineBreak level ++ "\x7d"

def renderItems (level : Nat) : List JsonValue → String
  | [] => ""
  | item :: rest => "," ++ lineBreak level ++ renderAt level item ++ renderItems level rest

def renderFields (level : Nat) : List (String × JsonValue) → String
  | [] => ""
  | (name, value) :: rest =>
    "," ++ lineBreak level ++ quotedText name ++ ": " ++ renderAt level value ++ renderFields level rest

end

/-- The text of a document, which ends with a line feed. -/
def render (value : JsonValue) : String := renderAt 0 value ++ "\n"

end JsonValue

end ColumnFlow
