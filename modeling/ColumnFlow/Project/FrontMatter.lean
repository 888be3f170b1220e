import ColumnFlow.Text.Quoted
import ColumnFlow.Yaml.Reader
import ColumnFlow.Yaml.Value

/-!
# Front matter

A definition file may start with a comment that holds a document: `/*---` on a line of its own, the fields, and
`---*/`. The comment stays part of the code, so that lines are counted as in the file.
-/

namespace ColumnFlow

/-- What a file says about its definition. -/
structure FrontMatter where
  name : String := ""
  description : String := ""
  owner : String := ""
  defaultSchema : String := ""
  tags : List String := []
  /-- Leave the definition out. -/
  skip : Bool := false
  /-- Fields of the user's own. -/
  custom : Option (List (String × Yaml.Value)) := none

inductive FrontMatterFault where
  /-- The document is not well formed, or a field holds the wrong kind of value. -/
  | unreadable
  | unknownField (name : String)
  deriving DecidableEq, Repr

def FrontMatterFault.message : FrontMatterFault → String
  | .unreadable => "invalid YAML"
  | .unknownField name =>
    s!"unknown field {Text.quoted name} in frontmatter, use \"meta\" field for custom fields"

namespace FrontMatter

/-! ### The comment -/

/-- A comment with front matter at the start of a text. -/
structure Block where
  /-- All up to the end of the comment. -/
  header : List Char
  /-- The document between the marks. -/
  document : List Char
  /-- What follows the comment. -/
  rest : List Char
  deriving DecidableEq, Repr

def openMark : List Char := ['/', '*', '-', '-', '-']

def closeMark : List Char := ['-', '-', '-', '*', '/']

def isSpace (c : Char) : Bool := c == ' ' || c == '\t' || c == '\n' || c == '\x0c' || c == '\r'

/-- What stands before and after the first place where `mark` is found. -/
def cutAt (mark : List Char) : List Char → Option (List Char × List Char)
  | [] => none
  | c :: rest =>
    if mark.isPrefixOf (c :: rest) then some ([], (c :: rest).drop mark.length)
    else (cutAt mark rest).map fun (before, after) => (c :: before, after)

/-- What follows the last line feed of the blanks at the start of a text, if there is one. -/
def afterLineBreak (cs : List Char) : Option (List Char) :=
  let blanks := cs.takeWhile isSpace
  if blanks.contains '\n' then
    some (cs.drop (blanks.length - (blanks.reverse.takeWhile (· != '\n')).length))
  else none

def trimSpaceEnd (cs : List Char) : List Char := (cs.reverse.dropWhile isSpace).reverse

/-- The block at the start of a text. Only blanks may stand before it. -/
def Block.find? (text : List Char) : Option Block := do
  let start := text.dropWhile isSpace
  if openMark.isPrefixOf start then
    let body ← afterLineBreak (start.drop openMark.length)
    let (inner, rest) ← cutAt closeMark body
    return { header := text.take (text.length - rest.length), document := trimSpaceEnd inner, rest }
  else none

/-! ### The fields -/

/-- The fields of the user's own; any kind of value is accepted there. -/
def readCustom (node : Yaml.Node) : Except Yaml.DecodeFault (Option (List (String × Yaml.Value))) := do
  if node.isNull then return none
  let entries ← node.readEntries
  return some (← entries.mapM fun (name, value) => return (name, ← Yaml.Value.ofNode value))

def fieldNames : List String := ["name", "description", "owner", "default_schema", "tags", "skip", "meta"]

/-- Add one field. -/
def readField (f : FrontMatter) (name : String) (value : Yaml.Node) : Except Yaml.DecodeFault FrontMatter := do
  match name with
  | "name" => return { f with name := ← value.readText }
  | "description" => return { f with description := ← value.readText }
  | "owner" => return { f with owner := ← value.readText }
  | "default_schema" => return { f with defaultSchema := ← value.readText }
  | "tags" => return { f with tags := ← value.readTexts }
  | "skip" => return { f with skip := ← value.readFlag }
  | "meta" => return { f with custom := ← readCustom value }
  | _ => throw (.unknownField name)

/-- Read a document. It has to be well formed as a whole before its fields are looked at, and an unknown field
is reported before a value of the wrong kind. -/
def ofDocument (text : String) : Except FrontMatterFault FrontMatter := do
  let some root := Yaml.document? text | throw .unreadable
  let .ok _ := Yaml.Value.ofNode root | throw .unreadable
  let .ok entries := root.readEntries | throw .unreadable
  match entries.find? fun (name, _) => !fieldNames.contains name with
  | some (name, _) => throw (.unknownField name)
  | none =>
    match entries.foldlM (fun f (name, value) => readField f name value) {} with
    | .ok f => return f
    | .error _ => throw .unreadable

/-- The front matter of a text, if it has a block. -/
def ofText? (text : String) : Except FrontMatterFault (Option FrontMatter) := do
  match Block.find? text.toList with
  | none => return none
  | some block => return some (← ofDocument (String.ofList block.document))

end FrontMatter

end ColumnFlow
