import ColumnFlow.Yaml.Node

/-!
# Reading values of a document

Readers for the shapes that files of this tool have. Where a value is expected, nothing stands for the empty
value of the kind; as an item of a list, or as a key, nothing is passed over.
-/

namespace ColumnFlow.Yaml

inductive DecodeFault where
  | wrongType
  | repeatedKey
  | unknownField (name : String)
  deriving DecidableEq, Repr

namespace Node

/-- A text. Every scalar is one. -/
def readText : Node → Except DecodeFault String
  | .scalar value plain => .ok (if plain && nullWords.contains value then "" else value)
  | _ => .error .wrongType

/-- A list of texts. -/
def readTexts : Node → Except DecodeFault (List String)
  | .list items => (items.filter (!·.isNull)).mapM readText
  | node => if node.isNull then .ok [] else .error .wrongType

/-- The entries of a map by their keys. -/
def readEntries : Node → Except DecodeFault (List (String × Node))
  | .map entries =>
    if hasRepeatedKey entries then .error .repeatedKey
    else (entries.filter (!·.1.isNull)).mapM fun (key, value) => return (← key.readText, value)
  | node => if node.isNull then .ok [] else .error .wrongType

end Node

end ColumnFlow.Yaml
