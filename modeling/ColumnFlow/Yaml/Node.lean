import ColumnFlow.Text.Case

/-!
# Values of a document

A document holds scalars, lists and maps. What a plain scalar means depends on what is asked of it: the same
word can be read as a text, a number, a truth value or nothing at all. A quoted scalar is always a text.
-/

namespace ColumnFlow.Yaml

inductive Node where
  /-- `plain` is set for a scalar without quotes. -/
  | scalar (value : String) (plain : Bool)
  | list (items : List Node)
  | map (entries : List (Node × Node))
  deriving Inhabited

namespace Node

/-- What stands where nothing is written. -/
def empty : Node := .scalar "" true

/-- Words that stand for nothing. -/
def nullWords : List String := ["", "~", "null", "Null", "NULL"]

def isNull : Node → Bool
  | .scalar value true => nullWords.contains value
  | _ => false

/-! ### Keys -/

/-- Whether two keys are written alike. Keys that are no scalars count as alike when they are of one shape. -/
def sameKey : Node → Node → Bool
  | .scalar a _, .scalar b _ => a == b
  | .list _, .list _ => true
  | .map _, .map _ => true
  | _, _ => false

def hasRepeatedKey : List (Node × Node) → Bool
  | [] => false
  | (key, _) :: rest => rest.any (fun entry => sameKey key entry.1) || hasRepeatedKey rest

/-! ### Merging -/

/-- The key under which the entries of other maps are taken over. -/
def isMergeKey : Node → Bool
  | .scalar value plain => plain && value == "<<"
  | _ => false

def entries? : Node → Option (List (Node × Node))
  | .map entries => if hasRepeatedKey entries then none else some entries
  | _ => none

/-- Take over the entries of a map whose keys are not there yet. -/
def takeOver (own other : List (Node × Node)) : List (Node × Node) :=
  own ++ other.filter fun entry => !own.any fun o => sameKey o.1 entry.1

/-- The map with these entries, and with those of the map or maps that its merge key names. An entry of its own
comes first, then one of an earlier map. -/
def ofEntries? (entries : List (Node × Node)) : Option Node :=
  match entries.filter (·.1.isMergeKey) with
  | [] => some (.map entries)
  | [(_, source)] => do
    let sources ← match source with
      | .list items => items.mapM entries?
      | node => node.entries?.map ([·])
    return .map (sources.foldl takeOver (entries.filter (!·.1.isMergeKey)))
  | _ => none

end Node

end ColumnFlow.Yaml
