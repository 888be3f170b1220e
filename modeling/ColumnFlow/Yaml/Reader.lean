import ColumnFlow.Yaml.Node
import ColumnFlow.Yaml.Token

/-!
# Documents

`document?` reads the first document of a text, or fails if the text is not well formed. What follows a
complete document is not read, except for the two tokens that are cut ahead.
-/

namespace ColumnFlow.Yaml

/-- The tokens that are left, and the nodes that have been named. -/
structure TokenQueue where
  tokens : List Token
  /-- Whether the text ends after the tokens. Otherwise a fault follows them. -/
  isWhole : Bool
  anchors : List (String × Node) := []

abbrev Read := StateT TokenQueue Option

namespace Read

/-- The next token. Two more are cut with it. -/
def peek : Read Token := do
  let queue ← get
  if !queue.isWhole && (queue.tokens.drop 2).isEmpty then failure
  return queue.tokens.head?.getD .streamEnd

def skip : Read Unit := modify fun queue => { queue with tokens := queue.tokens.tail }

/-- Read a token if it is the next. -/
def accept (token : Token) : Read Bool := do
  let found := (← peek) == token
  if found then skip
  return found

def acceptAnchor : Read (Option String) := do
  match ← peek with
  | .anchor name => skip; return some name
  | _ => return none

def acceptTag : Read (Option String) := do
  match ← peek with
  | .tag name => skip; return some name
  | _ => return none

/-- The anchor and the tag of a node, in either order. -/
def properties : Read (Option String × Option String) := do
  match ← acceptAnchor with
  | some anchor => return (some anchor, ← acceptTag)
  | none =>
    match ← acceptTag with
    | some tag => return (← acceptAnchor, some tag)
    | none => return (none, none)

/-- What a tag says a node is. -/
inductive TagKind where
  /-- What it looks like. -/
  | asWritten
  | text
  /-- A kind of the user's own. -/
  | custom

/-- The kinds of scalars that have a tag. -/
def scalarKinds : List String := ["int", "float", "bool", "null", "timestamp"]

def standardKind (name : String) : TagKind :=
  if name == "str" then .text else if scalarKinds.contains name then .asWritten else .custom

/-- What a tag stands for. Short names for groups of tags are not known, but for the standard one. -/
def tagKind? (tag : String) : Option TagKind :=
  match tag.toList with
  | ['!'] => some .asWritten
  | '!' :: '!' :: name => if name.isEmpty then none else some (standardKind (String.ofList name))
  | '!' :: '<' :: name =>
    if name.getLast? == some '>' then
      let uri := String.ofList name.dropLast
      let standard := "tag:yaml.org,2002:"
      some (if uri.startsWith standard then standardKind (uri.drop standard.length).toString else .custom)
    else none
  | _ :: name => if name.contains '!' then none else some .custom
  | [] => none

/-- A node under a tag: that of a text makes a scalar a text, whatever it looks like. -/
def tagged? (tag : String) (node : Node) : Option Node := do
  match ← tagKind? tag, node with
  | .text, .scalar value _ => return .scalar value false
  | .asWritten, .scalar value plain => return .scalar value (plain || tag != "!")
  | .custom, .scalar _ _ => none
  | _, node => return node

/-- A value that may be left out before certain tokens. -/
def orEmpty (stops : List Token) (node : Read Node) : Read Node := do
  if stops.contains (← peek) then return .empty else node

mutual

/-- A node. A list or map that is told by its indentation can stand only `inBlock`, and dashes in the column
of the map around them only where `dashes` says so. -/
def node : Nat → Bool → Bool → Read Node
  | 0, _, _ => failure
  | n + 1, inBlock, dashes => do
    match ← peek with
    | .reference name =>
      skip
      match (← get).anchors.lookup name with
      | some node => return node
      | none => failure
    | _ =>
      let (anchor, tag) ← properties
      let node ← match ← peek with
        | .scalar value plain => skip; pure (.scalar value plain)
        | .flowListStart => skip; .list <$> flowItems n true
        | .flowMapStart => skip; liftM (Node.ofEntries? (← flowEntries n true))
        | token =>
          if token == .dash && dashes then .list <$> dashItems n
          else if token == .listStart && inBlock then skip; .list <$> blockItems n
          else if token == .mapStart && inBlock then skip; liftM (Node.ofEntries? (← blockEntries n))
          else if anchor.isSome || tag.isSome then pure .empty
          else failure
      let node ← match tag with
        | some tag => liftM (tagged? tag node)
        | none => pure node
      match anchor with
      | some name => modify fun queue => { queue with anchors := (name, node) :: queue.anchors }
      | none => pure ()
      return node

/-- The items of a list with a column of its own. -/
def blockItems : Nat → Read (List Node)
  | 0 => failure
  | n + 1 => do
    if ← accept .blockEnd then return []
    else if ← accept .dash then
      let item ← orEmpty [.dash, .blockEnd] (node n true false)
      return item :: (← blockItems n)
    else failure

/-- The items of a list whose dashes stand in the column of the map around it. -/
def dashItems : Nat → Read (List Node)
  | 0 => failure
  | n + 1 => do
    if ← accept .dash then
      let item ← orEmpty [.dash, .key, .value, .blockEnd] (node n true false)
      return item :: (← dashItems n)
    else return []

def blockEntries : Nat → Read (List (Node × Node))
  | 0 => failure
  | n + 1 => do
    if ← accept .blockEnd then return []
    else if ← accept .key then
      let stops := [.key, .value, .blockEnd]
      let key ← orEmpty stops (node n true true)
      let value ← if ← accept .value then orEmpty stops (node n true true) else pure .empty
      return (key, value) :: (← blockEntries n)
    else failure

/-- The items of a list in brackets. An item with a colon is a map with one entry. -/
def flowItems : Nat → Bool → Read (List Node)
  | 0, _ => failure
  | n + 1, isFirst => do
    if ← accept .flowListEnd then return []
    else if isFirst || (← accept .comma) then
      if ← accept .flowListEnd then return []
      else if ← accept .key then
        let key ← if (← accept .value) || (← accept .comma) || (← accept .flowListEnd) then pure .empty
          else node n false false
        let value ← if ← accept .value then orEmpty [.comma, .flowListEnd] (node n false false) else pure .empty
        return (← liftM (Node.ofEntries? [(key, value)])) :: (← flowItems n false)
      else
        let item ← node n false false
        return item :: (← flowItems n false)
    else failure

/-- The entries of a map in brackets. -/
def flowEntries : Nat → Bool → Read (List (Node × Node))
  | 0, _ => failure
  | n + 1, isFirst => do
    if ← accept .flowMapEnd then return []
    else if isFirst || (← accept .comma) then
      if ← accept .flowMapEnd then return []
      else if ← accept .key then
        let key ← orEmpty [.value, .comma, .flowMapEnd] (node n false false)
        let value ← if ← accept .value then orEmpty [.comma, .flowMapEnd] (node n false false) else pure .empty
        return (key, value) :: (← flowEntries n false)
      else
        let key ← node n false false
        return (key, .empty) :: (← flowEntries n false)
    else failure

end

/-- The first document: its root. The token after it has to be readable, too. -/
def document : Read Node := do
  let fuel := 2 * (← get).tokens.length + 2
  if (← peek) == .streamEnd then return .empty
  let root ← if ← accept .documentStart then
      orEmpty [.documentStart, .documentEnd, .streamEnd] (node fuel true false)
    else node fuel true false
  let _ ← peek
  return root

end Read

/-- Characters that may stand in a document. -/
def isAllowed (c : Char) : Bool :=
  let n := c.toNat
  n == 9 || n == 10 || n == 13 || (0x20 ≤ n && n ≤ 0x7E) || n == 0x85 || (0xA0 ≤ n && n ≤ 0xFFFD) || 0x10000 ≤ n

/-- Line ends as line feeds. Separators of lines and paragraphs stay. -/
def unifyLineEnds : List Char → List Char
  | '\r' :: '\n' :: rest => '\n' :: unifyLineEnds rest
  | c :: rest => (if c == '\r' || c == '\u0085' then '\n' else c) :: unifyLineEnds rest
  | [] => []

/-- The first document of a text. An empty text holds nothing. -/
def document? (text : String) : Option Node :=
  let cs := match text.toList with
    | '\ufeff' :: rest => rest
    | cs => cs
  if cs.all isAllowed then
    let (tokens, isWhole) := Scanner.run (cs.length + 2) { cursor := { rest := unifyLineEnds cs } }
    (Read.document.run { tokens, isWhole }).map (·.1)
  else none

end ColumnFlow.Yaml
