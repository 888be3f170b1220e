import ColumnFlow.Text.Case

/-!
# Token kinds

Reserved words and symbols have a kind of their own. Words with a meaning in some places only (MATCHED, OUTPUT,
TRY, ...) are plain identifiers, and the grammar recognises them by their spelling.
-/

namespace ColumnFlow

/-- The symbols, plain ones first and compound assignments last. -/
inductive Symbol where
  | plus | minus | star | slash | percent | amp | pipe | caret | tilde | eq | ne | lt | gt | le
  | ge | dot | comma | semicolon | colon | lparen | rparen | plusEq | minusEq | starEq | slashEq
  | percentEq | ampEq | pipeEq | caretEq
  deriving DecidableEq, Repr, Inhabited

namespace Symbol

def all : List Symbol := [
  .plus, .minus, .star, .slash, .percent, .amp, .pipe, .caret, .tilde, .eq, .ne, .lt, .gt, .le,
  .ge, .dot, .comma, .semicolon, .colon, .lparen, .rparen, .plusEq, .minusEq, .starEq, .slashEq,
  .percentEq, .ampEq, .pipeEq, .caretEq]

def text : Symbol → String
  | .plus => "+"
  | .minus => "-"
  | .star => "*"
  | .slash => "/"
  | .percent => "%"
  | .amp => "&"
  | .pipe => "|"
  | .caret => "^"
  | .tilde => "~"
  | .eq => "="
  | .ne => "<>"
  | .lt => "<"
  | .gt => ">"
  | .le => "<="
  | .ge => ">="
  | .dot => "."
  | .comma => ","
  | .semicolon => ";"
  | .colon => ":"
  | .lparen => "("
  | .rparen => ")"
  | .plusEq => "+="
  | .minusEq => "-="
  | .starEq => "*="
  | .slashEq => "/="
  | .percentEq => "%="
  | .ampEq => "&="
  | .pipeEq => "|="
  | .caretEq => "^="

def isCompoundAssign : Symbol → Bool
  | .plusEq | .minusEq | .starEq | .slashEq | .percentEq | .ampEq | .pipeEq | .caretEq => true
  | _ => false

end Symbol

/-- The reserved words, in alphabetical order. -/
inductive Keyword where
  | ALL | ALTER | AND | AS | ASC | BEGIN | BETWEEN | BREAK | BY | CASE | CAST | CLOSE | COLLATE
  | COMMIT | CONTINUE | CREATE | CROSS | CURSOR | DEALLOCATE | DECLARE | DEFAULT | DELETE | DESC
  | DISTINCT | DROP | ELSE | END | EXCEPT | EXEC | EXISTS | FETCH | FOR | FROM | FULL | FUNCTION
  | GOTO | GRANT | GROUP | HAVING | IF | IN | INNER | INSERT | INTERSECT | INTO | IS | JOIN | LEFT
  | LIKE | MERGE | NOT | NULL | ON | OPEN | OPENDATASOURCE | OPENQUERY | OPENROWSET | OPTION | OR
  | ORDER | OUTER | OVER | PARTITION | PRINT | PROC | RAISERROR | RETURN | REVOKE | RIGHT
  | ROLLBACK | SAVE | SELECT | SET | TABLE | THEN | TOP | TRAN | TRIGGER | TRUNCATE | UNION
  | UPDATE | USE | VALUES | VIEW | WHEN | WHERE | WHILE | WITH
  deriving DecidableEq, Repr, Inhabited

namespace Keyword

def all : List Keyword := [
  .ALL, .ALTER, .AND, .AS, .ASC, .BEGIN, .BETWEEN, .BREAK, .BY, .CASE, .CAST, .CLOSE, .COLLATE,
  .COMMIT, .CONTINUE, .CREATE, .CROSS, .CURSOR, .DEALLOCATE, .DECLARE, .DEFAULT, .DELETE, .DESC,
  .DISTINCT, .DROP, .ELSE, .END, .EXCEPT, .EXEC, .EXISTS, .FETCH, .FOR, .FROM, .FULL, .FUNCTION,
  .GOTO, .GRANT, .GROUP, .HAVING, .IF, .IN, .INNER, .INSERT, .INTERSECT, .INTO, .IS, .JOIN, .LEFT,
  .LIKE, .MERGE, .NOT, .NULL, .ON, .OPEN, .OPENDATASOURCE, .OPENQUERY, .OPENROWSET, .OPTION, .OR,
  .ORDER, .OUTER, .OVER, .PARTITION, .PRINT, .PROC, .RAISERROR, .RETURN, .REVOKE, .RIGHT,
  .ROLLBACK, .SAVE, .SELECT, .SET, .TABLE, .THEN, .TOP, .TRAN, .TRIGGER, .TRUNCATE, .UNION,
  .UPDATE, .USE, .VALUES, .VIEW, .WHEN, .WHERE, .WHILE, .WITH]

def text : Keyword → String
  | .ALL => "ALL"
  | .ALTER => "ALTER"
  | .AND => "AND"
  | .AS => "AS"
  | .ASC => "ASC"
  | .BEGIN => "BEGIN"
  | .BETWEEN => "BETWEEN"
  | .BREAK => "BREAK"
  | .BY => "BY"
  | .CASE => "CASE"
  | .CAST => "CAST"
  | .CLOSE => "CLOSE"
  | .COLLATE => "COLLATE"
  | .COMMIT => "COMMIT"
  | .CONTINUE => "CONTINUE"
  | .CREATE => "CREATE"
  | .CROSS => "CROSS"
  | .CURSOR => "CURSOR"
  | .DEALLOCATE => "DEALLOCATE"
  | .DECLARE => "DECLARE"
  | .DEFAULT => "DEFAULT"
  | .DELETE => "DELETE"
  | .DESC => "DESC"
  | .DISTINCT => "DISTINCT"
  | .DROP => "DROP"
  | .ELSE => "ELSE"
  | .END => "END"
  | .EXCEPT => "EXCEPT"
  | .EXEC => "EXEC"
  | .EXISTS => "EXISTS"
  | .FETCH => "FETCH"
  | .FOR => "FOR"
  | .FROM => "FROM"
  | .FULL => "FULL"
  | .FUNCTION => "FUNCTION"
  | .GOTO => "GOTO"
  | .GRANT => "GRANT"
  | .GROUP => "GROUP"
  | .HAVING => "HAVING"
  | .IF => "IF"
  | .IN => "IN"
  | .INNER => "INNER"
  | .INSERT => "INSERT"
  | .INTERSECT => "INTERSECT"
  | .INTO => "INTO"
  | .IS => "IS"
  | .JOIN => "JOIN"
  | .LEFT => "LEFT"
  | .LIKE => "LIKE"
  | .MERGE => "MERGE"
  | .NOT => "NOT"
  | .NULL => "NULL"
  | .ON => "ON"
  | .OPEN => "OPEN"
  | .OPENDATASOURCE => "OPENDATASOURCE"
  | .OPENQUERY => "OPENQUERY"
  | .OPENROWSET => "OPENROWSET"
  | .OPTION => "OPTION"
  | .OR => "OR"
  | .ORDER => "ORDER"
  | .OUTER => "OUTER"
  | .OVER => "OVER"
  | .PARTITION => "PARTITION"
  | .PRINT => "PRINT"
  | .PROC => "PROC"
  | .RAISERROR => "RAISERROR"
  | .RETURN => "RETURN"
  | .REVOKE => "REVOKE"
  | .RIGHT => "RIGHT"
  | .ROLLBACK => "ROLLBACK"
  | .SAVE => "SAVE"
  | .SELECT => "SELECT"
  | .SET => "SET"
  | .TABLE => "TABLE"
  | .THEN => "THEN"
  | .TOP => "TOP"
  | .TRAN => "TRAN"
  | .TRIGGER => "TRIGGER"
  | .TRUNCATE => "TRUNCATE"
  | .UNION => "UNION"
  | .UPDATE => "UPDATE"
  | .USE => "USE"
  | .VALUES => "VALUES"
  | .VIEW => "VIEW"
  | .WHEN => "WHEN"
  | .WHERE => "WHERE"
  | .WHILE => "WHILE"
  | .WITH => "WITH"

/-- Other spellings of a reserved word. -/
def synonyms : List (String × Keyword) :=
  [("execute", .EXEC), ("procedure", .PROC), ("transaction", .TRAN)]

/-- The spellings of all reserved words in lower case. -/
def spellings : List (String × Keyword) :=
  all.map (fun k => (Text.lower k.text, k)) ++ synonyms

end Keyword

inductive TokenKind where
  | eof
  | illegal
  /-- The batch separator `GO` on a line of its own. -/
  | separator
  | ident
  | variableName
  | number
  | string
  | symbol (s : Symbol)
  | keyword (k : Keyword)
  deriving DecidableEq, Repr, Inhabited

instance : Coe Symbol TokenKind := ⟨.symbol⟩

instance : Coe Keyword TokenKind := ⟨.keyword⟩

namespace TokenKind

/-- All kinds; the place of a kind in this list is its number. -/
def all : List TokenKind :=
  [.eof, .illegal, .separator, .ident, .variableName, .number, .string]
    ++ Symbol.all.map .symbol ++ Keyword.all.map .keyword

def text : TokenKind → String
  | .eof => "EOF"
  | .illegal => "ILLEGAL"
  | .separator => "GO"
  | .ident => "IDENT"
  | .variableName => "VARIABLE"
  | .number => "NUMBER"
  | .string => "STRING"
  | .symbol s => s.text
  | .keyword k => k.text

def isKeyword : TokenKind → Bool
  | .keyword _ => true
  | _ => false

def isOperator : TokenKind → Bool
  | .symbol _ => true
  | _ => false

def isCompoundAssign : TokenKind → Bool
  | .symbol s => s.isCompoundAssign
  | _ => false

/-- The kind with a number, if there is one. -/
def ofNumber? (n : Int) : Option TokenKind := if n < 0 then none else all[n.toNat]?

/-- The name under which a number is reported. -/
def numberText (n : Int) : String :=
  match ofNumber? n with
  | some kind => kind.text
  | none => s!"TOKEN({n})"

/-- The kind of a word given in lower case. -/
def ofWord (word : String) : TokenKind :=
  match Keyword.spellings.lookup word with
  | some k => .keyword k
  | none => .ident

end TokenKind

end ColumnFlow
