import ColumnFlow.Command.Flag
import ColumnFlow.Settings.Load

/-!
# Command lines

Which command is meant, with which flags and arguments. The command is the first argument that is no flag and
no value of a flag; flags may stand before it.
-/

namespace ColumnFlow

inductive CommandName where
  | version | analyze | risk | watch | doctor | trace | patterns | init | completion | help
  deriving DecidableEq, Repr, Inhabited

/-- How many arguments a command takes. -/
inductive Arity where
  | any
  | exactly (count : Nat)
  | atLeast (count : Nat)
  | atMost (count : Nat)
  deriving DecidableEq, Repr

/-- The name of the program. -/
def programName : String := "sqllineage"

/-! ### The commands -/

/-- Flags that every command has. -/
def globalFlags : List Flag :=
  [{ name := "config", kind := .text, summary := "config file (default: ./sqllineage.yaml)" },
   { name := "project-dir", kind := .text, summary := "Project root directory" },
   { name := "schema", kind := .text, summary := "Default schema for unqualified table names (default dbo)" },
   { name := "schema-file", kind := .text, summary := "YAML file with table columns, used to expand SELECT *" },
   { name := "workers", kind := .number, summary := "Number of definitions analyzed in parallel" },
   { name := "ext", kind := .list, summary := "File extensions treated as definitions (default .sql)" },
   { name := "exclude", kind := .list, summary := "Glob patterns of files and directories to skip" },
   { name := "fail-on-risk", kind := .text
     summary := "Lowest risk that fails the risk command (low|medium|high|critical|none)" },
   { name := "verbose", letter := some 'v', kind := .switch, summary := "Verbose output" },
   { name := "log-level", kind := .text, summary := "Log level (debug|info|warn|error)" },
   { name := "output", letter := some 'o', kind := .text
     summary := "Output format (auto|text|markdown|json)" }]

def helpFlag : Flag := { name := "help", letter := some 'h', kind := .switch, summary := "Show help" }

def versionFlag : Flag := { name := "version", kind := .switch, summary := "Show the version" }

namespace CommandName

/-- The commands in the order in which they are listed. -/
def all : List CommandName :=
  [.version, .analyze, .risk, .watch, .doctor, .trace, .patterns, .init, .completion, .help]

def text : CommandName → String
  | .version => "version"
  | .analyze => "analyze"
  | .risk => "risk"
  | .watch => "watch"
  | .doctor => "doctor"
  | .trace => "trace"
  | .patterns => "patterns"
  | .init => "init"
  | .completion => "completion"
  | .help => "help"

def ofText? (s : String) : Option CommandName := all.find? (·.text == s)

def summary : CommandName → String
  | .version => "Show version information"
  | .analyze => "Extract column lineage from T-SQL definitions"
  | .risk => "Report dynamic SQL in T-SQL definitions"
  | .watch => "Re-analyze definitions when files change"
  | .doctor => "Check how much lineage can be extracted from a project"
  | .trace => "Follow a column through every definition in the project"
  | .patterns => "List the dynamic SQL patterns that are reported"
  | .init => "Initialize a new sqllineage project"
  | .completion => "Generate shell completion scripts"
  | .help => "Help about any command"

/-- The flags of a command's own. -/
def ownFlags : CommandName → List Flag
  | .analyze =>
    [{ name := "strict", kind := .switch, summary := "Exit non-zero on parse errors or coverage gaps" }]
  | .trace =>
    [{ name := "downstream", kind := .switch, summary := "List the columns derived from the column" }]
  | .patterns =>
    [{ name := "min-risk", kind := .text, summary := "Only list patterns at or above this risk" },
     { name := "verbose", letter := some 'V', kind := .switch, summary := "Show descriptions and examples" }]
  | .init =>
    [{ name := "force", kind := .switch, summary := "Overwrite existing configuration" },
     { name := "example", kind := .switch
       summary := "Create an example project with procedures, a view and a schema file" }]
  | _ => []

/-- All flags of a command. One of its own hides a global one of the same name. -/
def flags (command : CommandName) : List Flag :=
  command.ownFlags
    ++ globalFlags.filter fun flag => !command.ownFlags.any (·.name == flag.name)

def arity : CommandName → Arity
  | .trace => .atLeast 1
  | .patterns | .init => .atMost 1
  | .completion => .exactly 1
  | _ => .any

end CommandName

/-- The shells for which there is a completion script. -/
def completionShells : List String := ["bash", "zsh", "fish", "powershell"]

/-! ### Faults -/

inductive UsageFault where
  | flag (fault : FlagFault)
  | unknownCommand (name : String)
  | arity (wanted : Arity) (received : Nat)
  | unknownShell (name : String)
  deriving DecidableEq, Repr

/-- The next row of the table of edit distances: from the row above, the distance to its left, and the byte
whose row it is. -/
def editRow (byte : UInt8) : List UInt8 → List Nat → Nat → List Nat
  | b :: bytes, corner :: above :: row, left =>
    let here := if byte == b then corner else min (min above left) corner + 1
    here :: editRow byte bytes (above :: row) here
  | _, _, _ => []

/-- How many bytes have to be added, removed or replaced to turn one text into the other. -/
def editDistance (a b : List UInt8) : Nat :=
  let start := List.range (b.length + 1)
  let rows := a.foldl (fun row byte =>
    match row with
    | first :: _ => (first + 1) :: editRow byte b row (first + 1)
    | [] => []) start
  rows.getLastD 0

/-- Commands that may have been meant: those within two edits, and those that start like the word. -/
def suggestions (word : String) : List CommandName :=
  let typed := Text.lower word
  (CommandName.all.filter (· != .help)).filter fun command =>
    editDistance typed.toUTF8.toList command.text.toUTF8.toList ≤ 2
      || typed.toList.isPrefixOf command.text.toList

def Arity.message (received : Nat) : Arity → String
  | .any => ""
  | .exactly count => s!"accepts {count} arg(s), received {received}"
  | .atLeast count => s!"requires at least {count} arg(s), only received {received}"
  | .atMost count => s!"accepts at most {count} arg(s), received {received}"

def UsageFault.message : UsageFault → String
  | .flag fault => fault.message
  | .unknownCommand name =>
    let near := suggestions name
    s!"unknown command {Text.quoted name} for {Text.quoted programName}"
      ++ if near.isEmpty then ""
        else "\n\nDid you mean this?\n" ++ String.join (near.map fun command => s!"\t{command.text}\n")
  | .arity wanted received => wanted.message received
  | .unknownShell name =>
    let command := programName ++ " completion"
    s!"invalid argument {Text.quoted name} for {Text.quoted command}"

/-! ### Finding the command -/

/-- Whether an argument is a flag whose value is the next argument. Unknown flags count as such. -/
def takesNext (flags : List Flag) (argument : String) : Bool :=
  match argument.toList with
  | '-' :: '-' :: cs =>
    !cs.contains '=' && !((ParsedArguments.findFlag flags (String.ofList cs)).any (·.isSwitch))
  | ['-', c] => c.toNat < 0x80 && c != '=' && !((ParsedArguments.findLetter flags c).any (·.isSwitch))
  | _ => false

/-- The arguments that are no flags and no values of flags. A flag that takes the last argument, or has none
to take, ends the search. -/
def plainArguments (flags : List Flag) : List String → List String
  | [] => []
  | argument :: rest =>
    if argument == "--" then []
    else if takesNext flags argument then
      match rest with
      | _ :: next :: more => plainArguments flags (next :: more)
      | _ => []
    else if argument == "" || argument.toList.head? == some '-' then plainArguments flags rest
    else argument :: plainArguments flags rest

/-- The arguments without the first that is the given word and no value of a flag. -/
def withoutFirst (flags : List Flag) (word : String) : List String → List String
  | [] => []
  | argument :: rest =>
    if argument == "--" then argument :: rest
    else if takesNext flags argument then
      match rest with
      | value :: more => argument :: value :: withoutFirst flags word more
      | [] => [argument]
    else if argument == word then rest
    else argument :: withoutFirst flags word rest

/-- What is to be done. -/
inductive Invocation where
  | usage (command : Option CommandName)
  | programVersion
  | run (command : CommandName) (parsed : ParsedArguments)

/-- The command that is meant and the arguments that are left for it. -/
def chooseCommand (arguments : List String) : Except UsageFault (Option CommandName × List String) :=
  match plainArguments globalFlags arguments with
  | [] => .ok (none, arguments)
  | word :: _ =>
    match CommandName.ofText? word with
    | some command => .ok (some command, withoutFirst globalFlags word arguments)
    | none => .error (.unknownCommand word)

def checkArity (arity : Arity) (received : Nat) : Except UsageFault Unit :=
  let fits := match arity with
    | .any => true
    | .exactly count => received == count
    | .atLeast count => count ≤ received
    | .atMost count => received ≤ count
  if fits then .ok () else .error (.arity arity received)

/-- Read a command line. Flags are read before arguments are counted. -/
def Invocation.ofArguments (arguments : List String) : Except UsageFault Invocation := do
  match ← chooseCommand arguments with
  | (none, rest) =>
    let parsed ← (ParsedArguments.ofArguments (globalFlags ++ [helpFlag, versionFlag]) rest).mapError .flag
    if !parsed.isOn "help" && parsed.isOn "version" then return .programVersion else return .usage none
  | (some command, rest) =>
    let parsed ← (ParsedArguments.ofArguments (command.flags ++ [helpFlag]) rest).mapError .flag
    if parsed.isOn "help" then return .usage (some command)
    checkArity command.arity parsed.arguments.length
    if command == .completion then
      match parsed.arguments.find? fun shell => !completionShells.contains shell with
      | some shell => throw (.unknownShell shell)
      | none => pure ()
    return .run command parsed

/-! ### Settings of the command line -/

/-- The name of the setting that a global flag sets. -/
def settingName (flag : String) : String :=
  match flag with
  | "schema" => "default_schema"
  | "ext" => "extensions"
  | flag => String.ofList (flag.toList.map fun c => if c == '-' then '_' else c)

/-- The value of a flag as a setting. -/
def settingValue : Yaml.Value → Yaml.Value
  | .list items => .list ((ValueList.readBack (items.filterMap LenientValue.text?)).map .text)
  | value => value

/-- What the global flags say. Flags of a command's own are left out. -/
def SettingsRequest.ofFlags (own : List Flag) (parsed : ParsedArguments) : SettingsRequest :=
  let isGlobal (name : String) : Bool := !own.any (·.name == name)
  let values := parsed.values.filter fun (name, _) => isGlobal name && name != helpFlag.name
  { configFile := parsed.text "config"
    projectFolder := parsed.text "project-dir"
    schemaFile := (values.lookup "schema-file").map fun _ => parsed.text "schema-file"
    layer := (values.filter fun (name, _) => name != "config" && name != "project-dir").map
      fun (name, value) => (settingName name, settingValue value) }

end ColumnFlow
