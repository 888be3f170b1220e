import ColumnFlow.Command.ValueList
import ColumnFlow.Settings.Layer

/-!
# Flags

A flag is written `--name value`, `--name=value`, or with its letter as `-n value`, `-nvalue` or `-n=value`;
letters of switches can be joined. Flags and other arguments may be mixed, and `--` ends the flags. A flag given
again replaces its value, but adds to a list. Letters from `test.` on are left to a test runner and passed over.
-/

namespace ColumnFlow

inductive FlagKind where
  | text | number | switch | list
  deriving DecidableEq, Repr

structure Flag where
  name : String
  letter : Option Char := none
  kind : FlagKind
  /-- For the usage text. -/
  summary : String
  deriving DecidableEq, Repr

/-- Why a value is none for its flag. -/
inductive ValueFault where
  | number (fault : Text.NumberFault)
  | switch
  | list (fault : ListFault)
  deriving DecidableEq, Repr

inductive FlagFault where
  | malformed (argument : String)
  | unknown (name : String)
  /-- `group` is what stands after the dash, from the letter on. -/
  | unknownLetter (letter : Char) (group : String)
  | noValue (name : String)
  | noValueForLetter (letter : Char) (group : String)
  | badValue (flag : Flag) (value : String) (fault : ValueFault)
  | helpWanted
  deriving DecidableEq, Repr

namespace Flag

/-- How a flag is named in messages. -/
def title (flag : Flag) : String :=
  match flag.letter with
  | some letter => "-" ++ letter.toString ++ ", --" ++ flag.name
  | none => "--" ++ flag.name

/-- Whether the flag needs no value. -/
def isSwitch (flag : Flag) : Bool := flag.kind == .switch

end Flag

def ValueFault.message (value : String) : ValueFault → String
  | .number fault => s!"strconv.ParseInt: parsing {Text.quoted value}: {fault.message}"
  | .switch => s!"strconv.ParseBool: parsing {Text.quoted value}: invalid syntax"
  | .list fault => fault.message

/-- A letter as it is shown when it is unknown: one beyond ASCII by the first byte of its code. -/
def shownLetter (c : Char) : Char := if c.toNat < 0x80 then c else 'Ã'

def FlagFault.message : FlagFault → String
  | .malformed argument => s!"bad flag syntax: {argument}"
  | .unknown name => s!"unknown flag: --{name}"
  | .unknownLetter letter group =>
    s!"unknown shorthand flag: {Text.quotedChar (shownLetter letter)} in -{group}"
  | .noValue name => s!"flag needs an argument: --{name}"
  | .noValueForLetter letter group => s!"flag needs an argument: {Text.quotedChar letter} in -{group}"
  | .badValue flag value fault =>
    s!"invalid argument {Text.quoted value} for {Text.quoted flag.title} flag: {fault.message value}"
  | .helpWanted => "pflag: help requested"

/-- Flags and arguments as far as they are read. -/
structure ParsedArguments where
  /-- The values of flags by name. -/
  values : Layer := []
  arguments : List String := []
  /-- A flag whose value comes next, with the fault to report if none does. -/
  awaiting : Option (Flag × FlagFault) := none
  /-- Whether `--` was seen. -/
  ended : Bool := false

namespace ParsedArguments

/-- Read the value of a flag. -/
def readValue (flag : Flag) (value : String) : Except ValueFault Yaml.Value :=
  match flag.kind with
  | .text => .ok (.text value)
  | .number => (Text.readInteger value).mapError .number |>.map .int
  | .switch =>
    match LenientValue.flagOfText? value with
    | some isSet => .ok (.bool isSet)
    | none => .error .switch
  | .list => (ValueList.ofText value).mapError .list |>.map fun items => .list (items.map .text)

/-- Give a flag a value. -/
def setFlag (p : ParsedArguments) (flag : Flag) (value : String) : Except FlagFault ParsedArguments := do
  let read ← (readValue flag value).mapError (.badValue flag value)
  let read := match p.values.lookup flag.name, read with
    | some (.list before), .list items => .list (before ++ items)
    | _, read => read
  return { p with values := (flag.name, read) :: p.values.filter (·.1 != flag.name) }

def findFlag (flags : List Flag) (name : String) : Option Flag := flags.find? (·.name == name)

def findLetter (flags : List Flag) (letter : Char) : Option Flag := flags.find? (·.letter == some letter)

/-- Cut a text at its first equals sign, if it has one. -/
def cutEquals (cs : List Char) : List Char × Option (List Char) :=
  let name := cs.takeWhile (· != '=')
  match cs.drop name.length with
  | _ :: value => (name, some value)
  | [] => (name, none)

/-- What follows two dashes. -/
def readLong (flags : List Flag) (p : ParsedArguments) (cs : List Char) : Except FlagFault ParsedArguments :=
  if cs.head? == some '-' || cs.head? == some '=' then .error (.malformed (String.ofList ('-' :: '-' :: cs)))
  else
    let (nameChars, value) := cutEquals cs
    let name := String.ofList nameChars
    match findFlag flags name, value with
    | none, _ => .error (if name == "help" then .helpWanted else .unknown name)
    | some flag, some value => p.setFlag flag (String.ofList value)
    | some flag, none =>
      if flag.isSwitch then p.setFlag flag "true" else .ok { p with awaiting := some (flag, .noValue name) }

/-- What a group of letters goes on with that is meant for a test runner. -/
def testRunnerMark : List Char := ['t', 'e', 's', 't', '.']

/-- What follows one dash. -/
def readLetters (flags : List Flag) : ParsedArguments → List Char → Except FlagFault ParsedArguments
  | p, [] => .ok p
  | p, c :: rest =>
    let group := String.ofList (c :: rest)
    if testRunnerMark.isPrefixOf (c :: rest) then .ok p
    else match findLetter flags c with
    | none => .error (if c == 'h' then .helpWanted else .unknownLetter c group)
    | some flag =>
      match rest with
      | '=' :: d :: value => p.setFlag flag (String.ofList (d :: value))
      | rest =>
        if flag.isSwitch then do
          let p ← p.setFlag flag "true"
          readLetters flags p rest
        else if rest.isEmpty then .ok { p with awaiting := some (flag, .noValueForLetter c group) }
        else p.setFlag flag (String.ofList rest)

/-- Read one argument. -/
def step (flags : List Flag) (p : ParsedArguments) (argument : String) : Except FlagFault ParsedArguments :=
  match p.awaiting with
  | some (flag, _) => { p with awaiting := none }.setFlag flag argument
  | none =>
    if p.ended then .ok { p with arguments := p.arguments ++ [argument] }
    else match argument.toList with
      | ['-', '-'] => .ok { p with ended := true }
      | '-' :: '-' :: cs => readLong flags p cs
      | '-' :: c :: cs => readLetters flags p (c :: cs)
      | _ => .ok { p with arguments := p.arguments ++ [argument] }

/-- Read all arguments. -/
def ofArguments (flags : List Flag) (arguments : List String) : Except FlagFault ParsedArguments := do
  let p ← arguments.foldlM (step flags) {}
  match p.awaiting with
  | some (_, fault) => throw fault
  | none => return p

/-- The text of a flag, empty if it is not set. -/
def text (p : ParsedArguments) (name : String) : String :=
  match p.values.lookup name with
  | some (.text value) => value
  | _ => ""

/-- Whether a switch is on. -/
def isOn (p : ParsedArguments) (name : String) : Bool :=
  match p.values.lookup name with
  | some (.bool value) => value
  | _ => false

end ParsedArguments

end ColumnFlow
