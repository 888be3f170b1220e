import ColumnFlow.Command.Line
import ColumnFlow.Report.Render

/-!
# Usage texts and completion scripts
-/

namespace ColumnFlow

/-- The number of this release. -/
def releaseNumber : String := "0.1.0"

def slogan : String := "Column-level lineage for T-SQL"

namespace Flag

/-- The flag and what it does. -/
def usageLine (flag : Flag) : String :=
  let value := match flag.kind with
    | .switch => ""
    | .text => " string"
    | .number => " int"
    | .list => " strings"
  s!"  {flag.title}{value}: {flag.summary}"

end Flag

/-- How the program or one of its commands is used. -/
def usageText : Option CommandName → String
  | none =>
    joinLines <| [slogan, "", "Usage:", s!"  {programName} [command]", "", "Available Commands:"]
      ++ CommandName.all.map (fun command => s!"  {command.text}: {command.summary}")
      ++ ["", "Flags:"] ++ (globalFlags ++ [helpFlag, versionFlag]).map (·.usageLine)
  | some command =>
    joinLines <| [command.summary, "", "Usage:", s!"  {programName} {command.text}", "", "Flags:"]
      ++ (command.flags ++ [helpFlag]).map (·.usageLine)

/-- A script that completes the names of commands in a shell. -/
def completionScript (shell : String) : String :=
  let words := " ".intercalate (CommandName.all.map (·.text))
  match shell with
  | "bash" => joinLines ["complete -W \"" ++ words ++ "\" " ++ programName]
  | "zsh" => joinLines ["compctl -k \"(" ++ words ++ ")\" " ++ programName]
  | "fish" => joinLines ["complete -c " ++ programName ++ " -f -a \"" ++ words ++ "\""]
  | _ =>
    let list := ", ".intercalate (CommandName.all.map fun command => "\"" ++ command.text ++ "\"")
    joinLines ["Register-ArgumentCompleter -Native -CommandName " ++ programName
      ++ " -ScriptBlock \x7b " ++ list ++ " \x7d"]

end ColumnFlow
