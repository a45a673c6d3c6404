import DllGraph.Command.Options

/-!
# Usage of the Command

What the command says about itself: its version, and its help, which lists every option with what
it does on the line below.
-/

namespace DllGraph.Command

/-- The name of the command. -/
def commandName : String := "depview"

/-- The name of the command and its version. -/
def versionText : String := commandName ++ " 0.1.0\n"

/-- How an option is given. -/
def OptionSpec.form (s : OptionSpec) : String :=
  let letter := match s.letter with
    | some c => "-" ++ String.singleton c ++ ", "
    | none => "    "
  let value := match s.action with
    | .setValue valueName _ => " <" ++ valueName ++ ">"
    | _ => if s.isRepeatable then "..." else ""
  letter ++ "--" ++ s.long ++ value

/-- The lines of the help for an option. -/
def OptionSpec.usage (s : OptionSpec) : String :=
  "  " ++ s.form ++ "\n          " ++ s.help ++ "\n"

/-- The help. -/
def helpText : String :=
  "Dependency viewer for Windows PE files\n\n" ++
  "Usage: " ++ commandName ++ " [OPTIONS] <INPUT>...\n\n" ++
  "Arguments:\n  <INPUT>...  Target files (.exe or .dll)\n\n" ++
  "Options:\n" ++ String.join (optionSpecs.map OptionSpec.usage)

end DllGraph.Command
