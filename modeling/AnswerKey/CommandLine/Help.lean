import AnswerKey.CommandLine.Options

namespace AnswerKey.CommandLine

def programName : String := "snipcheck"

def versionText : String := programName ++ " 0.3.1\n"

def about : String := "Instrument, run and verify output-prediction code challenges"

def aboutHelp : String := "Print this message or the help of the given subcommand(s)"

def Subcommand.about : Subcommand → String
  | function => "Print the function text that precedes the entry point"
  | answers => "Print the output expressions of the entry-point block"
  | returnType => "Print the declared return type of the first Java method"
  | transform => "Print the instrumented script"
  | run => "Execute a snippet and print the collected values"
  | verify => "Verify challenge files against their answer keys"
  | regenerate => "Execute reference snippets concurrently and print their values"

def Subcommand.operand : Subcommand → String
  | verify => "<CHALLENGES>..."
  | regenerate => "<FILES>..."
  | function | answers | returnType | transform | run => "<FILE>"

def Flag.about (subcommand : Option Subcommand) : Flag → String
  | lang => if subcommand = some .function then "Snippet language (default: from the file extension)" else ""
  | explain => "Also list every rewritten line"
  | binding => "Value visible to the script, as NAME=JSON (repeatable)"
  | verbose => "Enable verbose output"
  | json => "Emit JSON-formatted log lines"
  | config => "Config file (TOML)"
  | timeout => "Override the per-run timeout in milliseconds"
  | help => "Print help"
  | version => "Print version"

def spaces (n : Nat) : String := .ofList (List.replicate n ' ')

def column (used : Nat) (text : String) : String :=
  ("\n" ++ spaces used).intercalate ((Text.splitOn '\n' text.toList).map String.ofList)

def rows (entries : List (String × String)) : String :=
  let longest := (entries.map (·.1.length)).foldl max 0
  .join (entries.map fun (name, text) ↦
    "  " ++ name ++ spaces (longest - name.length + 2) ++ column (longest + 4) text ++ "\n")

def Flag.display (flag : Flag) : String :=
  let short := match flag.short? with
    | some c => "-" ++ String.singleton c ++ ", "
    | none => "    "
  let value := match flag.value? with
    | some name => " <" ++ name ++ ">"
    | none => ""
  short ++ "--" ++ flag.long ++ value

def environmentNote (environment? : String → Option String) (flag : Flag) : List String :=
  match flag.standIn? with
  | none => []
  | some name => ["[env: " ++ name ++ "=" ++ (environment? name).getD "" ++ "]"]

def optionRows (environment? : String → Option String) (subcommand : Option Subcommand) (flags : List Flag) :
    String :=
  rows (flags.map fun flag ↦
    (flag.display, " ".intercalate (flag.about subcommand :: environmentNote environment? flag)))

def rootHelp (environment? : String → Option String) : String :=
  about ++ "\n\nUsage: " ++ programName ++ " [OPTIONS] <COMMAND>\n\nCommands:\n" ++
    rows (Subcommand.all.map (fun s ↦ (s.name, s.about)) ++ [(helpName, aboutHelp)]) ++
    "\nOptions:\n" ++ optionRows environment? none rootFlags

def Subcommand.help (environment? : String → Option String) (s : Subcommand) : String :=
  s.about ++ "\n\nUsage: " ++ programName ++ " " ++ s.name ++ " [OPTIONS] " ++ s.operand ++ "\n\nArguments:\n" ++
    rows [(s.operand, "")] ++ "\nOptions:\n" ++ optionRows environment? (some s) s.flags

def helpHelp : String :=
  aboutHelp ++ "\n\nUsage: " ++ programName ++ " " ++ helpName ++ " [COMMAND]...\n\nArguments:\n" ++
    rows [("[COMMAND]...", "Print help for the subcommand(s)")]

def Topic.text (environment? : String → Option String) : Topic → String
  | program => rootHelp environment?
  | subcommand s => s.help environment?
  | help => helpHelp

end AnswerKey.CommandLine
