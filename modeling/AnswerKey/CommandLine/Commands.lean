import AnswerKey.Challenge.Batch
import AnswerKey.CommandLine.Complaint
import AnswerKey.CommandLine.Documents
import AnswerKey.CommandLine.Help
import AnswerKey.CommandLine.Paths
import AnswerKey.Execution.Child
import AnswerKey.Settings.ChallengeFile
import AnswerKey.Settings.Configuration
import AnswerKey.Snippet.Functions
import AnswerKey.Snippet.ReturnType

namespace AnswerKey.CommandLine

open Text

/-- All that a program finds around it: files, environment variables, and a machine that runs commands and counts. -/
structure World where
  file? : String → Option (List Char)
  environment? : String → Option String
  host : Host
  overflow : Overflow

/-- How a subcommand ends early: with a complaint, or not even with that. -/
inductive Abort where
  | complaint (complaint : Complaint)
  | crash

structure Answer where
  document : Json
  complaint : Option Complaint := none

abbrev Result (α : Type) := Except Abort α

def fail {α : Type} (message : String) (causes : List String := []) : Result α :=
  .error (.complaint ⟨message, causes⟩)

def noSuchFile : String := "No such file or directory (os error 2)"

def ofFault {α : Type} : Except Fault α → Result α
  | .ok a => .ok a
  | .error (.defect defect) => fail defect.message
  | .error .unscannable => .error .crash

def failureCauses (failure : RunFailure) : List String :=
  match failure with
  | .system reason => [failure.message, reason]
  | _ => [failure.message]

/-- Stand for what the reader of settings has to say, as the message of a failure and as its cause. -/
def malformedSettings : List String := ["invalid toml", "invalid toml"]

def unreadable (path : String) : List String := [s!"cannot read {path}: {noSuchFile}", noSuchFile]

def readConfiguration (world : World) (path : String) : Result Configuration :=
  let message := s!"Failed to load config {path}"
  match world.file? path with
  | none => fail message (unreadable path)
  | some text =>
    match Configuration.read text with
    | .ok c => .ok c
    | .error .malformed => fail message malformedSettings
    | .error (.invalid failure) => fail message (failureCauses failure)

def configuration (world : World) (i : Invocation) : Result Configuration := do
  let c ← match i.config with
    | some path => readConfiguration world path
    | none => pure {}
  let c := { c with limits.timeout := i.timeout.getD c.limits.timeout }
  match c.validate with
  | .ok () => return c
  | .error failure => fail "Invalid configuration" (failureCauses failure)

def readSnippet (world : World) (lang : Option Dialect) (path : String) : Result Snippet :=
  match lang.or (dialectOf? path) with
  | none => fail s!"Cannot infer language of {path}; pass --lang"
  | some dialect =>
    match world.file? path with
    | none => fail s!"Failed to read {path}" [noSuchFile]
    | some text => .ok (.ofText (stem path) dialect text)

def functionCommand (s : Snippet) : Result Answer := do
  let text ← ofFault s.functionText
  return { document := .ofFields [("snippet", .string s.id), ("function", .text text)] }

def answersCommand (s : Snippet) : Result Answer := do
  let outputs ← ofFault s.outputs
  return { document := .ofFields [("snippet", .string s.id),
    ("answers", .array (outputs.map fun output ↦ .ofFields output.data))] }

def returnTypeCommand (s : Snippet) : Result Answer :=
  match s.returnType with
  | .error defect => fail defect.message
  | .ok type =>
    .ok { document := .ofFields [("snippet", .string s.id), ("return_type", .string type.display),
      ("collection", .bool type.isCollection)] }

def transformCommand (explain : Bool) (s : Snippet) : Result Answer := do
  let script ← ofFault s.transform
  if explain then
    return { document := .ofFields [("script", .ofFields script.data),
      ("rewrites", .array (s.transformation.edits.map fun e ↦ .ofFields e.data))] }
  return { document := .object script.data }

def readBinding (raw : String) : Result (String × Json) :=
  match cut? ['='] raw.toList with
  | none => fail ("Binding \x60" ++ raw ++ "\x60 is not NAME=JSON")
  | some (name, text) =>
    match Json.parse? text with
    | some value => .ok (.ofList (trim name), value)
    | none => fail ("Binding \x60" ++ .ofList name ++ "\x60 has invalid JSON") [Json.complaint]

def machine (world : World) (c : Configuration) (dialect : Dialect) : Adapter :=
  childAdapter world.overflow c.programs c.limits world.host dialect

def runCommand (world : World) (c : Configuration) (path : String) (rawBindings : List String) (s : Snippet) :
    Result Answer := do
  let bindings ← rawBindings.mapM readBinding
  let script ← ofFault s.transform
  match ((machine world c s.dialect).execute c.limits (Json.sortFields bindings) script).value with
  | some (.ok values) => return { document := .ofFields [("snippet", .string s.id), ("values", .array values)] }
  | some (.error failure) => fail s!"Failed to run {path}" (failureCauses failure)
  | none => .error .crash

def readChallenge (world : World) (path : String) : Result Challenge :=
  let message := s!"Failed to load challenge {path}"
  match world.file? path with
  | none => fail message (unreadable path)
  | some text =>
    match Challenge.read? text with
    | some c => .ok c
    | none => fail message malformedSettings

def batchAnswer (entries : List (Bool × Json)) (complaint : (failed total : Nat) → String) : Answer :=
  let failed := entries.countP fun entry ↦ !entry.1
  { document := .array (entries.map Prod.snd)
    complaint := if failed = 0 then none else some ⟨complaint failed entries.length, []⟩ }

def verifyEntry (world : World) (config : Configuration) (path : String) : Result (Bool × Json) := do
  let c ← readChallenge world path
  match (c.verify (machine world config c.dialect) config.limits).2 with
  | .ok report =>
    return (true, .ofFields [("challenge", .string c.id), ("passed", .bool true), ("report", .ofFields report.data)])
  | .error (.fault .unscannable) | .error .brokenOff => .error .crash
  | .error failure =>
    return (false, .ofFields [("challenge", .string c.id), ("passed", .bool false),
      ("configuration_error", .bool failure.isDefect), ("error", .string failure.message)])

def verifyCommand (world : World) (config : Configuration) (paths : List String) : Result Answer := do
  let entries ← paths.mapM (verifyEntry world config)
  return batchAnswer entries fun failed total ↦ s!"{failed} of {total} challenge(s) failed verification"

def listedExpressions (s : Snippet) : Result (Option (List Line)) :=
  match s.expressions with
  | .ok expressions => .ok (some expressions)
  | .error (.defect _) => .ok none
  | .error .unscannable => .error .crash

def regenerateEntry (path : String) (expressions : Option (List Line)) :
    Except VerifyFailure (List Json) → Bool × Json
  | .ok values =>
    (true, .ofFields [("file", .string path), ("answers", .optional .lines expressions), ("values", .array values)])
  | .error failure => (false, .ofFields [("file", .string path), ("error", .string failure.message)])

def regenerateCommand (world : World) (config : Configuration) (lang : Option Dialect) (paths : List String) :
    Result Answer := do
  let snippets ← paths.mapM (readSnippet world lang)
  let expressions ← snippets.mapM listedExpressions
  let registry := childRegistry world.overflow config.programs config.limits world.host
  match regenerateWithin registry config.limits config.maxConcurrent snippets with
  | none => .error .crash
  | some results =>
    let entries := (paths.zip (expressions.zip results)).map fun (path, expressions, result) ↦
      regenerateEntry path expressions result
    return batchAnswer entries fun failed total ↦ s!"{failed} of {total} snippet(s) failed to run"

def perform (world : World) (i : Invocation) : Result Answer := do
  let config ← configuration world i
  let onSnippet (lang : Option Dialect) (command : String → Snippet → Result Answer) : Result Answer :=
    match i.files with
    | path :: _ => (readSnippet world lang path).bind (command path)
    | [] => .error .crash
  match i.subcommand with
  | .function => onSnippet i.lang fun _ ↦ functionCommand
  | .answers => onSnippet i.lang fun _ ↦ answersCommand
  | .returnType => onSnippet (some .java) fun _ ↦ returnTypeCommand
  | .transform => onSnippet i.lang fun _ ↦ transformCommand i.explain
  | .run => onSnippet i.lang fun path ↦ runCommand world config path i.bindings
  | .verify => verifyCommand world config i.files
  | .regenerate => regenerateCommand world config i.lang i.files

structure Exit where
  code : Nat
  stdout : String := ""
  complaint : Option String := none

def finish : Result Answer → Exit
  | .ok answer =>
    { code := if answer.complaint.isSome then 1 else 0
      stdout := .ofList (answer.document.pretty ++ ['\n'])
      complaint := answer.complaint.map Complaint.text }
  | .error (.complaint c) => { code := 1, complaint := some c.text }
  | .error .crash => { code := 101 }

def execute (world : World) (args : List String) : Exit :=
  match invocation world.environment? args with
  | .error .usage => { code := 2 }
  | .error (.help topic) => { code := 0, stdout := topic.text world.environment? }
  | .error .version => { code := 0, stdout := versionText }
  | .ok i => finish (perform world i)

end AnswerKey.CommandLine
