import AnswerKey.Snippet.Basic

namespace AnswerKey.CommandLine

open Text

inductive Subcommand where
  | function
  | answers
  | returnType
  | transform
  | run
  | verify
  | regenerate
deriving DecidableEq

inductive Flag where
  | lang
  | explain
  | binding
  | verbose
  | json
  | config
  | timeout
  | help
  | version
deriving DecidableEq

namespace Flag

def long : Flag → String
  | lang => "lang"
  | explain => "explain"
  | binding => "binding"
  | verbose => "verbose"
  | json => "json"
  | config => "config"
  | timeout => "timeout-ms"
  | help => "help"
  | version => "version"

def short? : Flag → Option Char
  | lang => some 'l'
  | binding => some 'b'
  | verbose => some 'v'
  | help => some 'h'
  | version => some 'V'
  | explain | json | config | timeout => none

def value? : Flag → Option String
  | lang => some "LANG"
  | binding => some "NAME=JSON"
  | config => some "CONFIG"
  | timeout => some "TIMEOUT_MS"
  | explain | verbose | json | help | version => none

def standIn? : Flag → Option String
  | config => some "SNIPCHECK_CONFIG"
  | timeout => some "SNIPCHECK_TIMEOUT_MS"
  | _ => none

end Flag

namespace Subcommand

def all : List Subcommand := [function, answers, returnType, transform, run, verify, regenerate]

def name : Subcommand → String
  | function => "function"
  | answers => "answers"
  | returnType => "return-type"
  | transform => "transform"
  | run => "run"
  | verify => "verify"
  | regenerate => "regenerate"

def ofName? (s : String) : Option Subcommand := all.find? (·.name = s)

def flags : Subcommand → List Flag
  | function | answers | regenerate => [.lang, .verbose, .json, .config, .timeout, .help]
  | returnType | verify => [.verbose, .json, .config, .timeout, .help]
  | transform => [.lang, .verbose, .explain, .json, .config, .timeout, .help]
  | run => [.lang, .verbose, .binding, .json, .config, .timeout, .help]

def takesMany : Subcommand → Bool
  | verify | regenerate => true
  | function | answers | returnType | transform | run => false

end Subcommand

def helpName : String := "help"

def rootFlags : List Flag := [.verbose, .json, .config, .timeout, .help, .version]

inductive Topic where
  | program
  | subcommand (subcommand : Subcommand)
  | help
deriving DecidableEq

inductive Halt where
  | usage
  | help (topic : Topic)
  | version
deriving DecidableEq

structure Given where
  flags : List Flag := []
  config : Option String := none
  timeout : Option Nat := none
  lang : Option Dialect := none
  bindings : List String := []
  files : List String := []

def milliseconds? (s : String) : Option Nat :=
  let digits := (after? ['+'] s.toList).getD s.toList
  if digits.isEmpty ∨ !digits.all Char.isDigit then none
  else
    let n := digits.foldl (fun n c ↦ n * 10 + (c.toNat - '0'.toNat)) 0
    if n < UInt64.size then some n else none

def path? (s : String) : Option String := if s.isEmpty then none else some s

def Given.put (subcommand : Option Subcommand) (g : Given) (flag : Flag) (value : String) : Except Halt Given :=
  if flag ∈ g.flags ∧ flag ≠ .binding then .error .usage
  else
    let g := { g with flags := flag :: g.flags }
    match flag with
    | .help => .error (.help (subcommand.elim .program .subcommand))
    | .version => .error .version
    | .verbose | .json | .explain => .ok g
    | .binding => .ok { g with bindings := g.bindings ++ [value] }
    | .config =>
      match path? value with
      | some path => .ok { g with config := some path }
      | none => .error .usage
    | .timeout =>
      match milliseconds? value with
      | some n => .ok { g with timeout := some n }
      | none => .error .usage
    | .lang =>
      match Dialect.read value with
      | .ok dialect => .ok { g with lang := some dialect }
      | .error _ => .error .usage

/-- An option after two dashes; one that lacks its value waits for the next argument. -/
def Given.putLong (subcommand : Option Subcommand) (accepted : List Flag) (g : Given) (text : List Char) :
    Except Halt (Given × Option Flag) :=
  let (name, value) :=
    match cut? ['='] text with
    | some (name, value) => (name, some value)
    | none => (text, none)
  match accepted.find? (·.long.toList = name) with
  | none => .error .usage
  | some flag =>
    match flag.value?, value with
    | some _, some value => (g.put subcommand flag (.ofList value)).map (·, none)
    | some _, none => .ok (g, some flag)
    | none, some _ => .error .usage
    | none, none => (g.put subcommand flag "").map (·, none)

/-- Options after one dash, of which the last may go on with its value. -/
def Given.putShort (subcommand : Option Subcommand) (accepted : List Flag) (g : Given) :
    List Char → Except Halt (Given × Option Flag)
  | [] => .ok (g, none)
  | c :: rest =>
    match accepted.find? (·.short? = some c) with
    | none => .error .usage
    | some flag =>
      if flag.value?.isNone then
        match g.put subcommand flag "" with
        | .ok g => g.putShort subcommand accepted rest
        | .error halt => .error halt
      else
        match rest with
        | [] => .ok (g, some flag)
        | '=' :: value => (g.put subcommand flag (.ofList value)).map (·, none)
        | value => (g.put subcommand flag (.ofList value)).map (·, none)

inductive Shape where
  | escape
  | long (text : List Char)
  | short (text : List Char)
  | operand

def shape (arg : String) : Shape :=
  match arg.toList with
  | ['-', '-'] => .escape
  | '-' :: '-' :: text => .long text
  | ['-'] => .operand
  | '-' :: text => .short text
  | _ => .operand

def Given.putOptions (subcommand : Option Subcommand) (accepted : List Flag) (g : Given) :
    Shape → Except Halt (Given × Option Flag)
  | .long text => g.putLong subcommand accepted text
  | .short text => g.putShort subcommand accepted text
  | .escape | .operand => .ok (g, none)

def Given.putFile (subcommand : Subcommand) (g : Given) (arg : String) : Except Halt Given :=
  if arg.isEmpty ∨ (!subcommand.takesMany ∧ !g.files.isEmpty) then .error .usage
  else .ok { g with files := g.files ++ [arg] }

def Given.readAll (subcommand : Subcommand) (g : Given) : List String → Except Halt Given
  | [] => .ok g
  | arg :: rest =>
    match shape arg with
    | .escape => rest.foldlM (Given.putFile subcommand) g
    | .operand =>
      match g.putFile subcommand arg with
      | .ok g => g.readAll subcommand rest
      | .error halt => .error halt
    | options =>
      match g.putOptions subcommand subcommand.flags options with
      | .error halt => .error halt
      | .ok (g, none) => g.readAll subcommand rest
      | .ok (g, some flag) =>
        match rest with
        | [] => .error .usage
        | value :: rest =>
          match shape value with
          | .operand =>
            match g.put subcommand flag value with
            | .ok g => g.readAll subcommand rest
            | .error halt => .error halt
          | _ => .error .usage

structure Parsed where
  subcommand : Subcommand
  before : Given
  after : Given

def helpHalt : List String → Halt
  | [] => .help .program
  | [name] =>
    if name = helpName then .help .help
    else
      match Subcommand.ofName? name with
      | some subcommand => .help (.subcommand subcommand)
      | none => .usage
  | _ => .usage

def Given.readRoot (g : Given) : List String → Except Halt Parsed
  | [] => .error .usage
  | arg :: rest =>
    match shape arg with
    | .escape => .error .usage
    | .operand =>
      if arg = helpName then .error (helpHalt rest)
      else
        match Subcommand.ofName? arg with
        | none => .error .usage
        | some subcommand => (Given.readAll subcommand {} rest).map fun after ↦ ⟨subcommand, g, after⟩
    | options =>
      match g.putOptions none rootFlags options with
      | .error halt => .error halt
      | .ok (g, none) => g.readRoot rest
      | .ok (g, some flag) =>
        match rest with
        | [] => .error .usage
        | value :: rest =>
          match shape value with
          | .operand =>
            match g.put none flag value with
            | .ok g => g.readRoot rest
            | .error halt => .error halt
          | _ => .error .usage

/-- The value of an option that may stand on both sides of the subcommand: the one after it counts before the
one in front of it, and the environment comes last. A variable that is read has to make sense. -/
def settle {α : Type} (flag : Flag) (read? : String → Option α) (environment? : String → Option String)
    (before after : Option α) : Except Halt (Option α) :=
  match (flag.standIn?.bind environment?).map read? with
  | none => .ok (after.or before)
  | some value =>
    if before.isSome ∧ after.isSome then .ok after
    else
      match value with
      | none => .error .usage
      | some value => .ok ((after.or before).or (some value))

structure Invocation where
  subcommand : Subcommand
  config : Option String
  timeout : Option Nat
  lang : Option Dialect
  explain : Bool
  bindings : List String
  files : List String

def invocation (environment? : String → Option String) (args : List String) : Except Halt Invocation := do
  let parsed ← Given.readRoot {} args
  if parsed.after.files.isEmpty then throw .usage
  let config ← settle .config path? environment? parsed.before.config parsed.after.config
  let timeout ← settle .timeout milliseconds? environment? parsed.before.timeout parsed.after.timeout
  return {
    subcommand := parsed.subcommand
    config, timeout
    lang := parsed.after.lang
    explain := parsed.after.flags.contains .explain
    bindings := parsed.after.bindings
    files := parsed.after.files }

end AnswerKey.CommandLine
