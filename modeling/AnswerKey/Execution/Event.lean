import AnswerKey.Json.Basic
import AnswerKey.Script.Basic

namespace AnswerKey

inductive Level where
  | debug
  | info
  | warn
deriving DecidableEq

def Level.label : Level → String
  | debug => "DEBUG"
  | info => "INFO"
  | warn => "WARN"

inductive Event where
  | lineEdited (snippet : String) (line : Nat) (kind : EditKind) (emitted : Nat)
  | transformFinished (snippet digest : String) (dialect : Dialect) (linesIn linesOut appendedCalls : Nat)
  | bindingsIgnored (snippet : String) (count : Nat)
  | executionFinished (snippet : String) (dialect : Dialect) (values : Nat)
  | executionFailed (snippet : String) (dialect : Dialect) (reason : String)
  | verificationFinished (snippet : String) (expected actual : Nat) (passed : Bool)
deriving DecidableEq

def EditKind.label : EditKind → String
  | entryPoint => "EntryPoint"
  | outputCall => "OutputCall"
  | blockEnd => "BlockEnd"

namespace Event

def level : Event → Level
  | lineEdited .. => .debug
  | bindingsIgnored .. | executionFailed .. => .warn
  | transformFinished .. | executionFinished .. | verificationFinished .. => .info

def fields : Event → List (String × Json)
  | lineEdited snippet line kind emitted =>
    [("event", .string "transform.line_rewritten"), ("snippet", .string snippet), ("line", .nat line),
      ("kind", .string kind.label), ("emitted", .nat emitted)]
  | transformFinished snippet digest dialect linesIn linesOut appendedCalls =>
    [("event", .string "transform.finished"), ("snippet", .string snippet), ("digest", .string digest),
      ("language", .string dialect.tag), ("lines_in", .nat linesIn), ("lines_out", .nat linesOut),
      ("appended_calls", .nat appendedCalls)]
  | bindingsIgnored snippet count =>
    [("message", .string "java runtime ignores bindings"), ("snippet", .string snippet), ("count", .nat count)]
  | executionFinished snippet dialect values =>
    [("event", .string "execution.finished"), ("snippet", .string snippet), ("language", .string dialect.tag),
      ("values", .nat values)]
  | executionFailed snippet dialect reason =>
    [("event", .string "execution.failed"), ("snippet", .string snippet), ("language", .string dialect.tag),
      ("error", .string reason)]
  | verificationFinished snippet expected actual passed =>
    [("event", .string "verification.finished"), ("snippet", .string snippet), ("expected", .nat expected),
      ("actual", .nat actual), ("passed", .bool passed)]

end Event

structure Traced (α : Type) where
  events : List Event
  value : α

namespace Traced

def pure {α : Type} (value : α) : Traced α := ⟨[], value⟩

def bind {α β : Type} (t : Traced α) (f : α → Traced β) : Traced β :=
  ⟨t.events ++ (f t.value).events, (f t.value).value⟩

instance : Monad Traced where
  pure := pure
  bind := bind

end Traced

namespace Snippet

def editEvents (s : Snippet) : List Event :=
  s.transformation.edits.map fun e ↦ .lineEdited s.id e.line e.kind e.emitted.length

def transformFinishedEvent (s : Snippet) (script : Script) : Event :=
  .transformFinished s.id s.digest s.dialect s.lines.length script.emitted.length script.appendedCalls

def transformTraced (s : Snippet) : Traced (Except Fault Script) :=
  match s.transform with
  | .ok script => ⟨[s.transformFinishedEvent script], .ok script⟩
  | .error fault => ⟨[], .error fault⟩

def transformWatched (s : Snippet) : Traced (Except Fault Script) :=
  ⟨s.editEvents ++ s.transformTraced.events, s.transformTraced.value⟩

end Snippet
end AnswerKey
