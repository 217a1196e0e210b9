import AnswerKey.Execution.Event
import AnswerKey.Execution.Failure

namespace AnswerKey

abbrev Bindings := List (String × Json)

/-- How a run goes when nothing stops it: it lasts a while and ends with values or a failure, or with neither if the
program breaks off. -/
structure Run where
  delay : Nat := 0
  events : List Event := []
  outcome : Option (Except RunFailure (List Json))

structure Adapter where
  dialect : Dialect
  run : Script → Bindings → Run

def Limits.outcomeOf (limits : Limits) (run : Run) : Option (Except RunFailure (List Json)) :=
  if limits.timeout < run.delay then some (.error (.timedOut limits.timeout))
  else
    match run.outcome with
    | none => none
    | some (.error failure) => some (.error failure)
    | some (.ok values) =>
      if limits.maxValues < values.length then some (.error (.tooManyValues values.length limits.maxValues))
      else some (.ok values)

def executionEvent (script : Script) : Except RunFailure (List Json) → Event
  | .ok values => .executionFinished script.snippetId script.dialect values.length
  | .error failure => .executionFailed script.snippetId script.dialect failure.message

/-- Whether a run may begin: the limits make sense and the adapter is for the script's dialect. -/
def Adapter.check (adapter : Adapter) (limits : Limits) (script : Script) : Except RunFailure Unit := do
  limits.validate
  if adapter.dialect ≠ script.dialect then throw (.noAdapter script.dialect)

def Adapter.execute (adapter : Adapter) (limits : Limits) (bindings : Bindings) (script : Script) :
    Traced (Option (Except RunFailure (List Json))) :=
  match adapter.check limits script with
  | .error failure => ⟨[], some (.error failure)⟩
  | .ok () =>
    let run := adapter.run script bindings
    let outcome := limits.outcomeOf run
    ⟨run.events ++ (outcome.map (executionEvent script)).toList, outcome⟩

/-- Adapters, one for a dialect at most, in the order of the dialects. -/
structure Registry where
  java : Option Adapter := none
  javaScript : Option Adapter := none
  python : Option Adapter := none

namespace Registry

def register (registry : Registry) (adapter : Adapter) : Registry :=
  match adapter.dialect with
  | .java => { registry with java := some adapter }
  | .javaScript => { registry with javaScript := some adapter }
  | .python => { registry with python := some adapter }

def ofAdapters (adapters : List Adapter) : Registry := adapters.foldl register {}

def find? (registry : Registry) : Dialect → Option Adapter
  | .java => registry.java
  | .javaScript => registry.javaScript
  | .python => registry.python

def adapter (registry : Registry) (dialect : Dialect) : Except RunFailure Adapter :=
  match registry.find? dialect with
  | some adapter => .ok adapter
  | none => .error (.noAdapter dialect)

def dialects (registry : Registry) : List Dialect :=
  Dialect.all.filter fun dialect ↦ (registry.find? dialect).isSome

def dialectName : Dialect → String
  | .java => "Java"
  | .javaScript => "JavaScript"
  | .python => "Python"

def display (registry : Registry) : String :=
  "AdapterRegistry \x7b languages: [" ++ ", ".intercalate (registry.dialects.map dialectName) ++ "] \x7d"

end Registry
end AnswerKey
