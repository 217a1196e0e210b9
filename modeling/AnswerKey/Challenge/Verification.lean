import AnswerKey.Answer.Comparison
import AnswerKey.Answer.Literal
import AnswerKey.Execution.Adapter

namespace AnswerKey

structure Challenge where
  id : String
  dialect : Dialect
  source : List Char
  answers : List String := []
  bindings : Bindings := []

namespace Challenge

def snippet (c : Challenge) : Snippet := .ofText c.id c.dialect c.source

/-- Output calls show expressions and not values, so a challenge without answers has no key. -/
def key (c : Challenge) : Except Defect (List String) :=
  if c.answers.isEmpty then .error (.missingKey c.id) else .ok c.answers

def expected (c : Challenge) : List Json := c.answers.map fun literal ↦ Answer.read c.dialect literal.toList

end Challenge

inductive VerifyFailure where
  | fault (fault : Fault)
  | execution (snippet : String) (failure : RunFailure)
  /-- The program has broken off in the run. -/
  | brokenOff
  | mismatch (snippet : String) (difference : Mismatch)

namespace VerifyFailure

def message : VerifyFailure → String
  | fault (.defect defect) => defect.message
  | fault .unscannable => "a line of code cannot be scanned for comments"
  | execution snippet failure => s!"snippet {snippet}: execution failed: {failure.message}"
  | brokenOff => "the program has broken off"
  | mismatch snippet difference => s!"snippet {snippet}: {difference.message}"

/-- Whether the author of the challenge has to mend its source. -/
def isDefect : VerifyFailure → Bool
  | fault (.defect _) => true
  | fault .unscannable | execution .. | brokenOff | mismatch .. => false

end VerifyFailure

def Snippet.evaluate (s : Snippet) (adapter : Adapter) (limits : Limits) (bindings : Bindings) :
    Traced (Except VerifyFailure (List Json)) :=
  s.transformWatched.bind fun
    | .error fault => .pure (.error (.fault fault))
    | .ok script =>
      (adapter.execute limits bindings script).bind fun
        | none => .pure (.error .brokenOff)
        | some (.error failure) => .pure (.error (.execution s.id failure))
        | some (.ok values) => .pure (.ok values)

structure Report where
  snippetId : String
  dialect : Dialect
  digest : String
  expected : List Json
  actual : List Json

def Report.data (r : Report) : List (String × Json) :=
  [("snippet_id", .string r.snippetId), ("language", .string r.dialect.tag), ("digest", .string r.digest),
    ("expected", .array r.expected), ("actual", .array r.actual)]

/-- An event, with the snippet in whose span of time it occurs. -/
structure Logged where
  event : Event
  span : Option (String × Dialect)

namespace Challenge

def judge (c : Challenge) (actual : List Json) : Except VerifyFailure Report :=
  match mismatch? c.expected actual with
  | none => .ok ⟨c.id, c.dialect, c.snippet.digest, c.expected, actual⟩
  | some difference => .error (.mismatch c.id difference)

def verificationEvent (c : Challenge) (actual : List Json) : Event :=
  .verificationFinished c.id c.answers.length actual.length (mismatch? c.expected actual).isNone

def verify (c : Challenge) (adapter : Adapter) (limits : Limits) :
    List Logged × Except VerifyFailure Report :=
  match c.key with
  | .error defect => ([], .error (.fault (.defect defect)))
  | .ok _ =>
    let evaluation := c.snippet.evaluate adapter limits c.bindings
    let events := evaluation.events.map fun event ↦ ⟨event, some (c.id, c.dialect)⟩
    match evaluation.value with
    | .error failure => (events, .error failure)
    | .ok actual => (events ++ [⟨c.verificationEvent actual, none⟩], c.judge actual)

end Challenge
end AnswerKey
