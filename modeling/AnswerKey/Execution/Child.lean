import AnswerKey.Execution.Staging
import AnswerKey.Json.Reader
import AnswerKey.Text.Lines
import AnswerKey.Text.Utf8

namespace AnswerKey

open Text

/-- What becomes of a count that no word holds. The program breaks off if such counts are checked, else they start
over at zero. -/
inductive Overflow where
  | breaks
  | wraps
deriving DecidableEq

def wordSize : Nat := 0x10000000000000000

def Overflow.next? (overflow : Overflow) (n : Nat) : Option Nat :=
  if n + 1 < wordSize then some (n + 1)
  else
    match overflow with
    | .breaks => none
    | .wraps => some ((n + 1) % wordSize)

structure Start where
  command : Command
  files : List (String × List Char)

def Staging.starts (staging : Staging) : List Start := staging.commands.map (⟨·, staging.files⟩)

/-- How starting a command goes. A process ends with an exit code, or without one because of a signal; the program is
busy with it for so many milliseconds. -/
inductive Launch where
  | notFound
  | refused (reason : String)
  | ended (stdout stderr : List UInt8) (code : Option Int) (delay : Nat)

abbrev Host := Start → Launch

def stderrLimit : Nat := 16384

def keptStderr (stderr : List UInt8) : List Char := trimEnd (decode (stderr.take stderrLimit))

/-- A failure that a full collector caused is reported as one value too many. -/
def exitFailure? (overflow : Overflow) (maxValues : Nat) (code : Option Int) (stderr : List Char) : Option RunFailure :=
  if contains stderr Launcher.valueLimitMarker.toList then (overflow.next? maxValues).map (.tooManyValues · maxValues)
  else some (.exited code (.ofList stderr))

structure Capture where
  delay : Nat := 0
  result : Option (Except RunFailure (List UInt8))

/-- Reads the output of a command up to one byte more than the limit. Too much of it counts before the exit code. -/
def Start.capture (overflow : Overflow) (limits : Limits) (host : Host) (start : Start) : Capture :=
  match host start with
  | .notFound => { result := some (.error (.missingProgram start.command.program)) }
  | .refused reason => { result := some (.error (.system reason)) }
  | .ended stdout stderr code delay =>
    match overflow.next? limits.maxOutput with
    | none => { result := none }
    | some most =>
      let captured := stdout.take most
      { delay
        result :=
          if limits.maxOutput < captured.length then some (.error (.tooMuchOutput limits.maxOutput))
          else if code = some 0 then some (.ok captured)
          else (exitFailure? overflow limits.maxValues code (keptStderr stderr)).map .error }

structure Session where
  started : List Start
  delay : Nat
  result : Option (Except RunFailure (List UInt8))

def runStarts (overflow : Overflow) (limits : Limits) (host : Host) (output : List UInt8) : List Start → Session
  | [] => ⟨[], 0, some (.ok output)⟩
  | start :: starts =>
    let capture := start.capture overflow limits host
    match capture.result with
    | some (.ok output) =>
      let rest := runStarts overflow limits host output starts
      ⟨start :: rest.started, capture.delay + rest.delay, rest.result⟩
    | some (.error failure) => ⟨[start], capture.delay, some (.error failure)⟩
    | none => ⟨[start], capture.delay, none⟩

/-- What stands after the sentinel on the last line that begins with it. -/
def payload? (lines : List Line) : Option Line :=
  lines.reverse.findSome? (after? Launcher.sentinel.toList)

def collectedValues (stdout : List UInt8) : Except RunFailure (List Json) :=
  match payload? (linesOf (decode stdout)) with
  | none => .error (.malformedOutput "no result line in runtime output")
  | some payload =>
    match Json.parse? (trim payload) with
    | some (.array values) => .ok values
    | some .null => .ok []
    | some other => .error (.malformedOutput ("expected a list of values, got " ++ .ofList other.compact))
    | none => .error (.malformedOutput Json.complaint)

def runDirectory : String := "\x7bdir\x7d"

structure ChildRun where
  started : List Start
  delay : Nat
  outcome : Option (Except RunFailure (List Json))

section

variable (overflow : Overflow) (programs : Programs) (limits : Limits) (host : Host)

def Script.runChildren (script : Script) (bindings : Bindings) : ChildRun :=
  match script.stage bindings limits.maxValues programs runDirectory with
  | .error failure => ⟨[], 0, some (.error failure)⟩
  | .ok staging =>
    let session := runStarts overflow limits host [] staging.starts
    ⟨session.started, session.delay, session.result.map fun result ↦ result.bind collectedValues⟩

def childAdapter (dialect : Dialect) : Adapter where
  dialect
  run script bindings :=
    let run := script.runChildren overflow programs limits host bindings
    { delay := run.delay, events := script.stagingEvents bindings, outcome := run.outcome }

def childRegistry : Registry := .ofAdapters (Dialect.all.map (childAdapter overflow programs limits host))

end

end AnswerKey
