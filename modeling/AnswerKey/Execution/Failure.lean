import AnswerKey.Dialect.Basic

namespace AnswerKey

inductive RunFailure where
  | timedOut (limit : Nat)
  /-- The runtime ended with another exit code than zero, or without one because of a signal. -/
  | exited (code : Option Int) (stderr : String)
  | missingProgram (program : String)
  | malformedOutput (reason : String)
  | tooManyValues (produced limit : Nat)
  | tooMuchOutput (limit : Nat)
  | unstageable (reason : String)
  | noAdapter (dialect : Dialect)
  | invalidLimits (reason : String)
  | system (reason : String)
deriving DecidableEq

namespace RunFailure

def message : RunFailure → String
  | timedOut limit => s!"execution timed out after {limit}ms"
  | exited (some code) stderr => s!"runtime exited with exit code {code}: {stderr}"
  | exited none stderr => s!"runtime exited with a signal: {stderr}"
  | missingProgram program => s!"runtime program not available: {program}"
  | malformedOutput reason => s!"malformed runtime output: {reason}"
  | tooManyValues produced limit => s!"script produced {produced} values (limit {limit})"
  | tooMuchOutput limit => s!"runtime output exceeded {limit} bytes"
  | unstageable reason => s!"script cannot be staged: {reason}"
  | noAdapter dialect => s!"no execution adapter registered for {dialect.tag}"
  | invalidLimits reason => s!"invalid execution configuration: {reason}"
  | system reason => s!"io error: {reason}"

def notPositive (field : String) : RunFailure := invalidLimits s!"{field} must be greater than zero"

end RunFailure

/-- Milliseconds, collected values and bytes of output that a run may take. -/
structure Limits where
  timeout : Nat := 5000
  maxValues : Nat := 10000
  maxOutput : Nat := 1048576
deriving DecidableEq

def Limits.validate (limits : Limits) : Except RunFailure Unit :=
  if limits.timeout = 0 then .error (.notPositive "timeout_ms")
  else if limits.maxValues = 0 then .error (.notPositive "max_values")
  else if limits.maxOutput = 0 then .error (.notPositive "max_output_bytes")
  else .ok ()

end AnswerKey
