import AnswerKey.Execution.Staging
import AnswerKey.Settings.Fields

namespace AnswerKey

structure Configuration where
  limits : Limits := {}
  programs : Programs := {}
  maxConcurrent : Nat := 4
deriving DecidableEq

inductive SettingsFailure where
  | malformed
  | invalid (failure : RunFailure)
deriving DecidableEq

def Limits.ofToml? (v : Toml) : Option Limits := do
  let entries ← v.asRecord? ["timeout_ms", "max_values", "max_output_bytes"]
  let d : Limits := {}
  return {
    timeout := ← Toml.optional? entries "timeout_ms" d.timeout Toml.asNat?
    maxValues := ← Toml.optional? entries "max_values" d.maxValues Toml.asNat?
    maxOutput := ← Toml.optional? entries "max_output_bytes" d.maxOutput Toml.asNat? }

def Programs.ofToml? (v : Toml) : Option Programs := do
  let entries ← v.asRecord? ["python", "node", "java", "javac"]
  let d : Programs := {}
  return {
    python := ← Toml.optional? entries "python" d.python Toml.asString?
    node := ← Toml.optional? entries "node" d.node Toml.asString?
    java := ← Toml.optional? entries "java" d.java Toml.asString?
    javac := ← Toml.optional? entries "javac" d.javac Toml.asString? }

namespace Configuration

def ofEntries? (entries : List (String × Toml)) : Option Configuration := do
  let d : Configuration := {}
  return {
    limits := ← Toml.optional? entries "execution" d.limits Limits.ofToml?
    programs := ← Toml.optional? entries "runtimes" d.programs Programs.ofToml?
    maxConcurrent := ← Toml.optional? entries "max_concurrent" d.maxConcurrent Toml.asNat? }

def validate (c : Configuration) : Except RunFailure Unit := do
  c.limits.validate
  if c.maxConcurrent = 0 then throw (.notPositive "max_concurrent")

def read (text : List Char) : Except SettingsFailure Configuration :=
  match (Toml.parse? text).bind ofEntries? with
  | none => .error .malformed
  | some c =>
    match c.validate with
    | .ok () => .ok c
    | .error failure => .error (.invalid failure)

end Configuration
end AnswerKey
