import AnswerKey.Challenge.Verification
import AnswerKey.Settings.Fields

namespace AnswerKey

/-- A tag as data: alone, or as the one key of a table with nothing in it. -/
def Dialect.ofToml? : Toml → Option Dialect
  | .string tag => ofTag? tag
  | .table [(tag, .table [])] | .table [(tag, .array [])] => ofTag? tag
  | _ => none

def bindingsOf? (v : Toml) : Option Bindings :=
  v.asEntries?.map fun entries ↦ Json.sortFields (Toml.entriesToJson entries)

namespace Challenge

def ofEntries? (entries : List (String × Toml)) : Option Challenge := do
  return {
    id := ← Toml.required? entries "id" Toml.asString?
    dialect := ← Toml.required? entries "language" Dialect.ofToml?
    source := (← Toml.required? entries "source" Toml.asString?).toList
    answers := ← Toml.optional? entries "answers" [] Toml.asStrings?
    bindings := ← Toml.optional? entries "bindings" [] bindingsOf? }

def read? (text : List Char) : Option Challenge := (Toml.parse? text).bind ofEntries?

end Challenge
end AnswerKey
