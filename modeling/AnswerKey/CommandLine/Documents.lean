import AnswerKey.Json.Basic
import AnswerKey.Script.Basic
import AnswerKey.Snippet.Outputs

namespace AnswerKey

def Json.optional {α : Type} (toJson : α → Json) : Option α → Json
  | some a => toJson a
  | none => null

def Json.lines (lines : List Text.Line) : Json := .array (lines.map text)

def EditKind.tag : EditKind → String
  | entryPoint => "entry_point"
  | outputCall => "output_call"
  | blockEnd => "block_end"

def Edit.data (e : Edit) : List (String × Json) :=
  [("line", .nat e.line), ("kind", .string e.kind.tag), ("original", .text e.source),
    ("emitted", .lines e.emitted)]

def Script.data (s : Script) : List (String × Json) :=
  [("snippet_id", .string s.snippetId), ("language", .string s.dialect.tag), ("text", .text s.text),
    ("collector", .text collectorName), ("entry_symbol", .string s.entrySymbol),
    ("collector_line", .nat s.collectorLine), ("line_origins", .array (s.origins.map (Json.optional .nat))),
    ("appended_calls", .nat s.appendedCalls)]

def Output.data (o : Output) : List (String × Json) :=
  [("line", .nat o.line), ("prefix", .text o.opening), ("expression", .text o.expression)]

end AnswerKey
