import AnswerKey.Answer.Equality
import AnswerKey.Json.Printer

namespace AnswerKey

/-- The first position where two lists of answers differ, and what stands there; at most one side is missing. -/
structure Mismatch where
  index : Nat
  expected : Option Json
  actual : Option Json

def Mismatch.message (m : Mismatch) : String :=
  let side : Option Json → String
    | some value => .ofList value.compact
    | none => "<missing>"
  s!"answer {m.index}: expected {side m.expected}, got {side m.actual}"

def mismatchFrom? (i : Nat) : (expected actual : List Json) → Option Mismatch
  | [], [] => none
  | [], a :: _ => some ⟨i, none, some a⟩
  | e :: _, [] => some ⟨i, some e, none⟩
  | e :: expected, a :: actual =>
    if e.same a then mismatchFrom? (i + 1) expected actual else some ⟨i, some e, some a⟩

def mismatch? (expected actual : List Json) : Option Mismatch := mismatchFrom? 0 expected actual

def comparisonData : Option Mismatch → List (String × Json)
  | none => [("result", .string "equal")]
  | some m =>
    [("result", .string "mismatch"), ("index", .nat m.index), ("expected", m.expected.getD .null),
      ("actual", m.actual.getD .null)]

end AnswerKey
