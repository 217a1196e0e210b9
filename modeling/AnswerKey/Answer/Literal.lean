import AnswerKey.Answer.PythonContainer
import AnswerKey.Answer.Quoted
import AnswerKey.Dialect.Basic
import AnswerKey.Json.Reader

namespace AnswerKey.Answer

open Text Code

namespace Java

/-- The escapes of character literals that are resolved; others stay as they are written. -/
def charEscapes : List (Char × Char) :=
  [('n', '\n'), ('t', '\t'), (singleQuote, singleQuote), (backslash, backslash)]

def charLiteral? : List Char → Option (List Char)
  | [a, c, b] =>
    if a = singleQuote ∧ b = singleQuote ∧ c ≠ singleQuote ∧ c ≠ backslash then some [c] else none
  | [a, e, c, b] =>
    if a = singleQuote ∧ b = singleQuote ∧ e = backslash ∧ c ≠ '\n' then
      some (((charEscapes.lookup c).map ([·])).getD [e, c])
    else none
  | _ => none

def suffixedNumber? (text : List Char) : Option Json :=
  match text.getLast? with
  | none => none
  | some c =>
    if c ∈ ['L', 'l', 'f', 'F', 'd', 'D'] then
      match Json.parse? text.dropLast with
      | some (.number n) => some (.number n)
      | _ => none
    else none

def value? (text : List Char) : Option Json :=
  ((charLiteral? text).map Json.text).or (suffixedNumber? text)

end Java

namespace JavaScript

def value? (text : List Char) : Option Json :=
  if text = "undefined".toList then some .null else (singleQuoted? text).map Json.text

end JavaScript

namespace Python

def keyword? (text : List Char) : Option Json :=
  if text = "True".toList then some (.bool true)
  else if text = "False".toList then some (.bool false)
  else if text = "None".toList then some .null
  else none

def between? (opener closer : Char) (text : List Char) : Option (List Char) :=
  (after? [opener] text).bind (before? [closer])

def dropCommas (text : List Char) : List Char :=
  (text.reverse.dropWhile fun c ↦ c == ',' || c == ' ').reverse

/-- A list, or a tuple, which a comma tells from an expression in parentheses. -/
def container? (text : List Char) : Option Json :=
  if (between? '[' ']' text).isSome then Json.parse? (PythonContainer.toJson text)
  else
    match between? '(' ')' text with
    | none => none
    | some inner =>
      if ',' ∈ inner then Json.parse? ('[' :: dropCommas (PythonContainer.toJson inner) ++ [']']) else none

def value? (text : List Char) : Option Json :=
  (keyword? text).or (((singleQuoted? text).map Json.text).or (container? text))

end Python

def dialectValue? : Dialect → List Char → Option Json
  | .java => Java.value?
  | .javaScript => JavaScript.value?
  | .python => Python.value?

def read (dialect : Dialect) (literal : List Char) : Json :=
  let text := trim literal
  match dialectValue? dialect text with
  | some value => value
  | none => (Json.parse? text).getD (Json.text text)

end AnswerKey.Answer
