import AnswerKey.Code.Literal
import AnswerKey.Text.Word

namespace AnswerKey.Answer.PythonContainer

open Text Code

inductive State where
  | word (read : List Char)
  | double (escaped : Bool)
  | single (escaped : Bool)
deriving DecidableEq

def jsonWord (word : List Char) : List Char :=
  if word = "True".toList then "true".toList
  else if word = "False".toList then "false".toList
  else if word = "None".toList then "null".toList
  else word

def isWordPart (c : Char) : Bool := isAlphanumeric c || c == '_'

def step : State → Char → State × List Char
  | .word read, c =>
    if isWordPart c then (.word (read ++ [c]), [])
    else if c = doubleQuote then (.double false, jsonWord read ++ [doubleQuote])
    else if c = singleQuote then (.single false, jsonWord read ++ [doubleQuote])
    else (.word [], jsonWord read ++ [c])
  | .double true, c => (.double false, [c])
  | .double false, c =>
    if c = backslash then (.double true, [c])
    else if c = doubleQuote then (.word [], [c])
    else (.double false, [c])
  | .single true, c => (.single false, if c = singleQuote then [c] else [backslash, c])
  | .single false, c =>
    if c = backslash then (.single true, [])
    else if c = doubleQuote then (.single false, [backslash, c])
    else if c = singleQuote then (.word [], [doubleQuote])
    else (.single false, [c])

def finish : State → List Char
  | .word read => jsonWord read
  | .single true => [backslash]
  | .double _ | .single false => []

def run (state : State) : List Char → List Char
  | [] => finish state
  | c :: text =>
    let (state, out) := step state c
    out ++ run state text

def toJson (text : List Char) : List Char := run (.word []) text

end AnswerKey.Answer.PythonContainer
