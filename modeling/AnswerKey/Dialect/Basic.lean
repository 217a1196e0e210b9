import AnswerKey.Text.Blank

namespace AnswerKey

inductive Dialect where
  | java
  | javaScript
  | python
deriving DecidableEq, Repr

namespace Dialect

def all : List Dialect := [java, javaScript, python]

def tag : Dialect → String
  | java => "java"
  | javaScript => "javascript"
  | python => "python"

def ofTag? : String → Option Dialect
  | "java" => some java
  | "javascript" | "js" | "node" => some javaScript
  | "python" | "py" => some python
  | _ => none

def normalizeTag (text : String) : String :=
  .ofList ((Text.trim text.toList).map Char.toLower)

end Dialect
end AnswerKey
