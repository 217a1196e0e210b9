import AnswerKey.Snippet.Basic
import AnswerKey.Text.Search

namespace AnswerKey.CommandLine

open Text

/-- The last part of a path, unless that leads upwards or there is none. -/
def fileName? (path : String) : Option (List Char) :=
  match ((splitOn '/' path.toList).filter fun part ↦ part ≠ [] ∧ part ≠ ['.']).getLast? with
  | some part => if part = ['.', '.'] then none else some part
  | none => none

/-- A name before and after its last point; a point in front of all is part of the name. -/
def splitExtension (name : List Char) : List Char × Option (List Char) :=
  match cut? ['.'] name.reverse with
  | none => (name, none)
  | some (extension, stem) => if stem.isEmpty then (name, none) else (stem.reverse, some extension.reverse)

def stem (path : String) : String :=
  match fileName? path with
  | some name => .ofList (splitExtension name).1
  | none => path

def dialectOf? (path : String) : Option Dialect :=
  match (fileName? path).bind fun name ↦ (splitExtension name).2 with
  | none => none
  | some extension =>
    match String.ofList extension with
    | "java" => some .java
    | "js" | "mjs" | "cjs" => some .javaScript
    | "py" => some .python
    | _ => none

end AnswerKey.CommandLine
