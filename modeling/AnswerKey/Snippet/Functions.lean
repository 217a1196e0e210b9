import AnswerKey.Snippet.Block

namespace AnswerKey

open Text

def dropBlankEnd (lines : List Line) : List Line := (lines.reverse.dropWhile isBlankLine).reverse

/-- From the first function on to the last line before the entry point that is not blank, moved to the left
margin. -/
def Snippet.functionLines (s : Snippet) : Except Fault (List Line) := do
  let head := s.lines.take (← s.entryLine)
  match firstIndex? s.grammar.functionStart head with
  | none => .error (.defect (.missingBoundary s.id .functionStart))
  | some start => .ok (dedent (dropBlankEnd (head.drop start)))

def Snippet.functionText (s : Snippet) : Except Fault (List Char) := s.functionLines.map joinLines

end AnswerKey
