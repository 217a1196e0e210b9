import AnswerKey.Text.Search

namespace AnswerKey.Text

/-- The lines of the text that begins with `c`, given whether the text after `c` begins with a line feed, and
that text's lines. A carriage return before a line feed belongs to the line end. -/
def consLine (c : Char) : Bool × List Line → Bool × List Line
  | (atLineFeed, lines) =>
    if c = '\n' then (true, [] :: lines)
    else if c = '\r' ∧ atLineFeed then (false, lines)
    else
      match lines with
      | [] => (false, [[c]])
      | line :: lines => (false, (c :: line) :: lines)

/-- Lines end at line feeds; a line feed at the very end opens no further line. -/
def linesOf (text : List Char) : List Line := (text.foldr consLine (false, [])).2

def joinLines (lines : List Line) : List Char := join ['\n'] lines

def sharedStart : List Char → List Char → List Char
  | a :: s, b :: t => if a = b then a :: sharedStart s t else []
  | _, _ => []

/-- The longest blank text that every line with something on it begins with. -/
def sharedIndentation (lines : List Line) : Line :=
  match (lines.filter (!isBlankLine ·)).map indentation with
  | [] => []
  | blanks :: others => others.foldl sharedStart blanks

/-- The lines without the indentation they share; blank lines come out empty. -/
def dedent (lines : List Line) : List Line :=
  let shared := sharedIndentation lines
  lines.map fun line ↦ if isBlankLine line then [] else (after? shared line).getD line

end AnswerKey.Text
