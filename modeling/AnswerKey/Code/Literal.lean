import AnswerKey.Text.Search

namespace AnswerKey.Code

abbrev doubleQuote : Char := '\x22'
abbrev singleQuote : Char := '\x27'
abbrev backQuote : Char := '\x60'
abbrev backslash : Char := '\x5C'

def isQuote (c : Char) : Bool := c == doubleQuote || c == singleQuote || c == backQuote

/-- Whether the next character is read as code or as part of a literal, there perhaps after a backslash. -/
inductive Mode where
  | code
  | literal (quote : Char) (escaped : Bool)
deriving DecidableEq

def Mode.next : Mode → Char → Mode
  | .code, c => if isQuote c then .literal c false else .code
  | .literal quote true, _ => .literal quote false
  | .literal quote false, c =>
    if c = backslash then .literal quote true else if c = quote then .code else .literal quote false

def Mode.after (mode : Mode) (text : List Char) : Mode := text.foldl Mode.next mode

end AnswerKey.Code
