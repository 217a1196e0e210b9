import AnswerKey.Code.Literal

namespace AnswerKey.Answer

open Text Code

def unescape : Char → Char
  | 'n' => '\n'
  | 't' => '\t'
  | c => c

def content? : List Char → Option (List Char)
  | [] => some []
  | [c] => if c = backslash then none else some [c]
  | c :: d :: text =>
    if c = backslash then (content? text).map (unescape d :: ·) else (content? (d :: text)).map (c :: ·)

def singleQuoted? : List Char → Option (List Char)
  | c :: text => if c = singleQuote then (before? [singleQuote] text).bind content? else none
  | [] => none

end AnswerKey.Answer
