namespace AnswerKey

def collectorName : List Char := "answers".toList

inductive Template.Part where
  | text (s : String)
  | collector
  | initializer
  | expression

abbrev Template := List Template.Part

namespace Template

def fill (template : Template) (initializer expression : List Char) : List Char :=
  template.flatMap fun
    | .text s => s.toList
    | .collector => collectorName
    | .initializer => initializer
    | .expression => expression

def notated (template : Template) : List Char :=
  template.flatMap fun
    | .text s => s.toList
    | .collector => "\x7bcollector\x7d".toList
    | .initializer => "\x7binit\x7d".toList
    | .expression => "\x7bexpr\x7d".toList

end Template
end AnswerKey
