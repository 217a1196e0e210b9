import AnswerKey.Dialect.Grammar

namespace AnswerKey.JavaScript

open Text Code Reading

def entryPoint : Marker where
  role := .entryPoint
  read? line :=
    let text := optionalKeyword "async" (trimStart line)
    heading? line (((keyword? "function" text).bind (after? "main".toList)).bind openParen?)

def isNameChar (c : Char) : Bool := isWord c || c == '$'

def functionWord? (text : Line) : Option Line :=
  (after? "function".toList text).bind fun text ↦ blanks? ((after? ['*'] text).getD text)

def introduction? (text : Line) : Option Line :=
  ((keyword? "async" text).bind functionWord?).or <|
    (functionWord? text).or <| ["const", "let", "var"].findSome? (keyword? · text)

def parameters? (text : Line) : Option Line :=
  match text with
  | '(' :: inner => (cut? [')'] inner).map Prod.snd
  | _ => (run? isNameChar text).map Prod.snd

def arrow? (text : Line) : Option Line :=
  (parameters? text).bind fun text ↦ after? ['=', '>'] (trimStart text)

/-- What makes a name a function's name: its parameters, or an arrow function that it is bound to. -/
def functionRest? (text : Line) : Option Line :=
  match trimStart text with
  | '(' :: rest => some rest
  | '=' :: rest =>
    let text := trimStart rest
    ((after? "async".toList text).bind fun text ↦ arrow? (trimStart text)).or (arrow? text)
  | _ => none

def functionHeading? (line : Line) : Option Heading :=
  (introduction? (optionalKeyword "export" (trimStart line))).bind fun text ↦
    (run? isNameChar text).bind fun (name, rest) ↦
      (functionRest? rest).map fun rest ↦ ⟨upTo line rest, some name, none⟩

def functionStart : Marker where
  role := .functionStart
  read? line := (functionHeading? line).filter fun heading ↦ heading.name ≠ some "main".toList

def closingLine : Marker where
  role := .blockEnd
  read? line :=
    match trimStart line with
    | '\x7d' :: rest =>
      let rest := trimStart rest
      if isBlankLine ((after? [';'] rest).getD rest) then some ⟨line, none, none⟩ else none
    | _ => none

def initializer : Line := "[]".toList

def declaration : Template := [.text "const ", .collector, .text " = ", .initializer, .text "; "]

def instrumentEntry (line : Line) : Line :=
  if '\n' ∈ trimStart line then line
  else indentation line ++ declaration.fill initializer [] ++ trimStart line

/-- A lone argument as it is; several are joined with blanks, as they are printed. -/
def collectedValue (args : Line) : Line :=
  let joined (args : List Line) := '[' :: join ", ".toList args ++ "].join(' ')".toList
  match splitArguments args with
  | [] => [singleQuote, singleQuote]
  | [arg] => if startsWith arg "...".toList then joined [arg] else arg
  | args => joined args

def grammar : Grammar where
  dialect := .javaScript
  functionStart := functionStart
  entryPoint := entryPoint
  blockEnd := .aligned closingLine
  outputCalls := ["console.log(".toList]
  comments := ⟨['/', '/'], some (['/', '*'], ['*', '/'])⟩
  collector :=
    { initializer := initializer
      instrumentEntry := fun line ↦ [instrumentEntry line]
      append := [.collector, .text ".push(", .expression, .text ");"]
      value := collectedValue
      returning := some [.text "return ", .collector, .text ";"]
      entrySymbol := "main" }

end AnswerKey.JavaScript
