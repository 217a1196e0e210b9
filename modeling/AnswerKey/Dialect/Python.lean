import AnswerKey.Dialect.Grammar

namespace AnswerKey.Python

open Text Code Reading

def functionStart : Marker where
  role := .functionStart
  read? line :=
    (keyword? "def" (optionalKeyword "async" (trimStart line))).bind fun text ↦
      (run? isWord text).bind fun (name, rest) ↦
        (openParen? rest).map fun rest ↦ ⟨upTo line rest, some name, none⟩

def mainName? (text : Line) : Option Line :=
  (after? "\x22__main__\x22".toList text).or (after? "'__main__'".toList text)

def entryPoint : Marker where
  role := .entryPoint
  read? line :=
    (keyword? "if" (trimStart line)).bind fun text ↦
    (after? "__name__".toList text).bind fun text ↦
    (after? ['=', '='] (trimStart text)).bind fun text ↦
    (mainName? (trimStart text)).bind fun text ↦
    (after? [':'] (trimStart text)).bind fun text ↦
      match trimStart text with
      | [] => some ⟨line, none, none⟩
      | '#' :: comment => if '\n' ∈ comment then none else some ⟨line, none, none⟩
      | _ => none

def initializer : Line := "[]".toList

def declaration : Template := [.collector, .text " = ", .initializer]

def instrumentEntry (line : Line) : List Line :=
  [indentation line ++ declaration.fill initializer [], line]

/-- The keyword arguments of `print` that shape the output but print nothing. -/
def printKeywords : List Line := ["sep".toList, "end".toList, "file".toList, "flush".toList]

def printKeyword? (arg : Line) : Option (Line × Line) :=
  match cut? ['='] arg with
  | none => none
  | some (name, value) =>
    if startsWith value ['='] ∨ trim name ∉ printKeywords then none else some (trim name, trim value)

def printArguments (args : Line) : Option Line × List Line :=
  (splitArguments args).foldl
    (fun (sep, positional) arg ↦
      match printKeyword? arg with
      | some (name, value) => (if name = "sep".toList then some value else sep, positional)
      | none => (sep, positional ++ [arg]))
    (none, [])

/-- A lone argument as it is; several are joined to the text that `print` writes. -/
def collectedValue (args : Line) : Line :=
  let (sep, positional) := printArguments args
  let joined (args : List Line) :=
    '(' :: sep.getD "' '".toList ++ ").join(map(str, (".toList ++ join ", ".toList args ++ ",)))".toList
  match positional with
  | [] => [singleQuote, singleQuote]
  | [arg] => if startsWith arg ['*'] then joined [arg] else arg
  | args => joined args

def grammar : Grammar where
  dialect := .python
  functionStart := functionStart
  entryPoint := entryPoint
  blockEnd := .dedent
  outputCalls := ["print(".toList]
  comments := ⟨['#'], none⟩
  collector :=
    { initializer := initializer
      instrumentEntry := instrumentEntry
      append := [.collector, .text ".append(", .expression, .text ")"]
      value := collectedValue
      returning := none
      entrySymbol := "answers" }

end AnswerKey.Python
