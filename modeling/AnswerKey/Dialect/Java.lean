import AnswerKey.Dialect.Grammar

namespace AnswerKey.Java

open Text Code Reading

def collectorType : Line := "java.util.List<Object>".toList

def entryHead? (line : Line) : Option Line :=
  (keyword? "public" (trimStart line)).bind (keyword? "static")

def afterMain? (text : Line) : Option Line :=
  ((keyword? "void" text).bind (after? "main".toList)).bind openParen?

def entryPoint : Marker where
  role := .entryPoint
  read? line := heading? line ((entryHead? line).bind afterMain?)

def leadingModifiers : (fuel : Nat) → Line → Line
  | 0, text => text
  | fuel + 1, text =>
    match ["public", "private", "protected", "final", "synchronized"].findSome? (keyword? · text) with
    | some rest => leadingModifiers fuel rest
    | none => text

/-- Every way to skip modifiers after `static`, the most of them first: a type may be called like one. -/
def modifierRests : (fuel : Nat) → Line → List Line
  | 0, text => [text]
  | fuel + 1, text =>
    match ["final", "synchronized"].findSome? (keyword? · text) with
    | some rest => modifierRests fuel rest ++ [text]
    | none => [text]

/-- Every rest after type arguments, the longest arguments first; they hold no parentheses. -/
def typeArgumentRests : Line → List Line
  | [] => []
  | c :: text =>
    if c = '(' ∨ c = ')' then []
    else if c = '>' then typeArgumentRests text ++ [text]
    else typeArgumentRests text

def skipArrayBrackets : (fuel : Nat) → Line → Line
  | 0, text => text
  | fuel + 1, text =>
    match after? ['[', ']'] (trimStart text) with
    | some rest => skipArrayBrackets fuel rest
    | none => text

def isTypeChar (c : Char) : Bool := isWord c || c == '.'

def typeRests (text : Line) : List Line :=
  match run? isTypeChar text with
  | none => []
  | some (_, rest) =>
    let named :=
      match after? ['<'] (trimStart rest) with
      | some inner => typeArgumentRests inner
      | none => [rest]
    named.map fun rest ↦ skipArrayBrackets rest.length rest

def declaredName? (text : Line) : Option (Line × Line) :=
  (blanks? text).bind fun text ↦ (run? isWord text).bind fun (name, rest) ↦
    (openParen? rest).map fun rest ↦ (name, rest)

def declaration? (text : Line) : Option (Line × Line × Line) :=
  (typeRests text).findSome? fun rest ↦
    (declaredName? rest).map fun (name, afterName) ↦ (upTo text rest, name, afterName)

def methodHeading? (line : Line) : Option Heading :=
  let text := trimStart line
  (keyword? "static" (leadingModifiers text.length text)).bind fun rest ↦
    ((modifierRests rest.length rest).findSome? declaration?).map fun (type, name, rest) ↦
      ⟨upTo line rest, some name, some type⟩

def functionStart : Marker where
  role := .functionStart
  read? line := (methodHeading? line).filter fun heading ↦ heading.name ≠ some "main".toList

def closingLine : Marker where
  role := .blockEnd
  read? line :=
    match trimStart line with
    | '\x7d' :: rest => if isBlankLine rest then some ⟨line, none, none⟩ else none
    | _ => none

def className? (line : Line) : Option Line :=
  let text := optionalKeyword "final" (optionalKeyword "public" (trimStart line))
  ((keyword? "class" text).bind (run? isWord)).map Prod.fst

def initializer : Line := "new java.util.ArrayList<>()".toList

def declaration : Template :=
  [.text "static ", .text "java.util.List<Object> ", .collector, .text " = ", .initializer, .text "; "]

/-- The collector declared in front of `main`, and the list type in place of its `void`. -/
def instrumentEntry (line : Line) : Line :=
  match entryHead? line with
  | none => line
  | some text =>
    match after? "void".toList text, afterMain? text with
    | some rest, some params =>
      if '\n' ∈ params then line
      else indentation line ++ declaration.fill initializer [] ++
        trimStart (upTo line text) ++ collectorType ++ rest
    | _, _ => line

/-- Every output call takes one argument at most, so the text is kept whole; none prints an empty line. -/
def collectedValue (args : Line) : Line :=
  match trim args with
  | [] => [doubleQuote, doubleQuote]
  | args => args

def grammar : Grammar where
  dialect := .java
  functionStart := functionStart
  entryPoint := entryPoint
  blockEnd := .aligned closingLine
  outputCalls := ["System.out.println(".toList, "printArray(".toList, "printList(".toList]
  comments := ⟨['/', '/'], some (['/', '*'], ['*', '/'])⟩
  collector :=
    { initializer := initializer
      instrumentEntry := fun line ↦ [instrumentEntry line]
      append := [.collector, .text ".add(", .expression, .text ");"]
      value := collectedValue
      returning := some [.text "return ", .collector, .text ";"]
      entrySymbol := "main" }

end AnswerKey.Java
