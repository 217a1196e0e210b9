import AnswerKey.Snippet.Block

namespace AnswerKey

open Text

inductive ReturnType where
  | int
  | long
  | double
  | boolean
  | char
  | string
  | void
  | intArray
  | doubleArray
  | booleanArray
  | charArray
  | stringArray
  | list
deriving DecidableEq

namespace ReturnType

/-- The type that a token stands for; blanks inside it do not count. -/
def ofToken? (token : Line) : Option ReturnType :=
  let compact := token.filter (!isBlank ·)
  if ["int", "Integer", "short", "Short", "byte", "Byte"].any (·.toList = compact) then some int
  else if ["long", "Long"].any (·.toList = compact) then some long
  else if ["double", "Double", "float", "Float"].any (·.toList = compact) then some double
  else if ["boolean", "Boolean"].any (·.toList = compact) then some boolean
  else if ["char", "Character"].any (·.toList = compact) then some char
  else if compact = "String".toList then some string
  else if compact = "void".toList then some void
  else if compact = "int[]".toList then some intArray
  else if compact = "double[]".toList then some doubleArray
  else if compact = "boolean[]".toList then some booleanArray
  else if compact = "char[]".toList then some charArray
  else if compact = "String[]".toList then some stringArray
  else if ["List<", "ArrayList<", "java.util.List<"].any (startsWith compact ·.toList) then some list
  else none

def isCollection : ReturnType → Bool
  | intArray | doubleArray | booleanArray | charArray | stringArray | list => true
  | int | long | double | boolean | char | string | void => false

def display : ReturnType → String
  | int => "int"
  | long => "long"
  | double => "double"
  | boolean => "boolean"
  | char => "char"
  | string => "String"
  | void => "void"
  | intArray => "int[]"
  | doubleArray => "double[]"
  | booleanArray => "boolean[]"
  | charArray => "char[]"
  | stringArray => "String[]"
  | list => "List"

def tag : ReturnType → String
  | int => "int"
  | long => "long"
  | double => "double"
  | boolean => "boolean"
  | char => "char"
  | string => "string"
  | void => "void"
  | intArray => "int_array"
  | doubleArray => "double_array"
  | booleanArray => "boolean_array"
  | charArray => "char_array"
  | stringArray => "string_array"
  | list => "list"

end ReturnType

def declaredType? (marker : Marker) : Nat → List Line → Option (Line × Nat)
  | _, [] => none
  | i, line :: lines =>
    match marker.read? line with
    | some heading => some (heading.type.getD [], i)
    | none => declaredType? marker (i + 1) lines

/-- The result type of the first static method other than `main`; only Java declares one. -/
def Snippet.returnType (s : Snippet) : Except Defect ReturnType :=
  if s.dialect ≠ .java then
    .error (.unsupportedLanguage s!"return-type inference is not available for {s.dialect.tag}")
  else
    match declaredType? s.grammar.functionStart 0 s.lines with
    | none => .error (.missingBoundary s.id .functionStart)
    | some (token, line) =>
      match ReturnType.ofToken? token with
      | some type => .ok type
      | none => .error (.unknownReturnType s.id token line)

end AnswerKey
