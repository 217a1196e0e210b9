import AnswerKey.Text.Search
import AnswerKey.Text.Word

namespace AnswerKey

open Text

inductive Role where
  | functionStart
  | entryPoint
  | blockEnd
deriving DecidableEq, Repr

def Role.label : Role → String
  | functionStart => "function-start"
  | entryPoint => "entry-point"
  | blockEnd => "block-end"

/-- The part of a line that a marker accounts for, with the name and the type it declares. -/
structure Heading where
  text : Line
  name : Option Line := none
  type : Option Line := none
deriving DecidableEq

structure Marker where
  role : Role
  read? : Line → Option Heading

namespace Marker

def accepts (marker : Marker) (line : Line) : Bool := (marker.read? line).isSome

def exactly (role : Role) (text : Line) : Marker where
  role
  read? line := if line = text then some ⟨text, none, none⟩ else none

def beginsWith (role : Role) (text : Line) : Marker where
  role
  read? line := if startsWith line text then some ⟨text, none, none⟩ else none

def containing (role : Role) (text : Line) : Marker where
  role
  read? line := if contains line text then some ⟨text, none, none⟩ else none

end Marker

namespace Reading

def blanks? : Line → Option Line
  | [] => none
  | c :: rest => if isBlank c then some (trimStart rest) else none

def keyword? (word : String) (text : Line) : Option Line := (after? word.toList text).bind blanks?

def optionalKeyword (word : String) (text : Line) : Line := (keyword? word text).getD text

def run? (p : Char → Bool) (text : Line) : Option (Line × Line) :=
  match text.takeWhile p with
  | [] => none
  | run => some (run, text.dropWhile p)

def openParen? (text : Line) : Option Line := after? ['('] (trimStart text)

def upTo (line rest : Line) : Line := line.take (line.length - rest.length)

def heading? (line : Line) (rest : Option Line) : Option Heading :=
  rest.map fun rest ↦ ⟨upTo line rest, none, none⟩

end Reading
end AnswerKey
