import AnswerKey.Code.Literal

namespace AnswerKey.Code

open Text

def parenDepth (mode : Mode) (depth : Nat) (c : Char) : Nat :=
  if mode = .code then
    if c = '(' then depth + 1 else if c = ')' then depth - 1 else depth
  else depth

/-- The text up to the closing parenthesis that has no partner in it, and what follows that parenthesis. -/
def enclosed? (depth : Nat) (mode : Mode) : List Char → Option (List Char × List Char)
  | [] => none
  | c :: text =>
    if mode = .code ∧ c = ')' ∧ depth = 0 then some ([], text)
    else
      (enclosed? (parenDepth mode depth c) (mode.next c) text).map fun (inside, rest) ↦ (c :: inside, rest)

def fromByte? : Nat → List Char → Option (List Char)
  | 0, text => some text
  | _ + 1, [] => none
  | n + 1, c :: text => if c.utf8Size ≤ n + 1 then fromByte? (n + 1 - c.utf8Size) text else none

def balancedArgument? (text : List Char) (position : Nat) : Option (List Char) :=
  match fromByte? position text with
  | some ('(' :: rest) => (enclosed? 0 .code rest).map Prod.fst
  | _ => none

/-- Number of open brackets of any kind after a character; a closing bracket without a partner changes
nothing. -/
def bracketDepth (mode : Mode) (depth : Nat) (c : Char) : Nat :=
  if mode = .code then
    if c = '(' ∨ c = '[' ∨ c = '\x7b' then depth + 1
    else if c = ')' ∨ c = ']' ∨ c = '\x7d' then depth - 1
    else depth
  else depth

def segments (depth : Nat) (mode : Mode) : List Char → List (List Char)
  | [] => [[]]
  | c :: text =>
    if mode = .code ∧ c = ',' ∧ depth = 0 then [] :: segments depth mode text
    else
      match segments (bracketDepth mode depth c) (mode.next c) text with
      | [] => [[c]]
      | segment :: others => (c :: segment) :: others

def dropEmptyLast (pieces : List (List Char)) : List (List Char) :=
  if pieces.getLast? = some [] then pieces.dropLast else pieces

/-- The trimmed arguments of an argument text; a comma at its end adds none. -/
def splitArguments (args : List Char) : List (List Char) :=
  dropEmptyLast ((segments 0 .code args).map trim)

end AnswerKey.Code
