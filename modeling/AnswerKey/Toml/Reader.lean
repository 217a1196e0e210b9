import AnswerKey.Toml.Quoted
import AnswerKey.Toml.Scalar
import AnswerKey.Toml.Tables

namespace AnswerKey.Toml

open Text

abbrev Reader (α : Type) := List Char → Option (α × List Char)

def skipSpaces (text : List Char) : List Char := text.dropWhile isSpace

def isBareKey (c : Char) : Bool := c.isAlphanum || c == '_' || c == '-'

def keyPart? (text : List Char) : Option (String × List Char) :=
  match text with
  | [] => none
  | c :: _ =>
    if c = '\x22' ∨ c = '\x27' then lineString? text
    else
      match text.takeWhile isBareKey with
      | [] => none
      | key => some (.ofList key, text.dropWhile isBareKey)

def maxDepth : Nat := 79

def keyParts? : (fuel : Nat) → List String → List Char → Option ((List String × String) × List Char)
  | 0, _, _ => none
  | fuel + 1, path, text =>
    match keyPart? (skipSpaces text) with
    | none => none
    | some (key, rest) =>
      match skipSpaces rest with
      | '.' :: rest => keyParts? fuel (path ++ [key]) rest
      | rest => some ((path, key), rest)

def key? (text : List Char) : Option ((List String × String) × List Char) := keyParts? maxDepth [] text

def skipComment (text : List Char) : List Char :=
  match text with
  | '#' :: text => text.dropWhile isPlain
  | _ => text

theorem length_skipSpaces_le (text : List Char) : (skipSpaces text).length ≤ text.length :=
  (List.dropWhile_sublist _).length_le

theorem length_skipComment_le (text : List Char) : (skipComment text).length ≤ text.length := by
  unfold skipComment
  split
  · exact Nat.le_succ_of_le (List.dropWhile_sublist _).length_le
  · exact Nat.le_refl _

def skipBetween (text : List Char) : Option (List Char) :=
  match _ : newline? (skipComment (skipSpaces text)) with
  | some rest => skipBetween rest
  | none =>
    match skipSpaces text with
    | '#' :: _ => none
    | text => some text
termination_by text.length
decreasing_by
  have := length_of_newline? ‹_›
  have := length_skipComment_le (skipSpaces text)
  have := length_skipSpaces_le text
  omega

def lineEnd? (text : List Char) : Option (List Char) :=
  match skipComment (skipSpaces text) with
  | [] => some []
  | text => newline? text

def isWordChar (c : Char) : Bool := isBareKey c || c == '+' || c == '.' || c == ':'

/-- A word; a date may go on with a time after one blank. -/
def wordValue? (text : List Char) : Option (Toml × List Char) :=
  let word := text.takeWhile isWordChar
  let rest := text.dropWhile isWordChar
  match (date? word).map Prod.snd, rest with
  | some [], ' ' :: c :: more =>
    if c.isDigit then
      (word? (word ++ ' ' :: (c :: more).takeWhile isWordChar)).map fun v ↦
        (v, (c :: more).dropWhile isWordChar)
    else (word? word).map fun v ↦ (v, rest)
  | _, _ => (word? word).map fun v ↦ (v, rest)

def arrayItems? (item? : Reader Toml) : (fuel : Nat) → List Toml → Reader (List Toml)
  | 0, _, _ => none
  | fuel + 1, read, text => do
    match ← skipBetween text with
    | ']' :: rest => return (read.reverse, rest)
    | text =>
      let (item, rest) ← item? text
      match ← skipBetween rest with
      | ',' :: rest => arrayItems? item? fuel (item :: read) rest
      | ']' :: rest => return ((item :: read).reverse, rest)
      | _ => none

def pair? (value? : Reader Toml) (text : List Char) : Option ((List String × String × Toml) × List Char) := do
  let ((path, key), rest) ← key? text
  let rest ← after? ['='] rest
  let (v, rest) ← value? (skipSpaces rest)
  return ((path, key, v), rest)

/-- The pairs of an inline table, which stays on one line and does not end in a comma. -/
def inlinePairs? (value? : Reader Toml) :
    (fuel : Nat) → List (List String × String × Toml) → Reader (List (List String × String × Toml))
  | 0, _, _ => none
  | fuel + 1, read, text => do
    let (pair, rest) ← pair? value? text
    match skipSpaces rest with
    | ',' :: rest => inlinePairs? value? fuel (pair :: read) rest
    | '\x7d' :: rest => return ((pair :: read).reverse, rest)
    | _ => none

def inlineValue? (value? : Reader Toml) (text : List Char) : Option (Toml × List Char) :=
  match skipSpaces text with
  | '\x7d' :: rest => some (table [], rest)
  | _ => do
    let (pairs, rest) ← inlinePairs? value? text.length [] text
    return (← inlineTable? pairs, rest)

def value? (depth : Nat) (text : List Char) : Option (Toml × List Char) :=
  match text with
  | '[' :: rest =>
    match depth with
    | 0 => none
    | depth + 1 => (arrayItems? (value? depth) text.length [] rest).map fun (items, rest) ↦ (array items, rest)
  | '\x7b' :: rest =>
    match depth with
    | 0 => none
    | depth + 1 => inlineValue? (value? depth) rest
  | c :: _ =>
    if c = '\x22' ∨ c = '\x27' then (string? text).map fun (s, rest) ↦ (string s, rest) else wordValue? text
  | [] => none

def statement? (text : List Char) : Option (Statement × List Char) :=
  match text with
  | '[' :: '[' :: rest => do
    let ((path, key), rest) ← key? rest
    return (.element path key, ← lineEnd? (← after? [']', ']'] rest))
  | '[' :: rest => do
    let ((path, key), rest) ← key? rest
    return (.table path key, ← lineEnd? (← after? [']'] rest))
  | _ => do
    let ((path, key, v), rest) ← pair? (value? maxDepth) text
    return (.value path key v, ← lineEnd? rest)

def statements? : (fuel : Nat) → List Statement → List Char → Option (List Statement)
  | 0, _, _ => none
  | fuel + 1, read, text =>
    match skipSpaces text with
    | [] => some read.reverse
    | text =>
      match newline? (skipComment text) with
      | some rest => statements? fuel read rest
      | none =>
        if (skipComment text).isEmpty then some read.reverse
        else
          match statement? text with
          | some (statement, rest) => statements? fuel (statement :: read) rest
          | none => none

/-- The table that a document describes; a byte order mark in front of it does not count. -/
def parse? (text : List Char) : Option (List (String × Toml)) :=
  let text := (after? ['\uFEFF'] text).getD text
  (statements? (text.length + 1) [] text).bind build?

end AnswerKey.Toml
