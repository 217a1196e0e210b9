import AnswerKey.Json.Reader
import AnswerKey.Text.Search

namespace AnswerKey.Toml

open Text

def isPlain (c : Char) : Bool := c == '\t' || (0x20 ≤ c.toNat && c.toNat != 0x7F)

def isSpace (c : Char) : Bool := c == ' ' || c == '\t'

def newline? : List Char → Option (List Char)
  | '\n' :: text => some text
  | '\r' :: '\n' :: text => some text
  | _ => none

theorem length_of_newline? {text rest : List Char} (h : newline? text = some rest) :
    rest.length < text.length := by
  unfold newline? at h
  split at h <;> simp only [Option.some.injEq, reduceCtorEq] at h <;> subst h <;>
    simp only [List.length_cons] <;> omega

def escapes : List (Char × Char) :=
  [('b', '\x08'), ('t', '\t'), ('n', '\n'), ('f', '\x0C'), ('r', '\r'), ('\x22', '\x22'), ('\\', '\\')]

def hexDigits? : (count : Nat) → Nat → List Char → Option (Nat × List Char)
  | 0, n, text => some (n, text)
  | _ + 1, _, [] => none
  | count + 1, n, c :: text => (Json.hexValue? c).bind fun d ↦ hexDigits? count (n * 16 + d) text

def charOf? (n : Nat) : Option Char := if n.isValidChar then some (Char.ofNat n) else none

def escaped? : List Char → Option (Char × List Char)
  | [] => none
  | c :: text =>
    if c = 'u' ∨ c = 'U' then
      (hexDigits? (if c = 'u' then 4 else 8) 0 text).bind fun (n, text) ↦ (charOf? n).map fun c ↦ (c, text)
    else (escapes.lookup c).map fun c ↦ (c, text)

def skipSpacesAndLines : List Char → List Char
  | '\r' :: '\n' :: text => skipSpacesAndLines text
  | c :: text => if isSpace c || c == '\n' then skipSpacesAndLines text else c :: text
  | [] => []

/-- What follows a line end after a backslash: blanks and lines without anything on them are left out. -/
def skippedLines? (text : List Char) : Option (List Char) :=
  (newline? (text.dropWhile isSpace)).map skipSpacesAndLines

structure Kind where
  quote : Char
  several : Bool

def Kind.hasEscapes (kind : Kind) : Bool := kind.quote == '\x22'

/-- Up to five quotes at the front of a text: those that belong to the string, and what follows the three that
end it; fewer than three end nothing. -/
def closingQuotes? (quote : Char) (text : List Char) : Option (List Char × List Char) :=
  let run := (text.takeWhile (· == quote)).take 5
  if run.length < 3 then none else some (run.drop 3, text.drop run.length)

/-- The rest of a string, after the characters read so far, newest first. Every piece takes one character at
least, so `fuel` is the length of the text. -/
def rest? (kind : Kind) : (fuel : Nat) → List Char → List Char → Option (List Char × List Char)
  | 0, _, _ => none
  | _ + 1, _, [] => none
  | fuel + 1, read, c :: text =>
    if c = kind.quote then
      if kind.several then
        match closingQuotes? c (c :: text) with
        | some (quotes, rest) => some (read.reverse ++ quotes, rest)
        | none => rest? kind fuel (c :: read) text
      else some (read.reverse, text)
    else if c = '\\' ∧ kind.hasEscapes then
      match if kind.several then skippedLines? text else none with
      | some rest => rest? kind fuel read rest
      | none =>
        match escaped? text with
        | some (c, rest) => rest? kind fuel (c :: read) rest
        | none => none
    else if isPlain c then rest? kind fuel (c :: read) text
    else if kind.several then
      match newline? (c :: text) with
      | some rest => rest? kind fuel ('\n' :: read) rest
      | none => none
    else none

def readKind? (kind : Kind) (text : List Char) : Option (List Char × List Char) :=
  rest? kind (text.length + 1) [] text

def lineString? : List Char → Option (String × List Char)
  | c :: text =>
    if c = '\x22' ∨ c = '\x27' then
      (readKind? ⟨c, false⟩ text).map fun (s, rest) ↦ (.ofList s, rest)
    else none
  | [] => none

def string? : List Char → Option (String × List Char)
  | a :: b :: c :: text =>
    if a = b ∧ b = c ∧ (a = '\x22' ∨ a = '\x27') then
      (readKind? ⟨a, true⟩ ((newline? text).getD text)).map fun (s, rest) ↦ (.ofList s, rest)
    else lineString? (a :: b :: c :: text)
  | text => lineString? text

end AnswerKey.Toml
