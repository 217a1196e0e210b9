import AnswerKey.Number.Nearest
import AnswerKey.Number.Reading
import AnswerKey.Json.Reader
import AnswerKey.Text.Search
import AnswerKey.Toml.Basic

namespace AnswerKey.Toml

open Text

def digitOf? (base : Nat) (c : Char) : Option Nat :=
  (Json.hexValue? c).filter (· < base)

/-- Digits with single underscores between them, as a number. -/
def digits? (base : Nat) : (digitBefore : Bool) → Nat → List Char → Option Nat
  | digitBefore, n, [] => if digitBefore then some n else none
  | digitBefore, n, c :: text =>
    if c = '_' then if digitBefore ∧ !text.isEmpty then digits? base false n text else none
    else (digitOf? base c).bind fun d ↦ digits? base true (n * base + d) text

def isDigitOrUnderscore (c : Char) : Bool := c.isDigit || c == '_'

def sign (text : List Char) : Bool × List Char := Number.readSign text

def wholePart? (text : List Char) : Option Nat :=
  match text with
  | '0' :: _ :: _ => none
  | _ => digits? 10 false 0 text

def inRange (n : Int) : Bool := Int64.minValue.toInt ≤ n && n ≤ Int64.maxValue.toInt

def integer? (text : List Char) : Option Int64 :=
  let found : Option Int :=
    match text with
    | '0' :: 'x' :: text => (digits? 16 false 0 text).map Int.ofNat
    | '0' :: 'o' :: text => (digits? 8 false 0 text).map Int.ofNat
    | '0' :: 'b' :: text => (digits? 2 false 0 text).map Int.ofNat
    | _ =>
      let (negative, text) := sign text
      (wholePart? text).map fun n ↦ if negative then -n else n
  (found.filter inRange).map Int64.ofInt

/-- An exponent; none at all is zero, which is told apart. -/
def exponent? (text : List Char) : Option (Option Int) :=
  match text with
  | [] => some none
  | c :: text =>
    if c = 'e' ∨ c = 'E' then
      let (negative, text) := sign text
      (digits? 10 false 0 text).map fun n ↦ some (if negative then -n else n)
    else none

def fraction? (text : List Char) : Option (Option (Nat × Nat) × List Char) :=
  match text with
  | '.' :: text =>
    let part := text.takeWhile isDigitOrUnderscore
    (digits? 10 false 0 part).map fun n ↦
      (some (n, part.countP Char.isDigit), text.dropWhile isDigitOrUnderscore)
  | _ => some (none, text)

def decimal? (text : List Char) : Option (Option Binary64) :=
  let (negative, text) := sign text
  (wholePart? (text.takeWhile isDigitOrUnderscore)).bind fun whole ↦
    (fraction? (text.dropWhile isDigitOrUnderscore)).bind fun (fraction, text) ↦
      (exponent? text).bind fun power ↦
        if fraction.isNone ∧ power.isNone then none
        else
          let (part, places) := fraction.getD (0, 0)
          let x := Binary64.nearest? negative (whole * Nat.pow 10 places + part) (power.getD 0 - places)
          if x.isNone ∧ !negative then none else some x

def special? (text : List Char) : Option (Option Binary64) :=
  let word := (sign text).2
  if word = "inf".toList ∨ word = "nan".toList then some none else none

def fixedDigits? : (count : Nat) → Nat → List Char → Option (Nat × List Char)
  | 0, n, text => some (n, text)
  | _ + 1, _, [] => none
  | count + 1, n, c :: text =>
    if c.isDigit then fixedDigits? count (n * 10 + Number.digitValue c) text else none

def twoDigits? (low high : Nat) (text : List Char) : Option (Nat × List Char) :=
  (fixedDigits? 2 0 text).filter fun found ↦ low ≤ found.1 && found.1 ≤ high

def padded (width n : Nat) : List Char :=
  let digits := Nat.toDigits 10 n
  List.replicate (width - digits.length) '0' ++ digits

def daysIn (year month : Nat) : Nat :=
  if month = 2 then
    if year % 4 = 0 ∧ (year % 100 ≠ 0 ∨ year % 400 = 0) then 29 else 28
  else if month ∈ [4, 6, 9, 11] then 30
  else 31

def date? (text : List Char) : Option (List Char × List Char) := do
  let (year, text) ← fixedDigits? 4 0 text
  let (month, text) ← twoDigits? 1 12 (← after? ['-'] text)
  let (day, text) ← twoDigits? 1 (daysIn year month) (← after? ['-'] text)
  return (padded 4 year ++ '-' :: padded 2 month ++ '-' :: padded 2 day, text)

/-- A fraction of a second: nine digits count, and zeros at its end do not. -/
def secondFraction? (text : List Char) : Option (List Char × List Char) :=
  match text with
  | '.' :: text =>
    match text.takeWhile Char.isDigit with
    | [] => none
    | digits =>
      let kept := ((digits.take 9).reverse.dropWhile (· == '0')).reverse
      some (if kept.isEmpty then [] else '.' :: kept, text.dropWhile Char.isDigit)
  | _ => some ([], text)

def time? (text : List Char) : Option (List Char × List Char) := do
  let (hour, text) ← twoDigits? 0 23 text
  let (minute, text) ← twoDigits? 0 59 (← after? [':'] text)
  let (second, text) ← twoDigits? 0 60 (← after? [':'] text)
  let (fraction, text) ← secondFraction? text
  return (padded 2 hour ++ ':' :: padded 2 minute ++ ':' :: padded 2 second ++ fraction, text)

def offset? (text : List Char) : Option (List Char) :=
  match text with
  | [] => some []
  | [c] => if c = 'Z' ∨ c = 'z' then some ['Z'] else none
  | c :: text => do
    if c ≠ '+' ∧ c ≠ '-' then none
    let (hour, text) ← twoDigits? 0 23 text
    let (minute, text) ← twoDigits? 0 59 (← after? [':'] text)
    if !text.isEmpty then none
    let sign := if hour = 0 ∧ minute = 0 then '+' else c
    return sign :: padded 2 hour ++ ':' :: padded 2 minute

def dateTime? (text : List Char) : Option (List Char) :=
  match date? text with
  | some (date, []) => some date
  | some (date, c :: rest) =>
    if c = 'T' ∨ c = 't' ∨ c = ' ' then
      match time? rest with
      | some (time, rest) => (offset? rest).map fun offset ↦ date ++ 'T' :: time ++ offset
      | none => none
    else none
  | none =>
    match time? text with
    | some (time, []) => some time
    | _ => none

def word? (text : List Char) : Option Toml :=
  if text = "true".toList then some (boolean true)
  else if text = "false".toList then some (boolean false)
  else
    ((dateTime? text).map fun t ↦ dateTime (.ofList t)).or <|
      ((integer? text).map integer).or <| ((decimal? text).map float).or ((special? text).map float)

end AnswerKey.Toml
