import AnswerKey.Json.Basic

namespace AnswerKey.Json

def isBlank (c : Char) : Bool := c == ' ' || c == '\t' || c == '\n' || c == '\r'

def skipBlanks (text : List Char) : List Char := text.dropWhile isBlank

def hexValue? (c : Char) : Option Nat :=
  if '0' ≤ c ∧ c ≤ '9' then some (c.toNat - '0'.toNat)
  else if 'a' ≤ c ∧ c ≤ 'f' then some (c.toNat - 'a'.toNat + 10)
  else if 'A' ≤ c ∧ c ≤ 'F' then some (c.toNat - 'A'.toNat + 10)
  else none

def unit? (a b c d : Char) : Option Nat := do
  return (((← hexValue? a) * 16 + (← hexValue? b)) * 16 + (← hexValue? c)) * 16 + (← hexValue? d)

def escapes : List (Char × Char) :=
  [('\x22', '\x22'), ('\\', '\\'), ('/', '/'), ('b', '\x08'), ('f', '\x0C'), ('n', '\n'), ('r', '\r'), ('t', '\t')]

/-- The character of one unit, or of two that make a surrogate pair, with what follows. -/
def escapedUnit? : List Char → Option (Char × List Char)
  | a :: b :: c :: d :: text =>
    match unit? a b c d with
    | none => none
    | some high =>
      if 0xDC00 ≤ high ∧ high ≤ 0xDFFF then none
      else if 0xD800 ≤ high ∧ high ≤ 0xDBFF then
        match text with
        | '\\' :: 'u' :: a :: b :: c :: d :: text =>
          match unit? a b c d with
          | none => none
          | some low =>
            if 0xDC00 ≤ low ∧ low ≤ 0xDFFF then
              some (Char.ofNat (0x10000 + (high - 0xD800) * 0x400 + (low - 0xDC00)), text)
            else none
        | _ => none
      else some (Char.ofNat high, text)
  | _ => none

def escaped? : List Char → Option (Char × List Char)
  | [] => none
  | 'u' :: text => escapedUnit? text
  | c :: text => (escapes.lookup c).map fun c ↦ (c, text)

theorem length_of_escapedUnit? {text rest : List Char} {c : Char} (h : escapedUnit? text = some (c, rest)) :
    rest.length < text.length := by
  unfold escapedUnit? at h
  repeat' split at h
  all_goals simp only [reduceCtorEq, Option.some.injEq, Prod.mk.injEq] at h
  all_goals obtain ⟨-, rfl⟩ := h; simp only [List.length_cons]; omega

theorem length_of_escaped? {text rest : List Char} {c : Char} (h : escaped? text = some (c, rest)) :
    rest.length < text.length := by
  unfold escaped? at h
  split at h
  · contradiction
  · have := length_of_escapedUnit? h
    simp only [List.length_cons]
    omega
  · simp only [Option.map_eq_some_iff, Prod.mk.injEq] at h
    obtain ⟨_, _, -, rfl⟩ := h
    simp

def stringRest? (read : List Char) (text : List Char) : Option (List Char × List Char) :=
  match text with
  | [] => none
  | c :: rest =>
    if c = '\x22' then some (read.reverse, rest)
    else if c = '\\' then
      match _ : escaped? rest with
      | some (c, rest) => stringRest? (c :: read) rest
      | none => none
    else if c.toNat < 0x20 then none
    else stringRest? (c :: read) rest
termination_by text.length
decreasing_by
  · have := length_of_escaped? ‹_›
    simp only [List.length_cons]
    omega
  · simp

def string? : List Char → Option (String × List Char)
  | '\x22' :: text => (stringRest? [] text).map fun (s, rest) ↦ (.ofList s, rest)
  | _ => none

def literals : List (List Char × Json) :=
  [("null".toList, null), ("true".toList, bool true), ("false".toList, bool false)]

def word? : (word text : List Char) → Option (List Char)
  | [], text => some text
  | _ :: _, [] => none
  | a :: word, b :: text => if a = b then word? word text else none

def scalar? (text : List Char) : Option (Json × List Char) :=
  match literals.findSome? fun (word, value) ↦ (word? word text).map (value, ·) with
  | some found => some found
  | none =>
    match text with
    | '\x22' :: _ => (string? text).map fun (s, rest) ↦ (string s, rest)
    | _ => (Number.read? text).map fun (n, rest) ↦ (number n, rest)

/-- Items parted by commas up to a closing character, after those read so far, newest first; every item takes
one character at least, so `fuel` is the length of the text. -/
def items? {α : Type} (item? : List Char → Option (α × List Char)) (closer : Char) :
    (fuel : Nat) → List α → List Char → Option (List α × List Char)
  | 0, _, _ => none
  | fuel + 1, read, text =>
    match item? text with
    | none => none
    | some (a, rest) =>
      match skipBlanks rest with
      | [] => none
      | c :: rest =>
        if c = closer then some ((a :: read).reverse, rest)
        else if c = ',' then items? item? closer fuel (a :: read) rest
        else none

def enclosed? {α : Type} (item? : List Char → Option (α × List Char)) (closer : Char) (text : List Char) :
    Option (List α × List Char) :=
  match skipBlanks text with
  | [] => none
  | c :: rest => if c = closer then some ([], rest) else items? item? closer text.length [] text

def field? {α : Type} (value? : List Char → Option (α × List Char)) (text : List Char) :
    Option ((String × α) × List Char) :=
  match string? (skipBlanks text) with
  | none => none
  | some (name, rest) =>
    match skipBlanks rest with
    | ':' :: rest => (value? rest).map fun (value, rest) ↦ ((name, value), rest)
    | _ => none

/-- A value whose arrays and objects are nested `depth` deep at most, with what follows it. -/
def value? (depth : Nat) (text : List Char) : Option (Json × List Char) :=
  match skipBlanks text with
  | '[' :: rest =>
    match depth with
    | 0 => none
    | depth + 1 => (enclosed? (value? depth) ']' rest).map fun (items, rest) ↦ (array items, rest)
  | '\x7b' :: rest =>
    match depth with
    | 0 => none
    | depth + 1 =>
      (enclosed? (field? (value? depth)) '\x7d' rest).map fun (fields, rest) ↦ (ofFields fields, rest)
  | text => scalar? text

def maxDepth : Nat := 127

def parse? (text : List Char) : Option Json :=
  match value? maxDepth text with
  | some (value, rest) => if (skipBlanks rest).isEmpty then some value else none
  | none => none

/-- Stands for what the reader has to say of a text that it cannot read. -/
def complaint : String := "invalid json"

end AnswerKey.Json
