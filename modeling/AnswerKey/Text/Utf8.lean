namespace AnswerKey.Text

def replacementChar : Char := '\uFFFD'

def encode (text : List Char) : ByteArray := (String.ofList text).toUTF8

/-- How far the reading of one character has come: the bits so far, the continuation bytes still due, and
the bounds of the next one. -/
structure Pending where
  bits : Nat
  due : Nat
  low : Nat
  high : Nat

inductive Lead where
  | single (c : Char)
  | longer (pending : Pending)
  | invalid

/-- The bounds on the second byte shut out overlong forms, surrogates and values past the last character. -/
def lead (b : Nat) : Lead :=
  if b < 0x80 then .single (Char.ofNat b)
  else if b < 0xC2 then .invalid
  else if b < 0xE0 then .longer ⟨b - 0xC0, 1, 0x80, 0xBF⟩
  else if b < 0xF0 then
    .longer ⟨b - 0xE0, 2, if b = 0xE0 then 0xA0 else 0x80, if b = 0xED then 0x9F else 0xBF⟩
  else if b < 0xF5 then
    .longer ⟨b - 0xF0, 3, if b = 0xF0 then 0x90 else 0x80, if b = 0xF4 then 0x8F else 0xBF⟩
  else .invalid

structure Decoding where
  read : List Char
  pending : Option Pending

def Decoding.begin (read : List Char) (b : Nat) : Decoding :=
  match lead b with
  | .single c => ⟨c :: read, none⟩
  | .longer p => ⟨read, some p⟩
  | .invalid => ⟨replacementChar :: read, none⟩

def Decoding.feed (d : Decoding) (b : Nat) : Decoding :=
  match d.pending with
  | none => .begin d.read b
  | some p =>
    if p.low ≤ b ∧ b ≤ p.high then
      let bits := p.bits * 64 + (b - 0x80)
      if p.due ≤ 1 then ⟨Char.ofNat bits :: d.read, none⟩
      else ⟨d.read, some ⟨bits, p.due - 1, 0x80, 0xBF⟩⟩
    else .begin (replacementChar :: d.read) b

def Decoding.text (d : Decoding) : List Char :=
  (if d.pending.isSome then replacementChar :: d.read else d.read).reverse

def decode (bytes : List UInt8) : List Char :=
  (bytes.foldl (fun (d : Decoding) b ↦ d.feed b.toNat) ⟨[], none⟩).text

end AnswerKey.Text
