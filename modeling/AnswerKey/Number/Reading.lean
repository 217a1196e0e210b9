import AnswerKey.Number.Binary64

namespace AnswerKey

inductive Number where
  | int (n : Int)
  | float (x : Binary64)
deriving DecidableEq

namespace Number

def digitValue (c : Char) : Nat := c.toNat - '0'.toNat

def ofDigits (digits : List Char) : Nat := digits.foldl (fun n c ↦ n * 10 + digitValue c) 0

/-- Takes digits on as long as the number stays below `2 ^ 64`: the number, and how many were taken. -/
def absorb (n taken : Nat) : List Char → Nat × Nat
  | [] => (n, taken)
  | c :: digits =>
    if n * 10 + digitValue c < UInt64.size then absorb (n * 10 + digitValue c) (taken + 1) digits else (n, taken)

def powerOfTen? (k : Nat) : Option Binary64 := Binary64.ofNat? false (Nat.pow 10 k)

def greatestPower : Nat := 308

def divideOften? (x : Binary64) : (times : Nat) → Option Binary64
  | 0 => some x
  | times + 1 =>
    if x.isZero then some x
    else ((powerOfTen? greatestPower).bind x.div?).bind (divideOften? · times)

/-- Divides by `10 ^ k`, in several steps if that is no floating-point number. -/
def scaleDown? (x : Binary64) (k : Nat) : Option Binary64 :=
  let times := (k - 1) / greatestPower
  (divideOften? x times).bind fun y ↦ (powerOfTen? (k - times * greatestPower)).bind y.div?

def scaleUp? (x : Binary64) (k : Nat) : Option Binary64 :=
  if k ≤ greatestPower then (powerOfTen? k).bind x.mul?
  else if x.isZero then some x
  else none

def scale? (x : Binary64) (power : Int) : Option Binary64 :=
  if power < 0 then scaleDown? x power.natAbs else scaleUp? x power.natAbs

def float? (negative : Bool) (whole fraction : List Char) (power : Int) : Option Binary64 :=
  let (n, takenWhole) := absorb 0 0 whole
  let (n, takenFraction) := absorb n 0 fraction
  (Binary64.ofNat? negative n).bind
    (scale? · (power + (whole.length - takenWhole : Nat) - takenFraction))

def ofWhole? (negative : Bool) (whole : List Char) : Option Number :=
  let n := ofDigits whole
  if negative then
    if n = 0 then some (.float (.zero true))
    else if Int64.minValue.toInt ≤ -n then some (.int (-n))
    else (float? true whole [] 0).map .float
  else if n < UInt64.size then some (.int n)
  else (float? false whole [] 0).map .float

def readFraction? : List Char → Option (Option (List Char) × List Char)
  | '.' :: text =>
    match text.takeWhile Char.isDigit with
    | [] => none
    | digits => some (some digits, text.dropWhile Char.isDigit)
  | text => some (none, text)

def readSign : List Char → Bool × List Char
  | '-' :: text => (true, text)
  | '+' :: text => (false, text)
  | text => (false, text)

def readExponent? : List Char → Option (Option Int × List Char)
  | c :: text =>
    if c = 'e' ∨ c = 'E' then
      let (negative, text) := readSign text
      match text.takeWhile Char.isDigit with
      | [] => none
      | digits =>
        let power : Int := ofDigits digits
        some (some (if negative then -power else power), text.dropWhile Char.isDigit)
    else some (none, c :: text)
  | [] => some (none, [])

/-- A number at the front of a text, with what follows it. A whole part of several digits does not begin with
a zero. -/
def read? (text : List Char) : Option (Number × List Char) :=
  let (negative, text) :=
    match text with
    | '-' :: text => (true, text)
    | text => (false, text)
  let whole := text.takeWhile Char.isDigit
  if whole.isEmpty ∨ (whole.head? = some '0' ∧ 1 < whole.length) then none
  else
    (readFraction? (text.dropWhile Char.isDigit)).bind fun (fraction, text) ↦
      (readExponent? text).bind fun (power, text) ↦
        let number :=
          if fraction.isNone ∧ power.isNone then ofWhole? negative whole
          else (float? negative whole (fraction.getD []) (power.getD 0)).map .float
        number.map fun number ↦ (number, text)

end Number
end AnswerKey
