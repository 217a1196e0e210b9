import AnswerKey.Number.Binary64

namespace AnswerKey.Binary64

/-- Four times the bounds between which numbers round to `x`, in units. The lower gap is half as wide where
the next smaller number has a smaller shift. -/
def bounds (x : Binary64) : Nat × Nat :=
  let below := if x.significand = 1 <<< 52 ∧ x.shift ≠ 0 then 1 else 2
  ((4 * x.significand - below) <<< x.shift, (4 * x.significand + 2) <<< x.shift)

/-- Whether `numerator / denominator` units, given four times over, round to `x`: the bounds themselves do for
an even significand. -/
def roundsTo (x : Binary64) (numerator denominator : Nat) : Bool :=
  let (low, high) := x.bounds
  if x.significand % 2 = 0 then low * denominator ≤ numerator && numerator ≤ high * denominator
  else low * denominator < numerator && numerator < high * denominator

/-- The power of ten of the first digit of a positive number; no positive number is below `10 ^ -324`. -/
def leadingPower (x : Binary64) : Int :=
  (Nat.toDigits 10 (x.magnitude * Nat.pow 10 324 / one)).length - 325

/-- A multiple of `10 ^ power` next to `x` that rounds to `x`; of two the nearer one, and of two equally near
the even one. -/
def onGrid? (x : Binary64) (power : Int) : Option Nat :=
  let up := Nat.pow 10 power.toNat
  let down := Nat.pow 10 (-power).toNat
  let exact := x.magnitude * down
  let grid := up * one
  let below := exact / grid
  let above := below + 1
  let fits (c : Nat) := x.roundsTo (4 * c * grid) down
  let middle := (below + above) * grid
  let belowFirst := 2 * exact < middle || (2 * exact == middle && below % 2 == 0)
  if fits below && (!fits above || belowFirst) then some below
  else if fits above then some above
  else none

def shortest (x : Binary64) : List Char × Int :=
  let first := x.leadingPower
  let found := (List.range 17).findSome? fun (n : Nat) ↦
    (x.onGrid? (first - n)).map fun c ↦ (Nat.toDigits 10 c, first - n)
  match found with
  | none => (['0'], 0)
  | some (digits, power) =>
    ((digits.reverse.dropWhile (· == '0')).reverse, power + digits.length - 1)

/-- Digits with a point: plainly for powers of the first digit from -5 up to 15, with an exponent and its
sign for others. -/
def place (digits : List Char) (power : Int) : List Char :=
  let count : Int := digits.length
  if power < -5 ∨ 16 ≤ power then
    let fraction := if digits.length ≤ 1 then digits else digits.take 1 ++ '.' :: digits.drop 1
    fraction ++ 'e' :: (if power < 0 then '-' else '+') :: Nat.toDigits 10 power.natAbs
  else if power < 0 then
    '0' :: '.' :: List.replicate (-power - 1).toNat '0' ++ digits
  else if count ≤ power + 1 then
    digits ++ List.replicate (power + 1 - count).toNat '0' ++ ['.', '0']
  else digits.take (power + 1).toNat ++ '.' :: digits.drop (power + 1).toNat

def text (x : Binary64) : List Char :=
  let body := if x.isZero then ['0', '.', '0'] else place x.shortest.1 x.shortest.2
  if x.negative then '-' :: body else body

end AnswerKey.Binary64
