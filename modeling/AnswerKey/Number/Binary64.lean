namespace AnswerKey

/-- The number `significand * 2 ^ shift` in units of `2 ^ -1074`, or its negative. -/
structure Binary64 where
  negative : Bool
  significand : Nat
  shift : Nat
  significand_lt : significand < 1 <<< 53
  shift_le : shift ≤ 2045
  normal : 1 <<< 52 ≤ significand ∨ shift = 0
deriving DecidableEq

namespace Binary64

def zero (negative : Bool) : Binary64 := ⟨negative, 0, 0, by decide, by decide, .inr rfl⟩

def isZero (x : Binary64) : Bool := x.significand == 0

def magnitude (x : Binary64) : Nat := x.significand <<< x.shift

def units (x : Binary64) : Int := if x.negative then -x.magnitude else x.magnitude

/-- The quotient rounded to the nearest whole number, a tie to the even one. -/
def divRound (a b : Nat) : Nat :=
  let q := a / b
  let r := a % b
  if 2 * r < b then q else if b < 2 * r then q + 1 else if q % 2 = 0 then q else q + 1

/-- The number nearest to `numerator / denominator` units; there is none beyond the greatest one. -/
def round? (negative : Bool) (numerator denominator : Nat) : Option Binary64 :=
  let whole := numerator / denominator
  let shift := if whole < 1 <<< 53 then 0 else whole.log2 - 52
  let m := divRound numerator (denominator <<< shift)
  let (m, shift) := if m = 1 <<< 53 then (1 <<< 52, shift + 1) else (m, shift)
  if h : m < 1 <<< 53 ∧ shift ≤ 2045 ∧ (1 <<< 52 ≤ m ∨ shift = 0) then
    some ⟨negative, m, shift, h.1, h.2.1, h.2.2⟩
  else none

def one : Nat := 1 <<< 1074

def ofNat? (negative : Bool) (n : Nat) : Option Binary64 := round? negative (n * one) 1

def ofInt? (n : Int) : Option Binary64 := ofNat? (n < 0) n.natAbs

def mul? (x y : Binary64) : Option Binary64 :=
  round? (x.negative != y.negative) (x.magnitude * y.magnitude) one

def div? (x y : Binary64) : Option Binary64 :=
  if y.isZero then none
  else round? (x.negative != y.negative) (x.magnitude * one) y.magnitude

/-- Equality of the numbers; the two zeros are equal. -/
def numEq (x y : Binary64) : Bool := x.units == y.units

theorem numEq_refl (x : Binary64) : x.numEq x = true := beq_self_eq_true _

theorem numEq_comm (x y : Binary64) : x.numEq y = y.numEq x := Bool.beq_comm

end Binary64
end AnswerKey
