import AnswerKey.Number.Binary64

namespace AnswerKey.Binary64

/-- The number nearest to `n * 10 ^ power`; there is none beyond the greatest one. Far outside the range of
powers there is nothing to compute. -/
def nearest? (negative : Bool) (n : Nat) (power : Int) : Option Binary64 :=
  if n = 0 then some (zero negative)
  else
    let leading := power + (Nat.toDigits 10 n).length
    if 400 < leading then none
    else if leading < -400 then some (zero negative)
    else round? negative (n * Nat.pow 10 power.toNat * one) (Nat.pow 10 (-power).toNat)

end AnswerKey.Binary64
