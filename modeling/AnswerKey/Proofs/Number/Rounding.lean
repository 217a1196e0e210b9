import AnswerKey.Number.Binary64
import Mathlib.Algebra.Order.Field.Basic
import Mathlib.Algebra.Order.Field.Rat
import Mathlib.Tactic.FieldSimp
import Mathlib.Tactic.LinearCombination
import Mathlib.Tactic.Ring

namespace AnswerKey.Binary64

def value (x : Binary64) : ℚ := x.units / one

/-- Every other number is farther away, or as far and with an odd significand where this one's is even. -/
def IsNearest (q : ℚ) (x : Binary64) : Prop :=
  ∀ y : Binary64, y.value ≠ x.value →
    |q - x.value| < |q - y.value| ∨
      |q - x.value| = |q - y.value| ∧ x.significand % 2 = 0 ∧ y.significand % 2 = 1

variable {x y r : Binary64} {q : ℚ} {negative : Bool} {numerator denominator : Nat}

/-- The exponent is a variable so that the power is never computed. -/
theorem one_eq {k : Nat} (hk : 1074 = k) : one = 2 ^ k := by rw [one, hk, Nat.one_shiftLeft]

theorem one_pos : 0 < one := Nat.pos_of_ne_zero (by decide)

theorem value_eq_value_iff : x.value = y.value ↔ x.units = y.units := by
  have hone : (one : ℚ) ≠ 0 := Nat.cast_ne_zero.mpr one_pos.ne'
  rw [value, value, div_left_inj' hone, Int.cast_inj]

theorem IsNearest.value_eq (hx : x.IsNearest q) (hy : y.IsNearest q) : x.value = y.value := by
  by_contra hne
  rcases hx y (Ne.symm hne) with hlt | ⟨heq, heven, -⟩
  · rcases hy x hne with hlt' | ⟨heq', -⟩
    · exact absurd hlt' hlt.not_gt
    · exact absurd heq' hlt.ne'
  · rcases hy x hne with hlt' | ⟨-, -, hodd⟩
    · exact absurd heq hlt'.ne'
    · omega

theorem isNearest_iff_of_value_eq (hy : y.value = q) : x.IsNearest q ↔ x.value = q := by
  constructor
  · intro hx
    by_contra hne
    have hzero : |q - y.value| = 0 := by rw [hy, sub_self, abs_zero]
    rcases hx y (fun h ↦ hne (h.symm.trans hy)) with hlt | ⟨heq, -⟩
    · exact absurd (abs_nonneg _) (not_le.mpr (hzero ▸ hlt))
    · rw [hzero, abs_eq_zero, sub_eq_zero] at heq
      exact hne heq.symm
  · rintro rfl z hz
    left
    rw [sub_self, abs_zero, abs_pos, sub_ne_zero]
    exact Ne.symm hz

theorem divRound_bounds (a : Nat) {b : Nat} (hb : 0 < b) :
    2 * a ≤ 2 * (divRound a b * b) + b ∧ 2 * (divRound a b * b) ≤ 2 * a + b ∧
      (2 * a = 2 * (divRound a b * b) + b ∨ 2 * (divRound a b * b) = 2 * a + b → divRound a b % 2 = 0) := by
  have hdiv : a / b * b + a % b = a := Nat.div_add_mod' a b
  have hmod := Nat.mod_lt a hb
  have hsucc : (a / b + 1) * b = a / b * b + b := Nat.succ_mul _ _
  unfold divRound
  dsimp only
  split
  · omega
  · split
    · rw [hsucc]
      omega
    · split
      · omega
      · rw [hsucc]
        omega

/-- A multiple at most half a step away is nearer than any other one, except for one that is as near with its odd
factor. -/
theorem nearer_of_half_step {a b m j : ℤ} (hb : 0 < b) (hlow : 2 * a ≤ 2 * (m * b) + b)
    (hhigh : 2 * (m * b) ≤ 2 * a + b)
    (heven : 2 * a = 2 * (m * b) + b ∨ 2 * (m * b) = 2 * a + b → m % 2 = 0) (hj : j ≠ m) :
    |a - m * b| < |a - j * b| ∨ |a - m * b| = |a - j * b| ∧ m % 2 = 0 ∧ j % 2 = 1 := by
  obtain ⟨d, rfl⟩ : ∃ d, j = m + d := ⟨j - m, by ring⟩
  -- the next multiple on either side may be as near, those behind it are not
  have hsteps : d = 1 ∨ d = -1 ∨ 2 * b ≤ d * b ∨ d * b ≤ -(2 * b) := by
    rcases le_or_gt 2 d with hd | hd
    · exact .inr (.inr (.inl (Int.mul_le_mul_of_nonneg_right hd hb.le)))
    · rcases le_or_gt d (-2) with hd' | hd'
      · have := Int.mul_le_mul_of_nonneg_right hd' hb.le
        exact .inr (.inr (.inr (by omega)))
      · omega
  rw [add_mul]
  generalize m * b = p at *
  rcases abs_cases (a - p) with ⟨heq, hsign⟩ | ⟨heq, hsign⟩ <;>
    rcases abs_cases (a - (p + d * b)) with ⟨heq', hsign'⟩ | ⟨heq', hsign'⟩ <;>
      rcases hsteps with rfl | rfl | hd | hd <;> omega

/-- What a rounded number is made of: the nearest multiple of a power of two, which is so small that the quotient is at
least `2 ^ 52` of them, or else the number has no lower digits. -/
structure RoundedTo (numerator denominator : Nat) (r : Binary64) (shift m : Nat) : Prop where
  factor : m = divRound numerator (denominator * 2 ^ shift)
  fine : shift = 0 ∨ 2 ^ 52 * (denominator * 2 ^ shift) ≤ numerator
  magnitude : r.magnitude = m * 2 ^ shift
  even : m % 2 = 0 → r.significand % 2 = 0

theorem le_of_log2 {whole : Nat} (h : ¬ whole < 1 <<< 53) :
    2 ^ 52 * (denominator * 2 ^ (whole.log2 - 52)) ≤ denominator * whole := by
  have hne : whole ≠ 0 := by
    rintro rfl
    exact h (by decide)
  have hlog : 52 ≤ whole.log2 := (Nat.le_log2 hne).mpr (by rw [Nat.one_shiftLeft] at h; omega)
  calc 2 ^ 52 * (denominator * 2 ^ (whole.log2 - 52)) = denominator * 2 ^ whole.log2 := by
        rw [Nat.mul_left_comm, ← Nat.pow_add, Nat.add_sub_cancel' hlog]
    _ ≤ denominator * whole := Nat.mul_le_mul_left _ (Nat.log2_self_le hne)

theorem exists_of_round? (h : round? negative numerator denominator = some r) :
    r.negative = negative ∧ ∃ shift m, RoundedTo numerator denominator r shift m := by
  unfold round? at h
  dsimp only at h
  have hfine {shift : Nat} (hshift : (if numerator / denominator < 1 <<< 53 then 0
      else (numerator / denominator).log2 - 52) = shift) :
      shift = 0 ∨ 2 ^ 52 * (denominator * 2 ^ shift) ≤ numerator := by
    subst hshift
    split
    · exact .inl rfl
    · next hlarge => exact .inr ((le_of_log2 hlarge).trans (Nat.mul_div_le _ _))
  generalize hshift :
    (if numerator / denominator < 1 <<< 53 then 0 else (numerator / denominator).log2 - 52) = shift at h
  rw [Nat.shiftLeft_eq] at h
  split at h
  · next hcarry =>
    split at h
    · cases h
      refine ⟨rfl, shift, 1 <<< 53, hcarry.symm, hfine hshift, ?_, fun _ ↦ Nat.mod_eq_zero_of_dvd ⟨1 <<< 51, rfl⟩⟩
      change (1 <<< 52) <<< (shift + 1) = 1 <<< 53 * 2 ^ shift
      rw [Nat.shiftLeft_eq _ (shift + 1), Nat.pow_succ', ← Nat.mul_assoc]
      rfl
    · cases h
  · split at h
    · cases h
      exact ⟨rfl, shift, _, rfl, hfine hshift, Nat.shiftLeft_eq _ _, id⟩
    · cases h

def sign (negative : Bool) : ℤ := if negative then -1 else 1

theorem sign_mul_sign (negative : Bool) : sign negative * sign negative = 1 := by cases negative <;> rfl

theorem sign_mul_natAbs (n : ℤ) : sign (decide (n < 0)) * n.natAbs = n := by
  by_cases hn : n < 0
  · rw [sign, if_pos (decide_eq_true hn)]
    omega
  · rw [sign, if_neg (by simpa using hn)]
    omega

theorem units_eq (x : Binary64) : x.units = sign x.negative * x.magnitude := by
  unfold units sign
  split <;> simp

theorem natAbs_units (x : Binary64) : x.units.natAbs = x.magnitude := by
  rw [units_eq]
  cases x.negative <;> simp [sign]

theorem abs_sub_value (hdenominator : 0 < denominator) (y : Binary64) :
    |sign negative * numerator / (denominator * one) - y.value| =
      ((|numerator - sign negative * y.units * denominator| : ℤ) : ℚ) / (denominator * one) := by
  have hone : (0 : ℚ) < one := Nat.cast_pos.mpr one_pos
  have hden : (0 : ℚ) < denominator := Nat.cast_pos.mpr hdenominator
  have hsquare : (sign negative : ℚ) * sign negative = 1 := by exact_mod_cast sign_mul_sign negative
  have habs : |(sign negative : ℚ)| = 1 := by cases negative <;> simp [sign]
  have hdiff : sign negative * numerator / (denominator * one) - y.value =
      sign negative * (numerator - sign negative * y.units * denominator) / (denominator * one) := by
    rw [value]
    generalize (one : ℚ) = u at hone ⊢
    field_simp
    linear_combination (y.units * denominator : ℚ) * hsquare
  rw [hdiff, abs_div, abs_mul, habs, one_mul, abs_of_pos (mul_pos hden hone)]
  push_cast
  rfl

theorem magnitude_lt_of_shift_lt {shift : Nat} (h : x.shift < shift) : x.magnitude < 2 ^ 52 * 2 ^ shift := by
  have hle : 2 ^ (x.shift + 1) ≤ 2 ^ shift := Nat.pow_le_pow_right Nat.two_pos h
  calc x.magnitude < 2 ^ 53 * 2 ^ x.shift := by
        rw [magnitude, Nat.shiftLeft_eq]
        exact Nat.mul_lt_mul_of_pos_right x.significand_lt (Nat.two_pow_pos _)
    _ = 2 ^ 52 * 2 ^ (x.shift + 1) := by rw [Nat.pow_succ 2 x.shift]; omega
    _ ≤ 2 ^ 52 * 2 ^ shift := Nat.mul_le_mul_left _ hle

/-- A number without lower digits than the multiples is one of them, an odd one only if its significand is odd. -/
theorem exists_multiple_of_le_shift {shift : Nat} (h : shift ≤ x.shift) (negative : Bool) :
    ∃ j : ℤ, sign negative * x.units = j * 2 ^ shift ∧ (j % 2 = 1 → x.significand % 2 = 1) := by
  refine ⟨sign negative * sign x.negative * 2 ^ (x.shift - shift) * x.significand, ?_, fun hodd ↦ ?_⟩
  · have hpow : (2 : ℤ) ^ (x.shift - shift) * 2 ^ shift = 2 ^ x.shift := by rw [← pow_add, Nat.sub_add_cancel h]
    rw [units_eq, magnitude, Nat.shiftLeft_eq]
    push_cast
    rw [← hpow]
    ring
  · rw [Int.mul_emod] at hodd
    rcases Nat.mod_two_eq_zero_or_one x.significand with heven | hodd'
    · have hzero : (x.significand : ℤ) % 2 = 0 := by omega
      rw [hzero, mul_zero] at hodd
      cases hodd
    · exact hodd'

section

variable {shift m : Nat}

theorem RoundedTo.nearer (hr : RoundedTo numerator denominator r shift m) (hdenominator : 0 < denominator) {j : ℤ}
    (hj : j ≠ m) :
    |(numerator : ℤ) - m * 2 ^ shift * denominator| < |(numerator : ℤ) - j * 2 ^ shift * denominator| ∨
      |(numerator : ℤ) - m * 2 ^ shift * denominator| = |(numerator : ℤ) - j * 2 ^ shift * denominator| ∧
        r.significand % 2 = 0 ∧ j % 2 = 1 := by
  obtain ⟨hlow, hhigh, heven⟩ := divRound_bounds numerator (Nat.mul_pos hdenominator (Nat.two_pow_pos shift))
  rw [← hr.factor, Nat.mul_comm denominator] at hlow hhigh heven
  have hstep : (0 : ℤ) < 2 ^ shift * denominator := mul_pos (pow_pos two_pos _) (Int.natCast_pos.mpr hdenominator)
  have hnearer := nearer_of_half_step (a := numerator) hstep (by exact_mod_cast hlow) (by exact_mod_cast hhigh)
    (by exact_mod_cast heven) hj
  rw [mul_assoc, mul_assoc]
  exact hnearer.imp_right fun ⟨heq, hm, hodd⟩ ↦ ⟨heq, hr.even (by exact_mod_cast hm), hodd⟩

/-- What is below `2 ^ 52` multiples is farther away than these, which are no more than the quotient. -/
theorem RoundedTo.nearer_of_lt (hr : RoundedTo numerator denominator r shift m) (hdenominator : 0 < denominator)
    (hshift : shift ≠ 0) {u : ℤ} (hu : u < 2 ^ 52 * 2 ^ shift) :
    |(numerator : ℤ) - m * 2 ^ shift * denominator| < |(numerator : ℤ) - u * denominator| := by
  have hfine : (2 ^ 52 * 2 ^ shift * denominator : ℤ) ≤ numerator := by
    have hle := hr.fine.resolve_left hshift
    rw [Nat.mul_comm denominator, ← Nat.mul_assoc] at hle
    exact_mod_cast hle
  have hfar := Int.mul_lt_mul_of_pos_right hu (Int.natCast_pos.mpr hdenominator)
  calc |(numerator : ℤ) - m * 2 ^ shift * denominator|
      ≤ |(numerator : ℤ) - 2 ^ 52 * 2 ^ shift * denominator| := by
        by_cases hm : (2 ^ 52 : ℤ) = m
        · rw [hm]
        · exact (hr.nearer hdenominator hm).elim le_of_lt fun htie ↦ htie.1.le
    _ = numerator - 2 ^ 52 * 2 ^ shift * denominator := abs_of_nonneg (Int.sub_nonneg.mpr hfine)
    _ < numerator - u * denominator := by omega
    _ ≤ |(numerator : ℤ) - u * denominator| := le_abs_self _

end

theorem isNearest_of_round? (hdenominator : 0 < denominator) (h : round? negative numerator denominator = some r) :
    r.IsNearest (sign negative * numerator / (denominator * one)) := by
  obtain ⟨hnegative, shift, m, hr⟩ := exists_of_round? h
  have hscale : (0 : ℚ) < denominator * one := mul_pos (Nat.cast_pos.mpr hdenominator) (Nat.cast_pos.mpr one_pos)
  have hunits : sign negative * r.units = m * 2 ^ shift := by
    rw [units_eq, hnegative, ← Int.mul_assoc, sign_mul_sign, hr.magnitude]
    push_cast
    ring
  intro y hy
  rw [abs_sub_value hdenominator, abs_sub_value hdenominator, div_lt_div_iff_of_pos_right hscale,
    div_left_inj' hscale.ne', Int.cast_lt, Int.cast_inj, hunits]
  rcases le_or_gt shift y.shift with hshift | hshift
  · obtain ⟨j, hj, hodd⟩ := exists_multiple_of_le_shift hshift negative
    have hne : j ≠ m := by
      rintro rfl
      refine hy (value_eq_value_iff.mpr (mul_left_cancel₀ ?_ (hj.trans hunits.symm)))
      cases negative <;> decide
    rw [hj]
    exact (hr.nearer hdenominator hne).imp_right fun htie ↦ ⟨htie.1, htie.2.1, hodd htie.2.2⟩
  · have hle : sign negative * y.units ≤ y.magnitude := by
      rw [units_eq]
      cases negative <;> cases y.negative <;> simp [sign]
    have hlt : (y.magnitude : ℤ) < 2 ^ 52 * 2 ^ shift := by exact_mod_cast magnitude_lt_of_shift_lt hshift
    exact .inl (hr.nearer_of_lt hdenominator (Nat.ne_of_gt (Nat.zero_lt_of_lt hshift)) (hle.trans_lt hlt))

theorem divRound_between (a b : Nat) : a / b ≤ divRound a b ∧ divRound a b ≤ a / b + 1 := by
  unfold divRound
  dsimp only
  repeat' split
  all_goals omega

/-- The leading bits of a whole number of more than 53 bits. -/
theorem leading_bits {whole : Nat} (h : ¬ whole < 2 ^ 53) :
    2 ^ 52 ≤ whole / 2 ^ (whole.log2 - 52) ∧ whole / 2 ^ (whole.log2 - 52) < 2 ^ 53 := by
  have hne : whole ≠ 0 := by omega
  have hlog : 52 ≤ whole.log2 := (Nat.le_log2 hne).mpr (by omega)
  constructor
  · rw [Nat.le_div_iff_mul_le (Nat.two_pow_pos _), ← Nat.pow_add, Nat.add_sub_cancel' hlog]
    exact Nat.log2_self_le hne
  · rw [Nat.div_lt_iff_lt_mul (Nat.two_pow_pos _), ← Nat.pow_add]
    have hexponent : 53 + (whole.log2 - 52) = whole.log2 + 1 := by omega
    rw [hexponent]
    exact Nat.lt_log2_self

theorem round?_isSome {bits : Nat} (negative : Bool) (h : numerator / denominator < 2 ^ bits) (hbits : bits ≤ 2096) :
    (round? negative numerator denominator).isSome = true := by
  unfold round?
  dsimp only
  have hbounds {shift : Nat} (hshift : (if numerator / denominator < 1 <<< 53 then 0
      else (numerator / denominator).log2 - 52) = shift) : shift ≤ 2043 ∧
        divRound numerator (denominator <<< shift) ≤ 2 ^ 53 ∧
          (2 ^ 52 ≤ divRound numerator (denominator <<< shift) ∨ shift = 0) := by
    have hround := divRound_between numerator (denominator <<< shift)
    rw [Nat.shiftLeft_eq, ← Nat.div_div_eq_div_mul] at hround
    rw [Nat.shiftLeft_eq]
    rw [Nat.one_shiftLeft] at hshift
    split at hshift
    · subst hshift
      rw [Nat.pow_zero, Nat.div_one] at hround
      exact ⟨by decide, hround.2.trans ‹_›, .inr rfl⟩
    · next hlarge =>
      subst hshift
      have hlog : (numerator / denominator).log2 < bits := Nat.log2_lt (by omega) |>.mpr h
      obtain ⟨hlow, hhigh⟩ := leading_bits hlarge
      exact ⟨by omega, hround.2.trans hhigh, .inl (hlow.trans hround.1)⟩
  generalize hshift : (if numerator / denominator < 1 <<< 53 then 0 else (numerator / denominator).log2 - 52) = shift
  obtain ⟨hplaces, hlow, hhigh⟩ := hbounds hshift
  generalize divRound numerator (denominator <<< shift) = m at hlow hhigh ⊢
  rw [← Nat.one_shiftLeft] at hlow hhigh
  split
  · next hcarry =>
    have hfits : 1 <<< 52 < 1 <<< 53 ∧ shift + 1 ≤ 2045 ∧ (1 <<< 52 ≤ 1 <<< 52 ∨ shift + 1 = 0) :=
      ⟨by decide, by omega, .inl le_rfl⟩
    rw [dif_pos hfits]
    rfl
  · next hcarry =>
    have hfits : m < 1 <<< 53 ∧ shift ≤ 2045 ∧ (1 <<< 52 ≤ m ∨ shift = 0) :=
      ⟨lt_of_le_of_ne hlow hcarry, by omega, hhigh⟩
    rw [dif_pos hfits]
    rfl

theorem eq_of_shift_lt {s t j k : Nat} (hs : s < 2 ^ 53) (ht : 2 ^ 52 ≤ t ∨ k = 0) (h : s * 2 ^ j = t * 2 ^ k)
    (hjk : j < k) : False := by
  have ht := ht.resolve_right (Nat.ne_of_gt (Nat.zero_lt_of_lt hjk))
  have hle : 2 ^ 52 * 2 ^ (j + 1) ≤ t * 2 ^ k := Nat.mul_le_mul ht (Nat.pow_le_pow_right Nat.two_pos hjk)
  have hlt : s * 2 ^ j < 2 ^ 53 * 2 ^ j := Nat.mul_lt_mul_of_pos_right hs (Nat.two_pow_pos j)
  rw [Nat.pow_succ] at hle
  omega

theorem significand_eq_of_value_eq (h : x.value = y.value) : x.significand = y.significand := by
  have hmagnitude : x.significand * 2 ^ x.shift = y.significand * 2 ^ y.shift := by
    have hunits := congrArg Int.natAbs (value_eq_value_iff.mp h)
    rwa [natAbs_units, natAbs_units, magnitude, magnitude, Nat.shiftLeft_eq, Nat.shiftLeft_eq] at hunits
  have hx := x.significand_lt
  have hy := y.significand_lt
  have hx' := x.normal
  have hy' := y.normal
  rw [Nat.one_shiftLeft] at hx hy hx' hy'
  rcases Nat.lt_trichotomy x.shift y.shift with hlt | heq | hlt
  · exact (eq_of_shift_lt hx hy' hmagnitude hlt).elim
  · rw [heq] at hmagnitude
    exact Nat.eq_of_mul_eq_mul_right (Nat.two_pow_pos _) hmagnitude
  · exact (eq_of_shift_lt hy hx' hmagnitude.symm hlt).elim

theorem IsNearest.of_value_eq (hx : x.IsNearest q) (h : x.value = y.value) : y.IsNearest q := by
  intro z hz
  rw [← h] at hz ⊢
  rw [← significand_eq_of_value_eq h]
  exact hx z hz

theorem isNearest_of_ofInt? {n : ℤ} (h : ofInt? n = some r) : r.IsNearest n := by
  have hnearest := isNearest_of_round? Nat.one_pos h
  have hone : (one : ℚ) ≠ 0 := Nat.cast_ne_zero.mpr one_pos.ne'
  have hquotient : (sign (decide (n < 0)) * (n.natAbs * one : Nat) / ((1 : Nat) * one) : ℚ) = n := by
    rw [Nat.cast_one, one_mul, Nat.cast_mul, ← mul_assoc, mul_div_cancel_right₀ _ hone, ← Int.cast_natCast,
      ← Int.cast_mul, sign_mul_natAbs]
  rwa [hquotient] at hnearest

theorem ofInt?_isSome {n : ℤ} (h : n.natAbs ≤ 2 ^ 64) : (ofInt? n).isSome = true := by
  obtain ⟨k, hk⟩ : ∃ k, 1074 = k := ⟨1074, rfl⟩
  have hbits : n.natAbs * one / 1 < 2 ^ (65 + k) := by
    rw [Nat.div_one, Nat.pow_add, one_eq hk]
    exact Nat.mul_lt_mul_of_pos_right (h.trans_lt (by decide)) (Nat.two_pow_pos k)
  exact round?_isSome _ hbits (by omega)

theorem ofInt?_any_iff {n : ℤ} (h : n.natAbs ≤ 2 ^ 64) : (ofInt? n).any (·.numEq x) = true ↔ x.IsNearest n := by
  obtain ⟨r, hr⟩ := Option.isSome_iff_exists.mp (ofInt?_isSome h)
  have hnearest := isNearest_of_ofInt? hr
  rw [hr, Option.any_some, numEq, beq_iff_eq, ← value_eq_value_iff]
  exact ⟨hnearest.of_value_eq, hnearest.value_eq⟩

theorem value_eq_intCast_iff {n : ℤ} : x.value = n ↔ x.units = n * one := by
  have hone : (one : ℚ) ≠ 0 := Nat.cast_ne_zero.mpr one_pos.ne'
  rw [value, div_eq_iff hone]
  exact_mod_cast Iff.rfl

theorem exists_significand {s : Nat} (hs : s < 2 ^ 53) (hne : s ≠ 0) :
    ∃ j m, m = s * 2 ^ j ∧ j ≤ 52 ∧ 2 ^ 52 ≤ m ∧ m < 2 ^ 53 := by
  have hlog : s.log2 < 53 := (Nat.log2_lt hne).mpr hs
  refine ⟨52 - s.log2, _, rfl, Nat.sub_le _ _, ?_, ?_⟩
  · calc 2 ^ 52 = 2 ^ s.log2 * 2 ^ (52 - s.log2) := by rw [← Nat.pow_add, Nat.add_sub_cancel' (by omega)]
      _ ≤ s * 2 ^ (52 - s.log2) := Nat.mul_le_mul_right _ (Nat.log2_self_le hne)
  · calc s * 2 ^ (52 - s.log2) < 2 ^ (s.log2 + 1) * 2 ^ (52 - s.log2) :=
          Nat.mul_lt_mul_of_pos_right Nat.lt_log2_self (Nat.two_pow_pos _)
      _ = 2 ^ 53 := by
        rw [← Nat.pow_add]
        congr 1
        omega

/-- A whole number is a floating-point number exactly if 53 bits hold its digits in front of the zeros at its end. -/
theorem exists_value_eq_iff {n : ℤ} (hn : n.natAbs ≤ 2 ^ 64) :
    (∃ x : Binary64, x.value = n) ↔ ∃ s k, s < 2 ^ 53 ∧ n.natAbs = s * 2 ^ k := by
  obtain ⟨e, he⟩ : ∃ e, 1074 = e := ⟨1074, rfl⟩
  constructor
  · rintro ⟨x, hx⟩
    have hsize := congrArg Int.natAbs (value_eq_intCast_iff.mp hx)
    rw [natAbs_units, magnitude, Nat.shiftLeft_eq, Int.natAbs_mul, Int.natAbs_natCast, one_eq he] at hsize
    have hlt := x.significand_lt
    rw [Nat.one_shiftLeft] at hlt
    rcases Nat.le_total e x.shift with hle | hle
    · refine ⟨x.significand, x.shift - e, hlt, Nat.eq_of_mul_eq_mul_right (Nat.two_pow_pos e) ?_⟩
      rw [← hsize, Nat.mul_assoc, ← Nat.pow_add, Nat.sub_add_cancel hle]
    · have hsignificand : x.significand = n.natAbs * 2 ^ (e - x.shift) := by
        apply Nat.eq_of_mul_eq_mul_right (Nat.two_pow_pos x.shift)
        rw [hsize, Nat.mul_assoc, ← Nat.pow_add, Nat.sub_add_cancel hle]
      have hle := Nat.le_mul_of_pos_right n.natAbs (Nat.two_pow_pos (e - x.shift))
      exact ⟨n.natAbs, 0, by omega, (Nat.mul_one _).symm⟩
  · rintro ⟨s, k, hs, hsize⟩
    by_cases hne : s = 0
    · rw [hne, Nat.zero_mul, Int.natAbs_eq_zero] at hsize
      exact ⟨zero false, value_eq_intCast_iff.mpr (by rw [hsize, Int.zero_mul]; rfl)⟩
    · obtain ⟨j, m, rfl, hj, hlow, hhigh⟩ := exists_significand hs hne
      have hk : k < 65 := by
        apply (Nat.pow_lt_pow_iff_right Nat.one_lt_two).mp
        have := Nat.le_mul_of_pos_left (2 ^ k) (Nat.pos_of_ne_zero hne)
        omega
      refine ⟨⟨decide (n < 0), s * 2 ^ j, e - j + k, hhigh, by omega, .inl hlow⟩, value_eq_intCast_iff.mpr ?_⟩
      have hmagnitude : (s * 2 ^ j) <<< (e - j + k) = n.natAbs * one := by
        rw [Nat.shiftLeft_eq, hsize, one_eq he, Nat.mul_assoc, Nat.mul_assoc, ← Nat.pow_add, ← Nat.pow_add]
        congr 2
        omega
      rw [units_eq, magnitude, hmagnitude, Int.natCast_mul, ← Int.mul_assoc, sign_mul_natAbs]

end AnswerKey.Binary64
