import AnswerKey.Json.Printer
import AnswerKey.Proofs.Json.Lexical
import AnswerKey.Text.Blank
import Mathlib.Algebra.Group.Int.Defs

namespace AnswerKey.Number

/-- No number goes on with this text. -/
def EndsNumber (rest : List Char) : Prop := ∀ c ∈ rest.head?, isNumeral c = false

def AllDigits (text : List Char) : Prop := ∀ c ∈ text, c.isDigit = true

structure IsWhole (digits : List Char) : Prop where
  ne_nil : digits ≠ []
  allDigits : AllDigits digits
  leading : ¬ (digits.head? = some '0' ∧ 1 < digits.length)

inductive IsFraction : List Char → Option (List Char) → Prop
  | absent : IsFraction [] none
  | digits {digits : List Char} (hne : digits ≠ []) (hdigits : AllDigits digits) :
      IsFraction ('.' :: digits) (some digits)

inductive IsSign : List Char → Bool → Prop
  | absent : IsSign [] false
  | plus : IsSign ['+'] false
  | minus : IsSign ['-'] true

inductive IsExponent : List Char → Option Int → Prop
  | absent : IsExponent [] none
  | power {c : Char} {sign digits : List Char} {negative : Bool} (hc : c = 'e' ∨ c = 'E') (hsign : IsSign sign negative)
      (hne : digits ≠ []) (hdigits : AllDigits digits) :
      IsExponent (c :: (sign ++ digits)) (some (if negative then -(ofDigits digits : Int) else ofDigits digits))

/-- The number that the parts make; there is none beyond the floating-point numbers. -/
def ofParts? (negative : Bool) (whole : List Char) (fraction : Option (List Char)) (power : Option Int) :
    Option Number :=
  if fraction.isNone ∧ power.isNone then ofWhole? negative whole
  else (float? negative whole (fraction.getD []) (power.getD 0)).map .float

inductive IsNumber : List Char → Option Number → Prop
  | positive {whole fraction exponent : List Char} {digits : Option (List Char)} {power : Option Int}
      (hwhole : IsWhole whole) (hfraction : IsFraction fraction digits) (hexponent : IsExponent exponent power) :
      IsNumber (whole ++ (fraction ++ exponent)) (ofParts? false whole digits power)
  | negative {whole fraction exponent : List Char} {digits : Option (List Char)} {power : Option Int}
      (hwhole : IsWhole whole) (hfraction : IsFraction fraction digits) (hexponent : IsExponent exponent power) :
      IsNumber ('-' :: (whole ++ (fraction ++ exponent))) (ofParts? true whole digits power)

variable {text rest digits fraction exponent whole sign : List Char} {found : Option (List Char)} {power : Option Int}
  {value : Option Number}

theorem not_isBlank_of_isNumeral {c : Char} (h : isNumeral c = true) : Text.isBlank c = false := by
  rw [isNumeral, Bool.or_eq_true] at h
  rcases h with hdigit | hmark
  · simp only [Char.isDigit, Bool.and_eq_true, decide_eq_true_eq, ge_iff_le, UInt32.le_iff_toNat_le] at hdigit
    simp only [Text.isBlank, Bool.or_eq_false_iff, Bool.and_eq_false_iff, decide_eq_false_iff_not,
      UInt32.le_iff_toNat_le, beq_eq_false_iff_ne, ne_eq, ← UInt32.toNat_inj, UInt32.reduceToNat]
    have hzero : '0'.val.toNat = 48 := rfl
    have hnine : '9'.val.toNat = 57 := rfl
    omega
  · have hmarks : ['+', '-', '.', 'e', 'E'].any Text.isBlank = false := by decide
    exact Bool.eq_false_iff.mpr (List.any_eq_false.mp hmarks c (of_decide_eq_true hmark))

theorem span_digits (hdigits : AllDigits digits) (hrest : ∀ c ∈ rest.head?, c.isDigit = false) :
    (digits ++ rest).takeWhile Char.isDigit = digits ∧ (digits ++ rest).dropWhile Char.isDigit = rest := by
  rw [List.takeWhile_append_of_pos hdigits, List.dropWhile_append_of_pos hdigits]
  cases rest with
  | nil => simp
  | cons c rest =>
    have hc : c.isDigit = false := hrest c rfl
    simp [hc]

theorem not_isDigit_of_not_isNumeral {c : Char} (h : isNumeral c = false) : c.isDigit = false := by
  by_contra hdigit
  rw [isNumeral_of_isDigit (by simpa using hdigit)] at h
  cases h

theorem endsNumber_cons {c : Char} (hc : isNumeral c = false) (rest : List Char) : EndsNumber (c :: rest) := by
  intro d hd
  cases hd
  exact hc

theorem EndsNumber.not_isDigit (h : EndsNumber rest) : ∀ c ∈ rest.head?, c.isDigit = false :=
  fun c hc ↦ not_isDigit_of_not_isNumeral (h c hc)

theorem IsExponent.head_not_isDigit (h : IsExponent exponent power) (hrest : EndsNumber rest) :
    ∀ c ∈ (exponent ++ rest).head?, c.isDigit = false := by
  cases h with
  | absent => exact hrest.not_isDigit
  | power hc _ _ _ =>
    intro d hd
    cases hd
    rcases hc with rfl | rfl <;> rfl

theorem IsFraction.head_not_isDigit (h : IsFraction fraction found)
    (hrest : ∀ c ∈ rest.head?, c.isDigit = false) : ∀ c ∈ (fraction ++ rest).head?, c.isDigit = false := by
  cases h with
  | absent => exact hrest
  | digits _ _ =>
    intro c hc
    cases hc
    rfl

theorem IsFraction.readFraction?_eq (h : IsFraction fraction found) (hdigit : ∀ c ∈ rest.head?, c.isDigit = false)
    (hpoint : rest.head? ≠ some '.') : readFraction? (fraction ++ rest) = some (found, rest) := by
  cases h with
  | absent =>
    unfold readFraction?
    split
    · next heq =>
      rw [List.nil_append] at heq
      exact absurd (by rw [heq]; rfl) hpoint
    · rfl
  | @digits digits hne hdigits =>
    obtain ⟨htake, hdrop⟩ := span_digits hdigits hdigit
    simp only [List.cons_append, readFraction?, htake, hdrop]

theorem IsSign.readSign_eq {negative : Bool} (h : IsSign sign negative) (hdigits : AllDigits digits)
    (hne : digits ≠ []) : readSign (sign ++ (digits ++ rest)) = (negative, digits ++ rest) := by
  cases h with
  | absent =>
    obtain ⟨c, digits, rfl⟩ := List.exists_cons_of_ne_nil hne
    have hc : c.isDigit = true := hdigits c List.mem_cons_self
    unfold readSign
    split
    · next heq =>
      cases heq
      cases hc
    · next heq =>
      cases heq
      cases hc
    · rfl
  | plus => rfl
  | minus => rfl

theorem IsExponent.readExponent?_eq (h : IsExponent exponent power) (hrest : EndsNumber rest) :
    readExponent? (exponent ++ rest) = some (power, rest) := by
  cases h with
  | absent =>
    cases rest with
    | nil => rfl
    | cons c rest =>
      have hc : ¬ (c = 'e' ∨ c = 'E') := by
        have hnumeral := hrest c rfl
        rintro (rfl | rfl) <;> cases hnumeral
      simp only [List.nil_append, readExponent?, if_neg hc]
  | @power c sign digits negative hc hsign hne hdigits =>
    obtain ⟨htake, hdrop⟩ := span_digits hdigits hrest.not_isDigit
    rw [List.cons_append, List.append_assoc]
    simp only [readExponent?, if_pos hc, hsign.readSign_eq hdigits hne, htake, hdrop]

theorem EndsNumber.ne_point (h : EndsNumber rest) : rest.head? ≠ some '.' := by
  intro hhead
  have hpoint := h '.' hhead
  cases hpoint

theorem IsExponent.ne_point (h : IsExponent exponent power) (hrest : EndsNumber rest) :
    (exponent ++ rest).head? ≠ some '.' := by
  cases h with
  | absent => exact hrest.ne_point
  | power hc _ _ _ =>
    intro hhead
    cases hhead
    rcases hc with hc | hc <;> cases hc

def readUnsigned? (negative : Bool) (text : List Char) : Option (Number × List Char) :=
  let whole := text.takeWhile Char.isDigit
  if whole.isEmpty ∨ (whole.head? = some '0' ∧ 1 < whole.length) then none
  else
    (readFraction? (text.dropWhile Char.isDigit)).bind fun (fraction, text) ↦
      (readExponent? text).bind fun (power, text) ↦ (ofParts? negative whole fraction power).map (·, text)

theorem read?_minus (text : List Char) : read? ('-' :: text) = readUnsigned? true text := rfl

theorem read?_of_ne_minus (h : text.head? ≠ some '-') : read? text = readUnsigned? false text := by
  unfold read?
  split
  next negative digits hsigned =>
  split at hsigned
  · exact absurd rfl h
  · cases hsigned
    rfl

theorem readUnsigned?_append (negative : Bool) (hwhole : IsWhole whole) (hfraction : IsFraction fraction found)
    (hexponent : IsExponent exponent power) (hrest : EndsNumber rest) :
    readUnsigned? negative (whole ++ (fraction ++ (exponent ++ rest))) =
      (ofParts? negative whole found power).map (·, rest) := by
  obtain ⟨htake, hdrop⟩ := span_digits hwhole.allDigits
    (hfraction.head_not_isDigit (hexponent.head_not_isDigit hrest))
  have hread : readFraction? (fraction ++ (exponent ++ rest)) = some (found, exponent ++ rest) :=
    hfraction.readFraction?_eq (hexponent.head_not_isDigit hrest) (hexponent.ne_point hrest)
  have hguard : ¬ (whole.isEmpty = true ∨ (whole.head? = some '0' ∧ 1 < whole.length)) := by
    rw [List.isEmpty_iff]
    exact not_or.mpr ⟨hwhole.ne_nil, hwhole.leading⟩
  simp only [readUnsigned?, htake, hdrop, if_neg hguard, hread, hexponent.readExponent?_eq hrest, Option.bind_some]

theorem IsWhole.head_ne_minus (hwhole : IsWhole whole) (text : List Char) : (whole ++ text).head? ≠ some '-' := by
  obtain ⟨c, digits, rfl⟩ := List.exists_cons_of_ne_nil hwhole.ne_nil
  have hc : c.isDigit = true := hwhole.allDigits c List.mem_cons_self
  intro hhead
  cases hhead
  cases hc

theorem read?_append (h : IsNumber text value) (hrest : EndsNumber rest) :
    read? (text ++ rest) = value.map (·, rest) := by
  cases h with
  | positive hwhole hfraction hexponent =>
    rw [List.append_assoc, List.append_assoc, read?_of_ne_minus (hwhole.head_ne_minus _)]
    exact readUnsigned?_append false hwhole hfraction hexponent hrest
  | negative hwhole hfraction hexponent =>
    rw [List.cons_append, List.append_assoc, List.append_assoc, read?_minus]
    exact readUnsigned?_append true hwhole hfraction hexponent hrest

theorem IsWhole.forall_isNumeral (h : IsWhole whole) : ∀ c ∈ whole, isNumeral c = true :=
  fun c hc ↦ isNumeral_of_isDigit (h.allDigits c hc)

theorem IsFraction.forall_isNumeral (h : IsFraction fraction found) : ∀ c ∈ fraction, isNumeral c = true := by
  cases h with
  | absent => exact List.forall_mem_nil _
  | digits _ hdigits => exact List.forall_mem_cons.mpr ⟨by decide, fun c hc ↦ isNumeral_of_isDigit (hdigits c hc)⟩

theorem IsSign.forall_isNumeral {negative : Bool} (h : IsSign sign negative) : ∀ c ∈ sign, isNumeral c = true := by
  cases h with
  | absent => exact List.forall_mem_nil _
  | plus => exact List.forall_mem_singleton.mpr rfl
  | minus => exact List.forall_mem_singleton.mpr rfl

theorem IsExponent.forall_isNumeral (h : IsExponent exponent power) : ∀ c ∈ exponent, isNumeral c = true := by
  cases h with
  | absent => exact List.forall_mem_nil _
  | power hc hsign _ hdigits =>
    have hletter : ∀ c, c = 'e' ∨ c = 'E' → isNumeral c = true := by rintro c (rfl | rfl) <;> decide
    refine List.forall_mem_cons.mpr ⟨hletter _ hc, List.forall_mem_append.mpr ⟨hsign.forall_isNumeral, ?_⟩⟩
    exact fun c hc ↦ isNumeral_of_isDigit (hdigits c hc)

theorem IsNumber.forall_isNumeral (h : IsNumber text value) : ∀ c ∈ text, isNumeral c = true := by
  cases h with
  | positive hwhole hfraction hexponent =>
    apply List.forall_mem_append.mpr ⟨hwhole.forall_isNumeral, ?_⟩
    exact List.forall_mem_append.mpr ⟨hfraction.forall_isNumeral, hexponent.forall_isNumeral⟩
  | negative hwhole hfraction hexponent =>
    apply List.forall_mem_cons.mpr ⟨by decide, List.forall_mem_append.mpr ⟨hwhole.forall_isNumeral, ?_⟩⟩
    exact List.forall_mem_append.mpr ⟨hfraction.forall_isNumeral, hexponent.forall_isNumeral⟩

theorem IsNumber.ne_nil (h : IsNumber text value) : text ≠ [] := by
  cases h with
  | positive hwhole _ _ => exact List.append_ne_nil_of_left_ne_nil hwhole.ne_nil _
  | negative _ _ _ => exact List.cons_ne_nil _ _

theorem ofDigits_toDigits (n : Nat) : ofDigits (Nat.toDigits 10 n) = n := by
  have hfold : ofDigits (Nat.toDigits 10 n) = Nat.ofDigitChars 10 (Nat.toDigits 10 n) 0 := by
    unfold ofDigits Nat.ofDigitChars
    congr 1
    funext n c
    rw [Nat.mul_comm]
    rfl
  rw [hfold, Nat.ofDigitChars_ten_toDigits]

theorem head_toDigits_ne_zero {n : Nat} (h : 0 < n) : (Nat.toDigits 10 n).head? ≠ some '0' := by
  induction n using Nat.strong_induction_on with
  | _ n ih =>
    by_cases hlt : n < 10
    · have hdigits : ∀ n < 10, 0 < n → Nat.digitChar n ≠ '0' := by decide
      rw [Nat.toDigits_of_lt_base hlt]
      simpa using hdigits n hlt h
    · rw [Nat.toDigits_of_base_le (by decide) (by omega), List.head?_append]
      have hhead := ih (n / 10) (by omega) (by omega)
      cases hfirst : (Nat.toDigits 10 (n / 10)).head? with
      | none => exact absurd (List.head?_eq_none_iff.mp hfirst) Nat.toDigits_ne_nil
      | some c =>
        rw [hfirst] at hhead
        exact hhead

theorem isWhole_toDigits (n : Nat) : IsWhole (Nat.toDigits 10 n) where
  ne_nil := Nat.toDigits_ne_nil
  allDigits := fun _ hc ↦ Nat.isDigit_of_mem_toDigits (by decide) (by decide) hc
  leading := by
    rintro ⟨hzero, hlength⟩
    have hn : 0 < n := by
      apply Nat.pos_of_ne_zero
      rintro rfl
      rw [Nat.toDigits_zero] at hlength
      exact absurd hlength (by decide)
    exact head_toDigits_ne_zero hn hzero

theorem ofParts?_whole (negative : Bool) (whole : List Char) :
    ofParts? negative whole none none = ofWhole? negative whole := if_pos ⟨rfl, rfl⟩

theorem ofWhole?_negative {n : Int} (hmin : -2 ^ 63 ≤ n) (hn : n < 0) :
    ofWhole? true (Nat.toDigits 10 n.natAbs) = some (.int n) := by
  have hzero : ¬ n.natAbs = 0 := by omega
  have hrange : Int64.minValue.toInt ≤ -(n.natAbs : Int) := by
    have hsize : Int64.minValue.toInt = -2 ^ 63 := by decide
    omega
  rw [ofWhole?, if_pos rfl, ofDigits_toDigits, if_neg hzero, if_pos hrange]
  congr 2
  omega

theorem ofWhole?_nonnegative {n : Int} (hmax : n < 2 ^ 64) (hn : 0 ≤ n) :
    ofWhole? false (Nat.toDigits 10 n.natAbs) = some (.int n) := by
  have hrange : n.natAbs < UInt64.size := by
    have hsize : UInt64.size = 2 ^ 64 := rfl
    omega
  rw [ofWhole?, if_neg Bool.false_ne_true, ofDigits_toDigits, if_pos hrange]
  congr 2
  omega

theorem isNumber_text {n : Int} (hmin : -2 ^ 63 ≤ n) (hmax : n < 2 ^ 64) :
    IsNumber (Number.text (.int n)) (some (.int n)) := by
  have hwhole := isWhole_toDigits n.natAbs
  by_cases hn : n < 0
  · have htext : Number.text (.int n) = '-' :: (Nat.toDigits 10 n.natAbs ++ ([] ++ [])) := by
      rw [Number.text, if_pos hn, List.append_nil, List.append_nil]
      rfl
    rw [htext, ← ofWhole?_negative hmin hn, ← ofParts?_whole]
    exact .negative hwhole .absent .absent
  · have htext : Number.text (.int n) = Nat.toDigits 10 n.natAbs ++ ([] ++ []) := by
      rw [Number.text, if_neg hn, List.append_nil, List.append_nil]
      rfl
    rw [htext, ← ofWhole?_nonnegative hmax (Int.not_lt.mp hn), ← ofParts?_whole]
    exact .positive hwhole .absent .absent

end AnswerKey.Number
