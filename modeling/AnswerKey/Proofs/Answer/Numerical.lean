import AnswerKey.Proofs.Answer.Comparison
import AnswerKey.Proofs.Number.Rounding

namespace AnswerKey

namespace Number

def value : Number → ℚ
  | int n => n
  | float x => x.value

def InRange : Number → Prop
  | int n => -2 ^ 63 ≤ n ∧ n < 2 ^ 64
  | float _ => True

instance : DecidablePred InRange
  | int _ => inferInstanceAs (Decidable (_ ∧ _))
  | float _ => .isTrue trivial

/-- The whole number is a floating-point number. -/
def IsFloat (n : ℤ) : Prop := ∃ x : Binary64, x.value = n

def RoundsTo : Number → Number → Prop
  | int n, float x => ¬ IsFloat n ∧ x.IsNearest n
  | _, _ => False

variable {l m n : Number} {a b : ℤ} {x y : Binary64}

theorem natAbs_le_of_inRange (h : (int a).InRange) : a.natAbs ≤ 2 ^ 64 := by
  obtain ⟨hlow, hhigh⟩ := h
  omega

theorem isNearest_of_same (h : (int a).same (float x) = true) : x.IsNearest a := by
  cases hr : Binary64.ofInt? a with
  | none => simp [same, hr] at h
  | some r =>
    have hvalue : r.value = x.value := by simpa [same, hr, Binary64.numEq, Binary64.value_eq_value_iff] using h
    exact (Binary64.isNearest_of_ofInt? hr).of_value_eq hvalue

theorem same_int_float_iff (h : (int a).InRange) : (int a).same (float x) = true ↔ x.IsNearest a :=
  Binary64.ofInt?_any_iff (natAbs_le_of_inRange h)

theorem value_eq_or_roundsTo_iff : (int a).value = (float x).value ∨ (int a).RoundsTo (float x) ↔ x.IsNearest a := by
  have hequal : (int a).value = (float x).value ↔ x.value = a := eq_comm
  by_cases ha : IsFloat a
  · obtain ⟨y, hy⟩ := ha
    rw [Binary64.isNearest_iff_of_value_eq hy, hequal]
    exact or_iff_left fun hrounds ↦ hrounds.1 ⟨y, hy⟩
  · have hne : ¬ (int a).value = (float x).value := fun heq ↦ ha ⟨x, hequal.mp heq⟩
    rw [or_iff_right hne]
    exact and_iff_right ha

theorem same_iff (hm : m.InRange) (hn : n.InRange) :
    m.same n = true ↔ m.value = n.value ∨ m.RoundsTo n ∨ n.RoundsTo m := by
  cases m with
  | int a =>
    cases n with
    | int b => simp [same, value, RoundsTo]
    | float y =>
      rw [same_int_float_iff hm, ← value_eq_or_roundsTo_iff]
      simp [RoundsTo]
  | float x =>
    cases n with
    | int b =>
      rw [same_comm, same_int_float_iff hn, ← value_eq_or_roundsTo_iff, eq_comm]
      simp [RoundsTo]
    | float y =>
      simp [same, value, RoundsTo, Binary64.numEq, Binary64.value_eq_value_iff]

theorem numEq_trans {z : Binary64} (h : x.numEq y = true) (h' : y.numEq z = true) : x.numEq z = true :=
  beq_iff_eq.mpr ((eq_of_beq h).trans (eq_of_beq h'))

theorem any_numEq_congr (h : x.numEq y = true) (o : Option Binary64) : o.any (·.numEq x) = o.any (·.numEq y) := by
  cases o with
  | none => rfl
  | some r => simp only [Option.any_some, Binary64.numEq, eq_of_beq h]

theorem numEq_of_any {o : Option Binary64} (h : o.any (·.numEq x) = true) (h' : o.any (·.numEq y) = true) :
    x.numEq y = true := by
  cases o with
  | none => cases h
  | some r => exact numEq_trans ((x.numEq_comm r).trans h) h'

/-- Different whole numbers, and a floating-point number between them. -/
def Bridged (l m n : Number) : Prop := ∃ a b x, a ≠ b ∧ l = int a ∧ m = float x ∧ n = int b

theorem not_same_of_bridged (h : Bridged l m n) : ¬ l.same n = true := by
  obtain ⟨a, b, x, hne, rfl, -, rfl⟩ := h
  simpa [same] using hne

theorem same_trans (h : l.same m = true) (h' : m.same n = true) (hbridged : ¬ Bridged l m n) : l.same n = true := by
  cases m with
  | int b =>
    cases l with
    | int a =>
      obtain rfl : a = b := eq_of_beq h
      exact h'
    | float x =>
      cases n with
      | int c =>
        obtain rfl : b = c := eq_of_beq h'
        exact h
      | float y =>
        rw [same_comm] at h
        exact numEq_of_any h h'
  | float x =>
    cases l with
    | int a =>
      cases n with
      | int b =>
        by_contra hne
        exact hbridged ⟨a, b, x, fun heq ↦ hne (beq_iff_eq.mpr heq), rfl, rfl, rfl⟩
      | float y => exact (any_numEq_congr h' _).symm.trans h
    | float y =>
      cases n with
      | int b =>
        rw [same_comm] at h h' ⊢
        exact (any_numEq_congr h _).symm.trans h'
      | float z => exact numEq_trans h h'

theorem same_trans_iff (h : l.same m = true) (h' : m.same n = true) : l.same n = true ↔ ¬ Bridged l m n :=
  ⟨fun hsame hbridged ↦ not_same_of_bridged hbridged hsame, same_trans h h'⟩

theorem eq_of_isNearest (ha : IsFloat a) (hb : IsFloat b) (h : x.IsNearest a) (h' : x.IsNearest b) : a = b := by
  obtain ⟨y, hy⟩ := ha
  obtain ⟨z, hz⟩ := hb
  have heq : (a : ℚ) = b :=
    ((Binary64.isNearest_iff_of_value_eq hy).mp h).symm.trans ((Binary64.isNearest_iff_of_value_eq hz).mp h')
  exact_mod_cast heq

theorem not_bridged_of_isFloat (hl : ∀ a, l = int a → IsFloat a) (hn : ∀ b, n = int b → IsFloat b)
    (h : l.same m = true) (h' : m.same n = true) : ¬ Bridged l m n := by
  rintro ⟨a, b, x, hne, rfl, rfl, rfl⟩
  rw [same_comm] at h'
  exact hne (eq_of_isNearest (hl a rfl) (hn b rfl) (isNearest_of_same h) (isNearest_of_same h'))

end Number

namespace Json

/-- Every whole number in the value is a floating-point number. -/
inductive Exact : Json → Prop
  | null : Exact null
  | bool (b : Bool) : Exact (bool b)
  | number {n : Number} (h : ∀ a, n = .int a → Number.IsFloat a) : Exact (number n)
  | string (s : String) : Exact (string s)
  | array {items : List Json} (h : ∀ v ∈ items, Exact v) : Exact (array items)
  | object {fields : List (String × Json)} (h : ∀ field ∈ fields, Exact field.2) : Exact (object fields)

variable {v w u : Json} {items items' items'' : List Json} {fields fields' fields'' : List (String × Json)}

theorem sameItems_trans (ih : ∀ v ∈ items, ∀ w, ∀ u ∈ items'', v.same w = true → w.same u = true → v.same u = true)
    (h : sameItems items items' = true) (h' : sameItems items' items'' = true) : sameItems items items'' = true := by
  rw [sameItems_iff] at h h' ⊢
  induction h generalizing items'' with
  | nil => exact h'
  | cons hsame _ ihrest =>
    cases h' with
    | cons hsame' hrest' =>
      apply List.Forall₂.cons
      · exact ih _ List.mem_cons_self _ _ List.mem_cons_self hsame hsame'
      · exact ihrest (fun v hv w u hu ↦ ih v (List.mem_cons_of_mem _ hv) w u (List.mem_cons_of_mem _ hu)) hrest'

theorem sameFields_trans
    (ih : ∀ field ∈ fields, ∀ w, ∀ field'' ∈ fields'', field.2.same w = true → w.same field''.2 = true →
      field.2.same field''.2 = true)
    (h : sameFields fields fields' = true) (h' : sameFields fields' fields'' = true) :
    sameFields fields fields'' = true := by
  rw [sameFields_iff] at h h' ⊢
  intro field hfield
  obtain ⟨w, hw, hsame⟩ := h field hfield
  obtain ⟨u, hu, hsame'⟩ := h' _ (mem_of_lookup hw)
  exact ⟨u, hu, ih field hfield w _ (mem_of_lookup hu) hsame hsame'⟩

theorem Exact.same_trans (hv : v.Exact) (hu : u.Exact) (h : v.same w = true) (h' : w.same u = true) :
    v.same u = true := by
  induction hv generalizing w u with
  | null =>
    cases w with
    | null => exact h'
    | _ => cases h
  | bool b =>
    cases w with
    | bool b' =>
      obtain rfl : b = b' := eq_of_beq h
      exact h'
    | _ => cases h
  | number hl =>
    cases w with
    | number m =>
      cases hu with
      | number hn => exact Number.same_trans h h' (Number.not_bridged_of_isFloat hl hn h h')
      | _ => cases h'
    | _ => cases h
  | string s =>
    cases w with
    | string s' =>
      obtain rfl : s = s' := eq_of_beq h
      exact h'
    | _ => cases h
  | array _ ih =>
    cases w with
    | array items' =>
      cases hu with
      | array hitems => exact sameItems_trans (fun v hv w u hu ↦ ih v hv (hitems u hu)) h h'
      | _ => cases h'
    | _ => cases h
  | object _ ih =>
    cases w with
    | object fields' =>
      cases hu with
      | object hfields =>
        obtain ⟨hlength, hsame⟩ := same_object_iff.mp h
        obtain ⟨hlength', hsame'⟩ := same_object_iff.mp h'
        refine same_object_iff.mpr ⟨hlength.trans hlength', ?_⟩
        exact sameFields_trans (fun field hfield w field'' hfield'' ↦ ih field hfield (hfields _ hfield'')) hsame hsame'
      | _ => cases h'
    | _ => cases h

end Json

/-- Numbers are the same exactly if they are equal, or the one is whole and no floating-point number and the other is
the floating-point number nearest to it. Whole numbers that 53 bits hold up to zeros at their end are floating-point
numbers. Sameness is passed on from number to number except between different whole numbers that have one
floating-point number between them, and of these one at least is no floating-point number itself; so it is passed on
between values whose whole numbers are floating-point numbers. -/
theorem numbers_compared {m n : Number} (hm : m.InRange) (hn : n.InRange) :
    (m.same n = true ↔ m.value = n.value ∨ m.RoundsTo n ∨ n.RoundsTo m) ∧
      (∀ a : ℤ, (Number.int a).InRange → (Number.IsFloat a ↔ ∃ s k, s < 2 ^ 53 ∧ a.natAbs = s * 2 ^ k)) ∧
      (∀ l : Number, l.same m = true → m.same n = true → (l.same n = true ↔ ¬ Number.Bridged l m n)) ∧
      (∀ (a b : ℤ) (x : Binary64), (Number.int a).same (.float x) = true → (Number.int b).same (.float x) = true →
        Number.IsFloat a → Number.IsFloat b → a = b) ∧
      ∀ v w u : Json, v.Exact → u.Exact → v.same w = true → w.same u = true → v.same u = true := by
  refine ⟨Number.same_iff hm hn, fun a ha ↦ ?_, fun l ↦ Number.same_trans_iff, ?_, ?_⟩
  · exact Binary64.exists_value_eq_iff (Number.natAbs_le_of_inRange ha)
  · intro a b x h h' ha hb
    exact Number.eq_of_isNearest ha hb (Number.isNearest_of_same h) (Number.isNearest_of_same h')
  · exact fun v w u hv hu ↦ hv.same_trans hu

def Binary64.twoPow53 : Binary64 := ⟨false, 1 <<< 52, 1075, by decide, by decide, .inl (by decide)⟩

theorem value_ne_twoPow53 : (Number.int 9007199254740993).value ≠ (Number.float .twoPow53).value := by
  have hvalue : Binary64.twoPow53.value = (9007199254740992 : ℤ) :=
    Binary64.value_eq_intCast_iff.mpr (by decide +kernel)
  change ((9007199254740993 : ℤ) : ℚ) ≠ Binary64.twoPow53.value
  rw [hvalue, Ne, Int.cast_inj]
  decide

theorem numbers_compared_twoPow53 :
    (Number.int 9007199254740993).InRange ∧ (Number.float .twoPow53).InRange ∧
      (Number.int 9007199254740993).same (.float .twoPow53) = true ∧
      (Number.int 9007199254740993).RoundsTo (.float .twoPow53) ∧
      (Json.array [.number (.int 9007199254740992)]).Exact ∧
      (Json.array [.number (.int 9007199254740992)]).same (.array [.number (.float .twoPow53)]) = true ∧
      (Json.array [.number (.float .twoPow53)]).same (.array [.number (.int 9007199254740992)]) = true ∧
      (Json.array [.number (.int 9007199254740992)]).same (.array [.number (.int 9007199254740992)]) = true := by
  have hrange : (Number.int 9007199254740993).InRange := by decide
  have hrange' : (Number.float .twoPow53).InRange := trivial
  obtain ⟨hsame, hfloat, -, -, htrans⟩ := numbers_compared hrange hrange'
  have hinexact : (Number.int 9007199254740993).same (.float .twoPow53) = true := by decide +kernel
  have hrounds : (Number.int 9007199254740993).RoundsTo (.float .twoPow53) := by
    rcases hsame.mp hinexact with hequal | hrounds | hnone
    · exact absurd hequal value_ne_twoPow53
    · exact hrounds
    · exact hnone.elim
  have hpow : Number.IsFloat 9007199254740992 := (hfloat _ (by decide)).mpr ⟨1, 53, by decide, by decide⟩
  have hexact : (Json.array [.number (.int 9007199254740992)]).Exact := by
    refine .array fun v hv ↦ ?_
    rw [List.mem_singleton.mp hv]
    exact .number fun a ha ↦ Number.int.inj ha ▸ hpow
  have hfirst : (Json.array [.number (.int 9007199254740992)]).same (.array [.number (.float .twoPow53)]) = true := by
    decide +kernel
  have hsecond : (Json.array [.number (.float .twoPow53)]).same (.array [.number (.int 9007199254740992)]) = true := by
    decide +kernel
  exact ⟨hrange, hrange', hinexact, hrounds, hexact, hfirst, hsecond, htrans _ _ _ hexact hexact hfirst hsecond⟩

theorem neighbours_same_as_twoPow53 :
    Number.read? "9007199254740992.0".toList = some (.float .twoPow53, []) ∧
      (Number.int 9007199254740993).same (.float .twoPow53) = true ∧
      (Number.int 9007199254740993).value ≠ (Number.float .twoPow53).value ∧
      (Number.float .twoPow53).same (.int 9007199254740992) = true ∧
      (Number.int 9007199254740993).same (.int 9007199254740992) = false :=
  ⟨by decide +kernel, by decide +kernel, value_ne_twoPow53, by decide +kernel, by decide⟩

end AnswerKey
