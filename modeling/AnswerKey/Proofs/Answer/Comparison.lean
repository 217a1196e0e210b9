import AnswerKey.Answer.Comparison
import AnswerKey.Proofs.Json.Proper
import Mathlib.Data.List.Perm.Subperm

namespace AnswerKey

theorem Number.same_refl (n : Number) : n.same n = true := by
  cases n with
  | int n => exact beq_self_eq_true n
  | float x => exact x.numEq_refl

theorem Number.same_comm (m n : Number) : m.same n = n.same m := by
  have hflip (x : Binary64) : (fun y : Binary64 ↦ y.numEq x) = x.numEq := funext fun y ↦ y.numEq_comm x
  cases m with
  | int a =>
    cases n with
    | int b => exact Bool.beq_comm
    | float y => simp only [same, hflip]
  | float x =>
    cases n with
    | int b => simp only [same, hflip]
    | float y => exact x.numEq_comm y

namespace Json

variable {items items' : List Json} {fields fields' : List (String × Json)} {v w : Json}

theorem sameItems_iff : sameItems items items' = true ↔ List.Forall₂ (fun v w ↦ v.same w = true) items items' := by
  induction items generalizing items' with
  | nil => cases items' <;> simp [sameItems]
  | cons v items ih => cases items' <;> simp [sameItems, ih]

theorem sameFields_iff : sameFields fields fields' = true ↔
    ∀ field ∈ fields, ∃ w, fields'.lookup field.1 = some w ∧ field.2.same w = true := by
  induction fields with
  | nil => simp [sameFields]
  | cons field fields ih =>
    obtain ⟨name, v⟩ := field
    rw [sameFields, Bool.and_eq_true, ih, List.forall_mem_cons]
    cases fields'.lookup name <;> simp

theorem Proper.nodup {fields : List (String × Json)} (h : Proper (.object fields)) : (fields.map Prod.fst).Nodup := by
  cases h with
  | object hnames _ => exact hnames.imp ne_of_lt

theorem Proper.same_refl (h : Proper v) : v.same v = true := by
  induction h with
  | null => rfl
  | bool b => exact beq_self_eq_true b
  | number n => exact n.same_refl
  | string s => exact beq_self_eq_true s
  | array _ ih => exact sameItems_iff.mpr (List.forall₂_same.mpr ih)
  | object hnames hproper ih =>
    have hnodup := (Proper.object hnames hproper).nodup
    rw [same, beq_self_eq_true, Bool.true_and, sameFields_iff]
    intro field hfield
    exact ⟨field.2, lookup_of_mem hnodup hfield, ih field hfield⟩

theorem same_object_iff : (Json.object fields).same (.object fields') = true ↔
    fields.length = fields'.length ∧ sameFields fields fields' = true := by
  rw [same, Bool.and_eq_true, beq_iff_eq]

theorem exists_mem_of_sameFields (hnames : (fields.map Prod.fst).Nodup) (hlength : fields.length = fields'.length)
    (h : sameFields fields fields' = true) {field' : String × Json} (hmem : field' ∈ fields') :
    ∃ v, (field'.1, v) ∈ fields := by
  -- The names of the first object are among those of the second, which are no more than they.
  have hsubset : fields.map Prod.fst ⊆ fields'.map Prod.fst := by
    intro name hname
    obtain ⟨field, hfield, rfl⟩ := List.mem_map.mp hname
    obtain ⟨w, hw, -⟩ := sameFields_iff.mp h field hfield
    exact List.mem_map.mpr ⟨_, mem_of_lookup hw, rfl⟩
  have hperm : (fields.map Prod.fst).Perm (fields'.map Prod.fst) := by
    apply (hnames.subperm hsubset).perm_of_length_le
    simp only [List.length_map, hlength, le_refl]
  obtain ⟨field, hfield, hname⟩ := List.mem_map.mp (hperm.mem_iff.mpr (List.mem_map_of_mem hmem))
  exact ⟨field.2, hname ▸ hfield⟩

theorem same_array_symm {items items' : List Json}
    (ih : ∀ v ∈ items, ∀ w ∈ items', v.same w = true → w.same v = true)
    (h : (Json.array items).same (.array items') = true) : (Json.array items').same (.array items) = true := by
  rw [same, sameItems_iff] at h ⊢
  induction h with
  | nil => exact .nil
  | cons hsame _ ihrest =>
    apply List.Forall₂.cons
    · exact ih _ List.mem_cons_self _ List.mem_cons_self hsame
    · apply ihrest
      intro v hv w hw
      exact ih v (List.mem_cons_of_mem _ hv) w (List.mem_cons_of_mem _ hw)

theorem Proper.same_symm (h : Proper v) (hw : Proper w) (hsame : v.same w = true) : w.same v = true := by
  induction h generalizing w with
  | null =>
    cases w with
    | null => rfl
    | _ => cases hsame
  | bool b =>
    cases w with
    | bool b' => exact Bool.beq_comm.trans hsame
    | _ => cases hsame
  | number n =>
    cases w with
    | number n' => exact (Number.same_comm _ _).trans hsame
    | _ => cases hsame
  | string s =>
    cases w with
    | string s' => exact Bool.beq_comm.trans hsame
    | _ => cases hsame
  | array _ ih =>
    cases hw with
    | array hproper' => exact same_array_symm (fun v hv w hw ↦ ih v hv (hproper' w hw)) hsame
    | _ => cases hsame
  | object hnames hproper ih =>
    cases w with
    | object fields' =>
      obtain ⟨hlength, hfields⟩ := same_object_iff.mp hsame
      have hnodup := (Proper.object hnames hproper).nodup
      refine same_object_iff.mpr ⟨hlength.symm, sameFields_iff.mpr ?_⟩
      intro field' hmem
      obtain ⟨v, hv⟩ := exists_mem_of_sameFields hnodup hlength hfields hmem
      obtain ⟨w, hlookup, hvw⟩ := sameFields_iff.mp hfields _ hv
      rw [lookup_of_mem hw.nodup hmem] at hlookup
      cases hlookup
      cases hw with
      | object _ hproper' => exact ⟨v, lookup_of_mem hnodup hv, ih _ hv (hproper' _ hmem) hvw⟩
    | _ => cases hsame

theorem Proper.same_comm (h : Proper v) (hw : Proper w) : v.same w = w.same v :=
  Bool.eq_iff_iff.mpr ⟨h.same_symm hw, hw.same_symm h⟩

end Json

/-- The difference seen from the other side. -/
def Mismatch.swap (m : Mismatch) : Mismatch := ⟨m.index, m.actual, m.expected⟩

def Mismatch.later (count : Nat) (m : Mismatch) : Mismatch := ⟨m.index + count, m.expected, m.actual⟩

/-- A side is missing at the position, or what stands there is not the same. -/
def DifferAt (expected actual : List Json) (i : Nat) : Prop :=
  ¬ ∃ e a, expected[i]? = some e ∧ actual[i]? = some a ∧ e.same a = true

/-- The least position where the lists differ and one of them has not ended, with what stands there. -/
structure Mismatch.IsFirst (m : Mismatch) (expected actual : List Json) : Prop where
  differ : DifferAt expected actual m.index
  least : ∀ i < m.index, ¬ DifferAt expected actual i
  expected_eq : m.expected = expected[m.index]?
  actual_eq : m.actual = actual[m.index]?
  present : m.expected.isSome = true ∨ m.actual.isSome = true

section

variable {e a : Json} {expected actual : List Json} {m m' : Mismatch} {i : Nat}

theorem mismatchFrom?_eq (i : Nat) (expected actual : List Json) :
    mismatchFrom? i expected actual = (mismatch? expected actual).map (Mismatch.later i) := by
  induction expected generalizing i actual with
  | nil =>
    cases actual with
    | nil => rfl
    | cons a actual => simp [mismatch?, mismatchFrom?, Mismatch.later]
  | cons e expected ih =>
    cases actual with
    | nil => simp [mismatch?, mismatchFrom?, Mismatch.later]
    | cons a actual =>
      simp only [mismatch?, mismatchFrom?]
      split
      · rw [ih (i + 1), ih (0 + 1), Option.map_map]
        congr 1
        funext m
        simp only [Function.comp_apply, Mismatch.later, Mismatch.mk.injEq, and_true]
        omega
      · simp [Mismatch.later]

theorem mismatch?_cons_of_same (h : e.same a = true) :
    mismatch? (e :: expected) (a :: actual) = (mismatch? expected actual).map (Mismatch.later 1) := by
  rw [mismatch?, mismatchFrom?, if_pos h, mismatchFrom?_eq]

theorem mismatch?_cons_of_not_same (h : ¬ e.same a = true) :
    mismatch? (e :: expected) (a :: actual) = some ⟨0, some e, some a⟩ := by
  rw [mismatch?, mismatchFrom?, if_neg h]

theorem differAt_cons_zero : DifferAt (e :: expected) (a :: actual) 0 ↔ ¬ e.same a = true := by
  simp [DifferAt]

theorem differAt_cons_succ : DifferAt (e :: expected) (a :: actual) (i + 1) ↔ DifferAt expected actual i := by
  simp only [DifferAt, List.getElem?_cons_succ]

theorem differAt_nil_left (actual : List Json) (i : Nat) : DifferAt [] actual i := by
  simp [DifferAt]

theorem differAt_nil_right (expected : List Json) (i : Nat) : DifferAt expected [] i := by
  simp [DifferAt]

theorem Mismatch.IsFirst.cons (h : m.IsFirst expected actual) (hsame : e.same a = true) :
    (m.later 1).IsFirst (e :: expected) (a :: actual) where
  differ := differAt_cons_succ.mpr h.differ
  least := by
    intro i hi
    cases i with
    | zero => simpa [differAt_cons_zero] using hsame
    | succ i => exact fun hdiffer ↦ h.least i (Nat.lt_of_succ_lt_succ hi) (differAt_cons_succ.mp hdiffer)
  expected_eq := h.expected_eq
  actual_eq := h.actual_eq
  present := h.present

theorem isFirst_of_mismatch? (h : mismatch? expected actual = some m) : m.IsFirst expected actual := by
  induction expected generalizing actual m with
  | nil =>
    cases actual with
    | nil => cases h
    | cons a actual =>
      cases h
      exact ⟨differAt_nil_left _ _, fun _ hi ↦ absurd hi (Nat.not_lt_zero _), rfl, rfl, .inr rfl⟩
  | cons e expected ih =>
    cases actual with
    | nil =>
      cases h
      exact ⟨differAt_nil_right _ _, fun _ hi ↦ absurd hi (Nat.not_lt_zero _), rfl, rfl, .inl rfl⟩
    | cons a actual =>
      by_cases hsame : e.same a = true
      · rw [mismatch?_cons_of_same hsame] at h
        obtain ⟨m, hm, rfl⟩ := Option.map_eq_some_iff.mp h
        exact (ih hm).cons hsame
      · rw [mismatch?_cons_of_not_same hsame] at h
        cases h
        exact ⟨differAt_cons_zero.mpr hsame, fun _ hi ↦ absurd hi (Nat.not_lt_zero _), rfl, rfl, .inl rfl⟩

theorem mismatch?_eq_none_iff :
    mismatch? expected actual = none ↔ List.Forall₂ (fun e a ↦ e.same a = true) expected actual := by
  induction expected generalizing actual with
  | nil => cases actual <;> simp [mismatch?, mismatchFrom?]
  | cons e expected ih =>
    cases actual with
    | nil => simp [mismatch?, mismatchFrom?]
    | cons a actual =>
      by_cases hsame : e.same a = true
      · rw [mismatch?_cons_of_same hsame, Option.map_eq_none_iff, ih, List.forall₂_cons, and_iff_right hsame]
      · rw [mismatch?_cons_of_not_same hsame, List.forall₂_cons]
        simp [hsame]

theorem Mismatch.IsFirst.unique (h : m.IsFirst expected actual) (h' : m'.IsFirst expected actual) : m = m' := by
  have hindex : m.index = m'.index := by
    rcases Nat.lt_trichotomy m.index m'.index with hlt | heq | hlt
    · exact absurd h.differ (h'.least _ hlt)
    · exact heq
    · exact absurd h'.differ (h.least _ hlt)
  have hexpected : m.expected = m'.expected := by rw [h.expected_eq, h'.expected_eq, hindex]
  have hactual : m.actual = m'.actual := by rw [h.actual_eq, h'.actual_eq, hindex]
  cases m
  cases m'
  simp_all

theorem not_isFirst_of_forall₂ (h : List.Forall₂ (fun e a ↦ e.same a = true) expected actual) :
    ¬ m.IsFirst expected actual := by
  intro hm
  obtain ⟨hlength, hsame⟩ := List.forall₂_iff_get.mp h
  have hlt : m.index < expected.length := by
    rcases hm.present with hpresent | hpresent
    · rw [hm.expected_eq] at hpresent
      simpa using hpresent
    · rw [hm.actual_eq] at hpresent
      rw [hlength]
      simpa using hpresent
  apply hm.differ
  exact ⟨_, _, List.getElem?_eq_getElem hlt, List.getElem?_eq_getElem (hlength ▸ hlt), hsame _ hlt (hlength ▸ hlt)⟩

theorem mismatch?_eq_some_iff : mismatch? expected actual = some m ↔ m.IsFirst expected actual := by
  refine ⟨isFirst_of_mismatch?, fun hm ↦ ?_⟩
  cases hfound : mismatch? expected actual with
  | none => exact absurd hm (not_isFirst_of_forall₂ (mismatch?_eq_none_iff.mp hfound))
  | some m' => rw [(isFirst_of_mismatch? hfound).unique hm]

theorem mismatch?_swap (hexpected : ∀ e ∈ expected, e.Proper) (hactual : ∀ a ∈ actual, a.Proper) :
    mismatch? actual expected = (mismatch? expected actual).map Mismatch.swap := by
  induction expected generalizing actual with
  | nil => cases actual <;> rfl
  | cons e expected ih =>
    cases actual with
    | nil => rfl
    | cons a actual =>
      obtain ⟨he, hexpected⟩ := List.forall_mem_cons.mp hexpected
      obtain ⟨ha, hactual⟩ := List.forall_mem_cons.mp hactual
      by_cases hsame : e.same a = true
      · rw [mismatch?_cons_of_same hsame, mismatch?_cons_of_same (he.same_symm ha hsame), ih hexpected hactual,
          Option.map_map, Option.map_map]
        rfl
      · rw [mismatch?_cons_of_not_same hsame, mismatch?_cons_of_not_same fun h ↦ hsame (ha.same_symm he h)]
        rfl

end

/-- Equality of answers is reflexive and symmetric. Two lists of answers compare as equal if they are as long as each
other and the same throughout; otherwise the comparison gives the first difference, which is the same one from either
side. -/
theorem comparison_lawful :
    (∀ v : Json, v.Proper → v.same v = true) ∧
      (∀ v w : Json, v.Proper → w.Proper → v.same w = w.same v) ∧
      ∀ expected actual : List Json,
        (mismatch? expected actual = none ↔ List.Forall₂ (fun e a ↦ e.same a = true) expected actual) ∧
          (∀ m, mismatch? expected actual = some m ↔ m.IsFirst expected actual) ∧
          ((∀ e ∈ expected, e.Proper) → (∀ a ∈ actual, a.Proper) →
            mismatch? actual expected = (mismatch? expected actual).map Mismatch.swap) := by
  refine ⟨fun v h ↦ h.same_refl, fun v w h hw ↦ h.same_comm hw, fun expected actual ↦ ?_⟩
  exact ⟨mismatch?_eq_none_iff, fun m ↦ mismatch?_eq_some_iff, mismatch?_swap⟩

theorem comparison_lawful_twos : ∃ v w : Json,
    Json.parse? "\x7b\"a\":[2,null],\"b\":\"x\"\x7d".toList = some v ∧
      Json.parse? "\x7b\"b\":\"x\",\"a\":[2.0,null]\x7d".toList = some w ∧ v.Proper ∧ w.Proper ∧
      v.same v = true ∧ v.same w = w.same v ∧
      mismatch? [v] [w, v] = some ⟨1, none, some v⟩ ∧ mismatch? [w, v] [v] = some ⟨1, some v, none⟩ := by
  have hparsed : ((Json.parse? "\x7b\"a\":[2,null],\"b\":\"x\"\x7d".toList).bind fun v ↦
      (Json.parse? "\x7b\"b\":\"x\",\"a\":[2.0,null]\x7d".toList).map v.same) = some true := by
    decide +kernel
  obtain ⟨v, hv, hparsed⟩ := Option.bind_eq_some_iff.mp hparsed
  obtain ⟨w, hw, hsame⟩ := Option.map_eq_some_iff.mp hparsed
  have hvproper := Json.proper_of_parse? hv
  have hwproper := Json.proper_of_parse? hw
  obtain ⟨hrefl, hcomm, hlists⟩ := comparison_lawful
  have hfirst : mismatch? [v] [w, v] = some ⟨1, none, some v⟩ := by
    rw [mismatch?_cons_of_same hsame]
    rfl
  refine ⟨v, w, hv, hw, hvproper, hwproper, hrefl v hvproper, hcomm v w hvproper hwproper, hfirst, ?_⟩
  rw [(hlists [v] [w, v]).2.2 (by simp [hvproper]) (by simp [hvproper, hwproper]), hfirst]
  rfl

end AnswerKey
