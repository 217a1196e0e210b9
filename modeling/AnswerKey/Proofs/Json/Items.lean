import AnswerKey.Proofs.Json.Lexical

namespace AnswerKey.Json

section

variable {α : Type} {item? : List Char → Option (α × List Char)} {closer c : Char} {a : α} {items read : List α}
  {text rest front : List Char}

/-- Items with commas between them up to the closing character; blanks may stand in front of these. -/
inductive Items (item? : List Char → Option (α × List Char)) (closer : Char) : List α → List Char → List Char → Prop
  | last {a : α} {text afterItem rest : List Char} (hitem : item? text = some (a, afterItem))
      (hclose : skipBlanks afterItem = closer :: rest) : Items item? closer [a] text rest
  | more {a : α} {items : List α} {text afterItem afterComma rest : List Char}
      (hitem : item? text = some (a, afterItem)) (hcomma : skipBlanks afterItem = ',' :: afterComma)
      (h : Items item? closer items afterComma rest) : Items item? closer (a :: items) text rest

inductive Enclosed (item? : List Char → Option (α × List Char)) (closer : Char) : List α → List Char → List Char → Prop
  | empty {text rest : List Char} (hclose : skipBlanks text = closer :: rest) : Enclosed item? closer [] text rest
  | items {c : Char} {items : List α} {text afterMark rest : List Char} (hmark : skipBlanks text = c :: afterMark)
      (hc : c ≠ closer) (h : Items item? closer items text rest) : Enclosed item? closer items text rest

theorem exists_of_items? {fuel : Nat} {found : List α} (h : items? item? closer fuel read text = some (found, rest)) :
    ∃ items, found = read.reverse ++ items ∧ Items item? closer items text rest := by
  induction fuel generalizing read text with
  | zero => cases h
  | succ fuel ih =>
    simp only [items?] at h
    split at h
    · cases h
    · next a afterItem ha =>
      split at h
      · cases h
      · next c afterMark hmark =>
        split at h
        · next hc =>
          cases h
          exact ⟨[a], by simp, .last ha (hc ▸ hmark)⟩
        · split at h
          · next hc =>
            obtain ⟨items, rfl, hitems⟩ := ih h
            exact ⟨a :: items, by simp, .more ha (hc ▸ hmark) hitems⟩
          · cases h

theorem Items.items?_eq (h : Items item? closer items text rest) (hcloser : closer ≠ ',') {fuel : Nat}
    (hfuel : items.length ≤ fuel) (read : List α) :
    items? item? closer fuel read text = some (read.reverse ++ items, rest) := by
  induction h generalizing fuel read with
  | last hitem hclose =>
    obtain ⟨fuel, rfl⟩ : ∃ n, fuel = n + 1 := Nat.exists_eq_add_of_le' hfuel
    simp [items?, hitem, hclose]
  | more hitem hcomma _ ih =>
    rw [List.length_cons] at hfuel
    obtain ⟨fuel, rfl⟩ : ∃ n, fuel = n + 1 := ⟨fuel - 1, by omega⟩
    simp only [items?, hitem, hcomma, if_neg hcloser.symm, if_pos]
    rw [ih (by omega)]
    simp

theorem length_skipBlanks_le (text : List Char) : (skipBlanks text).length ≤ text.length :=
  (List.dropWhile_suffix _).length_le

theorem length_of_skipBlanks (h : skipBlanks text = c :: rest) : rest.length < text.length := by
  have hle := length_skipBlanks_le text
  rw [h, List.length_cons] at hle
  omega

theorem Items.length_le (hshort : ∀ text a rest, item? text = some (a, rest) → rest.length ≤ text.length)
    (h : Items item? closer items text rest) : items.length ≤ text.length := by
  induction h with
  | last hitem hclose =>
    have := hshort _ _ _ hitem
    have := length_of_skipBlanks hclose
    simp only [List.length_singleton]
    omega
  | more hitem hcomma _ ih =>
    have := hshort _ _ _ hitem
    have := length_of_skipBlanks hcomma
    rw [List.length_cons]
    omega

theorem enclosed?_eq_some_iff (hcloser : closer ≠ ',')
    (hshort : ∀ text a rest, item? text = some (a, rest) → rest.length ≤ text.length) :
    enclosed? item? closer text = some (items, rest) ↔ Enclosed item? closer items text rest := by
  constructor
  · intro h
    unfold enclosed? at h
    split at h
    · cases h
    · next c afterMark hmark =>
      split at h
      · next hc =>
        cases h
        exact .empty (hc ▸ hmark)
      · next hc =>
        obtain ⟨items, rfl, hitems⟩ := exists_of_items? h
        exact .items hmark hc hitems
  · intro h
    cases h with
    | empty hclose => simp [enclosed?, hclose]
    | items hmark hc h =>
      simp only [enclosed?, hmark, if_neg hc]
      exact h.items?_eq hcloser (h.length_le hshort) []

theorem Items.forall {P : α → Prop} (hitem : ∀ text a rest, item? text = some (a, rest) → P a)
    (h : Items item? closer items text rest) : ∀ a ∈ items, P a := by
  induction h with
  | last ha _ => exact List.forall_mem_singleton.mpr (hitem _ _ _ ha)
  | more ha _ _ ih => exact List.forall_mem_cons.mpr ⟨hitem _ _ _ ha, ih⟩

theorem Enclosed.forall {P : α → Prop} (hitem : ∀ text a rest, item? text = some (a, rest) → P a)
    (h : Enclosed item? closer items text rest) : ∀ a ∈ items, P a := by
  cases h with
  | empty => exact List.forall_mem_nil _
  | items _ _ h => exact h.forall hitem

end

variable {α : Type} {depth : Nat} {text rest : List Char} {v : Json}

theorem length_le_of_takes (h : Takes text rest) : rest.length ≤ text.length := by
  obtain ⟨front, rfl, -⟩ := h
  rw [List.length_append]
  omega

theorem exists_of_field? {value? : List Char → Option (α × List Char)} {field : String × α}
    (h : field? value? text = some (field, rest)) : ∃ afterName afterColon,
      string? (skipBlanks text) = some (field.1, afterName) ∧ skipBlanks afterName = ':' :: afterColon ∧
        value? afterColon = some (field.2, rest) := by
  unfold field? at h
  split at h
  · cases h
  · next name afterName hname =>
    split at h
    · next afterColon hcolon =>
      obtain ⟨value, hvalue, rfl⟩ := exists_of_map h
      exact ⟨afterName, afterColon, hname, hcolon, hvalue⟩
    · cases h

theorem length_of_value? (text : List Char) (v : Json) (rest : List Char) (h : value? depth text = some (v, rest)) :
    rest.length ≤ text.length := length_le_of_takes (takes_of_value? h)

theorem length_of_field? (text : List Char) (field : String × Json) (rest : List Char)
    (h : field? (value? depth) text = some (field, rest)) : rest.length ≤ text.length :=
  length_le_of_takes (takes_of_field? (fun _ _ _ ↦ takes_of_value?) h)

theorem value?_of_bracket {items : List Json} {inner : List Char} (htext : skipBlanks text = '[' :: inner) :
    value? (depth + 1) text = some (.array items, rest) ↔ Enclosed (value? depth) ']' items inner rest := by
  rw [← enclosed?_eq_some_iff (by decide) length_of_value?]
  unfold value?
  simp only [htext]
  constructor
  · intro h
    obtain ⟨items, hitems, heq⟩ := exists_of_map h
    cases heq
    exact hitems
  · intro h
    rw [h]
    rfl

theorem exists_items_of_bracket {inner : List Char} (htext : skipBlanks text = '[' :: inner)
    (h : value? (depth + 1) text = some (v, rest)) :
    ∃ items, v = .array items ∧ Enclosed (value? depth) ']' items inner rest := by
  have hvalue := h
  unfold value? at hvalue
  simp only [htext] at hvalue
  obtain ⟨items, -, rfl⟩ := exists_of_map hvalue
  exact ⟨items, rfl, (value?_of_bracket htext).mp h⟩

theorem cases_of_value? (h : value? depth text = some (v, rest)) :
    (∃ level inner items, depth = level + 1 ∧ skipBlanks text = '[' :: inner ∧ v = .array items ∧
        Enclosed (value? level) ']' items inner rest) ∨
      (∃ level inner fields, depth = level + 1 ∧ skipBlanks text = '\x7b' :: inner ∧ v = ofFields fields ∧
        Enclosed (field? (value? level)) '\x7d' fields inner rest) ∨
      scalar? (skipBlanks text) = some (v, rest) := by
  unfold value? at h
  split at h
  · next inner hinner =>
    cases depth with
    | zero => cases h
    | succ level =>
      obtain ⟨items, hitems, rfl⟩ := exists_of_map h
      rw [enclosed?_eq_some_iff (by decide) length_of_value?] at hitems
      exact .inl ⟨level, inner, items, rfl, hinner, rfl, hitems⟩
  · next inner hinner =>
    cases depth with
    | zero => cases h
    | succ level =>
      obtain ⟨fields, hfields, rfl⟩ := exists_of_map h
      rw [enclosed?_eq_some_iff (by decide) length_of_field?] at hfields
      exact .inr (.inl ⟨level, inner, fields, rfl, hinner, rfl, hfields⟩)
  · exact .inr (.inr h)

end AnswerKey.Json
