import AnswerKey.Proofs.Json.Fields
import AnswerKey.Proofs.Json.Items
import Mathlib.Data.String.Basic

namespace AnswerKey.Json

/-- The fields of every object in the value stand in the order of their names, each name once. -/
inductive Proper : Json → Prop
  | null : Proper null
  | bool (b : Bool) : Proper (bool b)
  | number (n : Number) : Proper (number n)
  | string (s : String) : Proper (string s)
  | array {items : List Json} (h : ∀ v ∈ items, Proper v) : Proper (array items)
  | object {fields : List (String × Json)} (hnames : (fields.map Prod.fst).Pairwise (· < ·))
      (h : ∀ field ∈ fields, Proper field.2) : Proper (object fields)

section

variable {α : Type} {name : String} {value : α} {field : String × α} {fields : List (String × α)}

theorem eq_or_mem_of_mem_insertField (h : field ∈ insertField name value fields) :
    field = (name, value) ∨ field ∈ fields := by
  induction fields with
  | nil => exact .inl (List.mem_singleton.mp h)
  | cons first fields ih =>
    unfold insertField at h
    split at h
    · exact (List.mem_cons.mp h).imp_right id
    · split at h
      · exact (List.mem_cons.mp h).imp_right (List.mem_cons_of_mem _)
      · rcases List.mem_cons.mp h with rfl | h
        · exact .inr List.mem_cons_self
        · exact (ih h).imp_right (List.mem_cons_of_mem _)

theorem pairwise_insertField (name : String) (value : α) (h : (fields.map Prod.fst).Pairwise (· < ·)) :
    ((insertField name value fields).map Prod.fst).Pairwise (· < ·) := by
  induction fields with
  | nil => exact List.pairwise_singleton _ _
  | cons first fields ih =>
    obtain ⟨hfirst, hfields⟩ := List.pairwise_cons.mp h
    unfold insertField
    split
    · next hlt =>
      apply List.Pairwise.cons
      · intro other hother
        rcases List.mem_cons.mp hother with rfl | hother
        · exact hlt
        · exact hlt.trans (hfirst other hother)
      · exact h
    · next hlt =>
      split
      · next heq =>
        rw [← heq] at hfirst
        exact .cons hfirst hfields
      · next hne =>
        apply List.Pairwise.cons
        · intro other hother
          obtain ⟨field, hfield, rfl⟩ := List.mem_map.mp hother
          rcases eq_or_mem_of_mem_insertField hfield with rfl | hfield
          · exact lt_of_le_of_ne (not_lt.mp hlt) (Ne.symm hne)
          · exact hfirst _ (List.mem_map_of_mem hfield)
        · exact ih hfields

theorem pairwise_sortFields (fields : List (String × α)) : ((sortFields fields).map Prod.fst).Pairwise (· < ·) := by
  induction fields using List.reverseRecOn with
  | nil => exact .nil
  | append_singleton fields field ih =>
    rw [sortFields_concat]
    exact pairwise_insertField _ _ ih

theorem mem_of_mem_sortFields (h : field ∈ sortFields fields) : field ∈ fields := by
  induction fields using List.reverseRecOn with
  | nil => exact h
  | append_singleton fields last ih =>
    rw [sortFields_concat] at h
    rcases eq_or_mem_of_mem_insertField h with rfl | h
    · exact List.mem_append_right _ (List.mem_singleton_self _)
    · exact List.mem_append_left _ (ih h)

end

variable {depth : Nat} {text rest : List Char} {v : Json}

theorem proper_ofFields {fields : List (String × Json)} (h : ∀ field ∈ fields, Proper field.2) :
    Proper (ofFields fields) :=
  .object (pairwise_sortFields fields) fun field hfield ↦ h field (mem_of_mem_sortFields hfield)

theorem proper_of_scalar? (h : scalar? text = some (v, rest)) : Proper v := by
  unfold scalar? at h
  split at h
  · next found hfound =>
    cases h
    obtain ⟨literal, hmem, hword⟩ := List.exists_of_findSome?_eq_some hfound
    obtain ⟨_, -, heq⟩ := Option.map_eq_some_iff.mp hword
    obtain ⟨rfl, -⟩ := Prod.mk.inj heq
    simp only [literals, List.mem_cons, List.not_mem_nil, or_false] at hmem
    rcases hmem with rfl | rfl | rfl
    · exact .null
    · exact .bool true
    · exact .bool false
  · split at h
    · obtain ⟨s, -, rfl⟩ := exists_of_map h
      exact .string s
    · obtain ⟨n, -, rfl⟩ := exists_of_map h
      exact .number n

theorem proper_of_value? (h : value? depth text = some (v, rest)) : Proper v := by
  induction depth using Nat.strong_induction_on generalizing text v rest with
  | _ depth ih =>
    rcases cases_of_value? h with ⟨level, inner, items, rfl, -, rfl, hitems⟩ |
      ⟨level, inner, fields, rfl, -, rfl, hfields⟩ | hscalar
    · apply Proper.array
      exact hitems.forall fun _ _ _ hitem ↦ ih level (Nat.lt_succ_self level) hitem
    · apply proper_ofFields
      apply hfields.forall (P := fun field ↦ field.2.Proper)
      intro _ _ _ hfield
      obtain ⟨_, _, -, -, hvalue⟩ := exists_of_field? hfield
      exact ih level (Nat.lt_succ_self level) hvalue
    · exact proper_of_scalar? hscalar

theorem proper_of_parse? (h : parse? text = some v) : Proper v := by
  obtain ⟨_, hvalue, -⟩ := parse?_eq_some_iff.mp h
  exact proper_of_value? hvalue

end AnswerKey.Json
