import AnswerKey.Json.Basic
import Mathlib.Data.List.Induction

namespace AnswerKey.Json

variable {α κ : Type} [DecidableEq κ]

theorem lookup_cons_ite (name name' : κ) (value : α) (fields : List (κ × α)) :
    ((name, value) :: fields).lookup name' = if name' = name then some value else fields.lookup name' := by
  by_cases h : name' = name
  · simp [h]
  · simp [List.lookup_cons, h, beq_false_of_ne]

theorem mem_of_lookup {name : κ} {value : α} {fields : List (κ × α)} (h : fields.lookup name = some value) :
    (name, value) ∈ fields := by
  induction fields with
  | nil => cases h
  | cons field fields ih =>
    obtain ⟨first, old⟩ := field
    rw [lookup_cons_ite] at h
    split at h
    · next hname =>
      cases h
      rw [hname]
      exact List.mem_cons_self
    · exact List.mem_cons_of_mem _ (ih h)

theorem lookup_of_mem {name : κ} {value : α} {fields : List (κ × α)} (hnames : (fields.map Prod.fst).Nodup)
    (h : (name, value) ∈ fields) : fields.lookup name = some value := by
  induction fields with
  | nil => cases h
  | cons field fields ih =>
    obtain ⟨first, old⟩ := field
    obtain ⟨hfirst, hrest⟩ := List.nodup_cons.mp hnames
    rw [lookup_cons_ite]
    rcases List.mem_cons.mp h with heq | h
    · cases heq
      exact if_pos rfl
    · have hne : name ≠ first := by
        intro heq
        apply hfirst
        rw [← heq]
        exact List.mem_map.mpr ⟨_, h, rfl⟩
      rw [if_neg hne]
      exact ih hrest h

theorem lookup_insertField (name name' : String) (value : α) (fields : List (String × α)) :
    (insertField name value fields).lookup name' = if name' = name then some value else fields.lookup name' := by
  induction fields with
  | nil => exact lookup_cons_ite name name' value []
  | cons field fields ih =>
    obtain ⟨first, old⟩ := field
    unfold insertField
    split
    · exact lookup_cons_ite name name' value _
    · split
      · next hfirst =>
        simp only [lookup_cons_ite, hfirst]
        split <;> rfl
      · next hfirst =>
        simp only [lookup_cons_ite, ih]
        by_cases h : name' = first
        · simp [h, Ne.symm hfirst]
        · simp [h]

theorem sortFields_concat (fields : List (String × α)) (field : String × α) :
    sortFields (fields ++ [field]) = insertField field.1 field.2 (sortFields fields) := by
  simp only [sortFields, List.foldl_append, List.foldl_cons, List.foldl_nil]

theorem lookup_sortFields (fields : List (String × α)) (name : String) :
    (sortFields fields).lookup name = fields.reverse.lookup name := by
  induction fields using List.reverseRecOn with
  | nil => rfl
  | append_singleton fields field ih =>
    rw [sortFields_concat, lookup_insertField, ih, List.reverse_append, List.reverse_singleton, List.singleton_append,
      lookup_cons_ite]

def member? : Json → String → Option Json
  | object fields, name => fields.lookup name
  | _, _ => none

theorem member?_ofFields (fields : List (String × Json)) (name : String) :
    (ofFields fields).member? name = fields.reverse.lookup name := lookup_sortFields fields name

end AnswerKey.Json
