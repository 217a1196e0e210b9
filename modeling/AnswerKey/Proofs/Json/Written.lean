import AnswerKey.Proofs.Json.Items
import AnswerKey.Proofs.Number.Grammar
import AnswerKey.Proofs.Text.Pieces
import Mathlib.Data.List.Forall2

namespace AnswerKey.Json

open Number Text

/-- With arrays and objects nested `depth` deep at most, the text is read as the value, and what follows it is left. -/
def ReadsAs (depth : Nat) (text : List Char) (v : Json) : Prop :=
  ∀ rest, EndsNumber rest → value? depth (text ++ rest) = some (v, rest)

variable {depth : Nat} {text rest : List Char} {v : Json} {texts : List (List Char)} {values : List Json}

theorem skipBlanks_skipBlanks (text : List Char) : skipBlanks (skipBlanks text) = skipBlanks text := by
  induction text with
  | nil => rfl
  | cons c text ih =>
    by_cases hc : isBlank c = true
    · have hskip : skipBlanks (c :: text) = skipBlanks text := List.dropWhile_cons_of_pos hc
      rw [hskip, ih]
    · have hskip : skipBlanks (c :: text) = c :: text := List.dropWhile_cons_of_neg hc
      rw [hskip, hskip]

theorem value?_skipBlanks (depth : Nat) (text : List Char) : value? depth (skipBlanks text) = value? depth text := by
  unfold value?
  rw [skipBlanks_skipBlanks]

theorem value?_space (depth : Nat) (text : List Char) : value? depth (' ' :: text) = value? depth text := by
  rw [← value?_skipBlanks, ← value?_skipBlanks depth text]
  rfl

theorem value?_of_scalar {c : Char} (hblank : isBlank c = false) (hbracket : c ≠ '[') (hbrace : c ≠ '\x7b') :
    value? depth (c :: text) = scalar? (c :: text) := by
  have hskip : skipBlanks (c :: text) = c :: text := List.dropWhile_cons_of_neg (by simp [hblank])
  unfold value?
  rw [hskip]
  split
  · next heq => exact absurd (List.cons.inj heq).1 hbracket
  · next heq => exact absurd (List.cons.inj heq).1 hbrace
  · rfl

theorem parse?_of_readsAs (h : ReadsAs maxDepth text v) : parse? text = some v := by
  have hvalue := h [] (fun c hc ↦ by cases hc)
  rw [List.append_nil] at hvalue
  exact parse?_eq_some_iff.mpr ⟨[], hvalue, List.forall_mem_nil _⟩

theorem readsAs_literal {word : List Char} (h : (word, v) ∈ literals) : ReadsAs depth word v := by
  intro rest _
  simp only [literals, List.mem_cons, Prod.mk.injEq, List.not_mem_nil, or_false] at h
  rcases h with ⟨rfl, rfl⟩ | ⟨rfl, rfl⟩ | ⟨rfl, rfl⟩
  all_goals exact value?_of_scalar (by decide) (by decide) (by decide)

theorem text_isBlank_of_isBlank {c : Char} (h : isBlank c = true) : Text.isBlank c = true := by
  simp only [isBlank, Bool.or_eq_true, beq_iff_eq] at h
  rcases h with ((rfl | rfl) | rfl) | rfl <;> decide

theorem not_isBlank_of_isNumeral {c : Char} (h : isNumeral c = true) : isBlank c = false := by
  by_contra hblank
  have htext := text_isBlank_of_isBlank ((Bool.not_eq_false _).mp hblank)
  rw [Number.not_isBlank_of_isNumeral h] at htext
  cases htext

theorem value?_number {value : Option Number} (h : IsNumber text value) (hrest : EndsNumber rest) :
    value? depth (text ++ rest) = value.map fun n ↦ (number n, rest) := by
  obtain ⟨c, text', rfl⟩ := List.exists_cons_of_ne_nil h.ne_nil
  have hc : isNumeral c = true := h.forall_isNumeral c List.mem_cons_self
  have hskip : skipBlanks (c :: (text' ++ rest)) = c :: (text' ++ rest) :=
    List.dropWhile_cons_of_neg (by simp [Json.not_isBlank_of_isNumeral hc])
  rw [List.cons_append, value?_of_isNumeral hskip hc, ← List.cons_append, read?_append h hrest, Option.map_map]
  rfl

theorem readsAs_number {n : Number} (h : IsNumber text (some n)) : ReadsAs depth text (number n) :=
  fun _ hrest ↦ value?_number h hrest

theorem value?_string (depth : Nat) (text : List Char) :
    value? depth ('\x22' :: text) = (stringRest? [] text).map fun (s, rest) ↦ (Json.text s, rest) := by
  rw [value?_of_scalar (by decide) (by decide) (by decide)]
  change ((stringRest? [] text).map _).map _ = _
  rw [Option.map_map]
  rfl

theorem stringRest?_quote (read text : List Char) : stringRest? read ('\x22' :: text) = some (read.reverse, text) := by
  rw [stringRest?, if_pos rfl]

theorem stringRest?_plain {c : Char} (hquote : c ≠ '\x22') (hslash : c ≠ '\\') (hcontrol : 0x20 ≤ c.toNat)
    (read text : List Char) : stringRest? read (c :: text) = stringRest? (c :: read) text := by
  rw [stringRest?, if_neg hquote, if_neg hslash, if_neg (Nat.not_lt.mpr hcontrol)]

theorem stringRest?_escaped {c : Char} {escape rest : List Char} (h : escaped? escape = some (c, rest))
    (read : List Char) : stringRest? read ('\\' :: escape) = stringRest? (c :: read) rest := by
  rw [stringRest?, if_neg (by decide), if_pos rfl]
  split
  · next heq =>
    rw [h] at heq
    cases heq
    rfl
  · next heq =>
    rw [h] at heq
    cases heq

theorem exists_head_of_value? (h : value? depth text = some (v, rest)) :
    ∃ c afterMark, skipBlanks text = c :: afterMark ∧ c ≠ ']' := by
  rcases cases_of_value? h with ⟨_, inner, _, -, hskip, -⟩ | ⟨_, inner, _, -, hskip, -⟩ | hscalar
  · exact ⟨'[', inner, hskip, by decide⟩
  · exact ⟨'\x7b', inner, hskip, by decide⟩
  · cases hskip : skipBlanks text with
    | nil =>
      rw [hskip] at hscalar
      cases hscalar
    | cons c afterMark =>
      refine ⟨c, afterMark, rfl, ?_⟩
      rintro rfl
      rw [hskip] at hscalar
      cases hscalar

theorem ReadsAs.space (h : ReadsAs depth text v) : ReadsAs depth (' ' :: text) v := by
  intro rest hrest
  rw [List.cons_append, value?_space]
  exact h rest hrest

theorem items_join (hne : texts ≠ []) (h : List.Forall₂ (ReadsAs depth) texts values) (rest : List Char) :
    Items (value? depth) ']' values (join [','] texts ++ ']' :: rest) rest := by
  induction h with
  | nil => exact absurd rfl hne
  | @cons text v texts values hfirst hothers ih =>
    cases texts with
    | nil =>
      cases hothers
      rw [join_comma_singleton]
      exact .last (hfirst _ (endsNumber_cons rfl _)) rfl
    | cons next texts =>
      rw [join_comma_cons (List.cons_ne_nil _ _), List.append_assoc, List.cons_append]
      exact .more (hfirst _ (endsNumber_cons rfl _)) rfl (ih (List.cons_ne_nil _ _))

theorem readsAs_compactArray (h : List.Forall₂ (ReadsAs depth) texts values) :
    ReadsAs (depth + 1) ('[' :: (join [','] texts ++ [']'])) (.array values) := by
  intro rest _
  rw [List.cons_append, List.append_assoc, List.singleton_append]
  apply (value?_of_bracket rfl).mpr
  cases texts with
  | nil =>
    cases h
    exact .empty rfl
  | cons text texts =>
    have hitems := items_join (List.cons_ne_nil _ _) h rest
    obtain ⟨c, afterMark, hmark, hc⟩ : ∃ c afterMark,
        skipBlanks (join [','] (text :: texts) ++ ']' :: rest) = c :: afterMark ∧ c ≠ ']' := by
      cases hitems with
      | last hitem _ => exact exists_head_of_value? hitem
      | more hitem _ _ => exact exists_head_of_value? hitem
    exact .items hmark hc hitems

theorem readsAs_array (h : List.Forall₂ (ReadsAs depth) texts values) :
    ReadsAs (depth + 1) ('[' :: (join ", ".toList texts ++ [']'])) (.array values) := by
  cases h with
  | nil => exact readsAs_compactArray .nil
  | cons hfirst hothers =>
    rw [join_blank]
    exact readsAs_compactArray (.cons hfirst (List.forall₂_map_left_iff.mpr (hothers.imp fun _ _ h ↦ h.space)))

end AnswerKey.Json
