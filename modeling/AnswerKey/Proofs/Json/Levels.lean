import AnswerKey.Proofs.Code.OuterComma
import AnswerKey.Proofs.Json.Items

namespace AnswerKey.Json

open Code Number

section

variable {α : Type} {item? : List Char → Option (α × List Char)} {closer c : Char} {items : List α} {a : α}
  {text middle rest content front : List Char} {v : Json} {depth : Nat}

theorem isPlain_of_isNumeral (hc : isNumeral c = true) : IsPlain c := isPlain_of_marks (by decide) hc

theorem after_content (h : Content content) (depth : Nat) :
    Level.after (depth, .literal doubleQuote false) (content ++ [doubleQuote]) = (depth, .code) := by
  induction h with
  | nil => rfl
  | @plain c content hquote hslash _ ih =>
    have hnext : Level.next (depth, .literal doubleQuote false) c = (depth, .literal doubleQuote false) :=
      congrArg (Prod.mk depth) (Mode.next_literal hslash hquote)
    rw [List.cons_append, Level.after_cons, hnext, ih]
  | escaped _ ih => exact ih

theorem isLevel_string (h : Content content) : IsLevel ('\x22' :: (content ++ ['\x22'])) := fun _ ↦ after_content h _

/-- What a reader has taken off the front of a text opens and closes brackets of its own only. -/
def TakesLevel (text rest : List Char) : Prop := ∃ front, text = front ++ rest ∧ IsLevel front

theorem TakesLevel.trans (h : TakesLevel text middle) (h' : TakesLevel middle rest) : TakesLevel text rest := by
  obtain ⟨front, rfl, hfront⟩ := h
  obtain ⟨front', rfl, hfront'⟩ := h'
  exact ⟨front ++ front', (List.append_assoc _ _ _).symm, hfront.append hfront'⟩

theorem takesLevel_skipBlanks (text : List Char) : TakesLevel text (skipBlanks text) := by
  refine ⟨text.takeWhile isBlank, List.takeWhile_append_dropWhile.symm, isLevel_of_forall ?_⟩
  intro c hc
  exact .inl (isPlain_of_marks (by decide) (List.mem_takeWhile_imp hc))

theorem takesLevel_of_string? {s : String} (h : string? text = some (s, rest)) : TakesLevel text rest := by
  unfold string? at h
  split at h
  · obtain ⟨s, hrest, -⟩ := exists_of_map h
    obtain ⟨content, rfl, hcontent⟩ := content_of_stringRest? hrest
    exact ⟨'\x22' :: (content ++ ['\x22']), by simp, isLevel_string hcontent⟩
  · cases h

theorem takesLevel_of_scalar? (h : scalar? text = some (v, rest)) : TakesLevel text rest := by
  unfold scalar? at h
  split at h
  · next found hfound =>
    cases h
    obtain ⟨⟨word, value⟩, hmem, hword⟩ := List.exists_of_findSome?_eq_some hfound
    obtain ⟨rest', hrest, heq⟩ := Option.map_eq_some_iff.mp hword
    obtain ⟨-, rfl⟩ := Prod.mk.inj heq
    have hwords : ∀ literal ∈ literals, ∀ c ∈ literal.1, IsPlain c := by
      have hall : literals.all (fun literal ↦ literal.1.all fun c ↦ decide (IsPlain c)) = true := by decide
      simpa using hall
    exact ⟨word, word?_eq_some_iff.mp hrest, isLevel_of_forall fun c hc ↦ .inl (hwords _ hmem c hc)⟩
  · split at h
    · obtain ⟨s, hs, -⟩ := exists_of_map h
      exact takesLevel_of_string? hs
    · obtain ⟨n, hn, -⟩ := exists_of_map h
      obtain ⟨front, rfl, hfront⟩ := numerals_of_read? hn
      exact ⟨front, rfl, isLevel_of_forall fun c hc ↦ .inl (isPlain_of_isNumeral (hfront c hc))⟩

theorem takesLevel_mark (hc : IsPlain c ∨ c = ',') (h : skipBlanks text = c :: rest) : TakesLevel text rest :=
  (takesLevel_skipBlanks text).trans (h ▸ ⟨[c], rfl, isLevel_of_forall (List.forall_mem_singleton.mpr hc)⟩)

theorem Items.takesLevel (hitem : ∀ text a rest, item? text = some (a, rest) → TakesLevel text rest)
    (h : Items item? closer items text rest) : TakesLevel text (closer :: rest) := by
  induction h with
  | last ha hclose => exact (hitem _ _ _ ha).trans (hclose ▸ takesLevel_skipBlanks _)
  | more ha hcomma _ ih => exact ((hitem _ _ _ ha).trans (takesLevel_mark (.inr rfl) hcomma)).trans ih

theorem Enclosed.takesLevel (hitem : ∀ text a rest, item? text = some (a, rest) → TakesLevel text rest)
    (h : Enclosed item? closer items text rest) : TakesLevel text (closer :: rest) := by
  cases h with
  | empty hclose => exact hclose ▸ takesLevel_skipBlanks _
  | items _ _ h => exact h.takesLevel hitem

theorem takesLevel_of_enclosed {opener : Char} (hpair : IsPair opener closer)
    (hopener : skipBlanks text = opener :: middle) (h : TakesLevel middle (closer :: rest)) : TakesLevel text rest := by
  obtain ⟨inner, rfl, hinner⟩ := h
  refine (takesLevel_skipBlanks text).trans ⟨opener :: (inner ++ [closer]), ?_, hinner.enclosed hpair⟩
  rw [hopener, List.cons_append, List.append_assoc, List.singleton_append]

theorem takesLevel_of_field? {field : String × α}
    (hvalue : ∀ text a rest, item? text = some (a, rest) → TakesLevel text rest)
    (h : field? item? text = some (field, rest)) : TakesLevel text rest := by
  obtain ⟨afterName, afterColon, hname, hcolon, hfield⟩ := exists_of_field? h
  have hfront := (takesLevel_skipBlanks text).trans (takesLevel_of_string? hname)
  exact (hfront.trans (takesLevel_mark (.inl (by decide)) hcolon)).trans (hvalue _ _ _ hfield)

theorem takesLevel_of_value? (h : value? depth text = some (v, rest)) : TakesLevel text rest := by
  induction depth generalizing text v rest with
  | zero =>
    rcases cases_of_value? h with ⟨_, _, _, hdepth, _⟩ | ⟨_, _, _, hdepth, _⟩ | hscalar
    · cases hdepth
    · cases hdepth
    · exact (takesLevel_skipBlanks text).trans (takesLevel_of_scalar? hscalar)
  | succ depth ih =>
    rcases cases_of_value? h with
      ⟨_, inner, items, hdepth, hopener, -, hitems⟩ | ⟨_, inner, fields, hdepth, hopener, -, hfields⟩ | hscalar
    · cases hdepth
      exact takesLevel_of_enclosed (.inl ⟨rfl, rfl⟩) hopener (hitems.takesLevel fun _ _ _ ↦ ih)
    · cases hdepth
      exact takesLevel_of_enclosed (.inr ⟨rfl, rfl⟩) hopener
        (hfields.takesLevel fun _ _ _ ↦ takesLevel_of_field? fun _ _ _ ↦ ih)
    · exact (takesLevel_skipBlanks text).trans (takesLevel_of_scalar? hscalar)

end

theorem count_backQuote_cons (escaped : Bool) (c : Char) (text : List Char) :
    (Mode.literal doubleQuote escaped).count backQuote (c :: text) =
      ((Mode.literal doubleQuote escaped).next c).count backQuote text := by
  simp [Mode.count]

theorem count_backQuote_content {content : List Char} (h : Content content) (text : List Char) :
    (Mode.literal doubleQuote false).count backQuote (content ++ doubleQuote :: text) =
      Mode.code.count backQuote text := by
  induction h with
  | nil => exact count_backQuote_cons false doubleQuote text
  | plain hquote hslash _ ih =>
    rw [List.cons_append, count_backQuote_cons, Mode.next_literal hslash hquote, ih]
  | @escaped c content _ ih =>
    have hslash : Mode.next (.literal doubleQuote false) backslash = .literal doubleQuote true := rfl
    have hnext : Mode.next (.literal doubleQuote true) c = .literal doubleQuote false := rfl
    rw [List.cons_append, List.cons_append, count_backQuote_cons, hslash, count_backQuote_cons, hnext, ih]

theorem count_backQuote_of_lexical {text : List Char} (h : Lexical text) : Mode.code.count backQuote text = 0 := by
  induction h with
  | nil => rfl
  | @char c text hc _ ih =>
    have hquotes : [doubleQuote, singleQuote, backQuote].any isStructural = false := by decide
    have hne : c ∉ [doubleQuote, singleQuote, backQuote] := by
      intro hmem
      exact List.any_eq_false.mp hquotes c hmem hc
    simp only [List.mem_cons, List.not_mem_nil, or_false, not_or] at hne
    have hnext : Mode.next .code c = .code := by simp [Mode.next, isQuote, hne]
    rw [Mode.count, if_neg (fun h ↦ hne.2.2 h.2), hnext, ih]
  | string hcontent _ ih =>
    have hnext : Mode.next .code doubleQuote = .literal doubleQuote false := rfl
    rw [Mode.count, if_neg (by decide), hnext, count_backQuote_content hcontent, ih]

end AnswerKey.Json
