import AnswerKey.Proofs.Answer.Requoting
import AnswerKey.Proofs.Json.Written

namespace AnswerKey.Answer

open Text Code Json PythonContainer

variable {text inner body s : List Char} {v : Json} {dialect : Dialect}

theorem enclosed_inj {a b : Char} {s t : List Char} : a :: (s ++ [b]) = a :: (t ++ [b]) ↔ s = t := by
  rw [List.cons.injEq, List.append_left_inj, and_iff_right rfl]

theorem singleQuoted?_eq_some_iff :
    singleQuoted? text = some s ↔ ∃ body, text = quotedBy singleQuote body ∧ content? body = some s := by
  cases text with
  | nil => simp [singleQuoted?, quotedBy]
  | cons c text =>
    rw [singleQuoted?]
    split
    · next hc =>
      subst hc
      rw [Option.bind_eq_some_iff]
      simp [before?_eq_some_iff, quotedBy]
    · next hc =>
      simp [quotedBy, hc]

theorem singleQuoted?_quotedBy (body : List Char) : singleQuoted? (quotedBy singleQuote body) = content? body := by
  apply Option.ext
  intro s
  rw [singleQuoted?_eq_some_iff]
  constructor
  · rintro ⟨body', heq, hs⟩
    obtain rfl := enclosed_inj.mp heq
    exact hs
  · intro hs
    exact ⟨body, rfl, hs⟩

theorem trim_of_ends {c d : Char} (hc : Text.isBlank c = false) (hd : Text.isBlank d = false) (text : List Char) :
    trim (c :: (text ++ [d])) = c :: (text ++ [d]) := by
  apply trim_eq_self
  · intro a ha
    cases ha
    exact hc
  · intro a ha
    rw [← List.cons_append, List.getLast?_concat] at ha
    cases ha
    exact hd

theorem trim_number {value : Option Number} (h : Number.IsNumber text value) : trim text = text := by
  have hnumeral := h.forall_isNumeral
  apply trim_eq_self
  · intro c hc
    exact Number.not_isBlank_of_isNumeral (hnumeral c (List.mem_of_mem_head? hc))
  · intro c hc
    exact Number.not_isBlank_of_isNumeral (hnumeral c (List.mem_of_getLast? hc))

theorem cons_ne_of_head {c : Char} {word : List Char} (h : word.head? ≠ some c) (text : List Char) :
    c :: text ≠ word := by
  rintro rfl
  exact h rfl

namespace Python

theorem between?_eq_some_iff {opener closer : Char} :
    between? opener closer text = some inner ↔ text = opener :: (inner ++ [closer]) := by
  rw [between?, Option.bind_eq_some_iff]
  constructor
  · rintro ⟨rest, hrest, hinner⟩
    rw [after?_eq_some_iff.mp hrest, before?_eq_some_iff.mp hinner]
    rfl
  · rintro rfl
    exact ⟨inner ++ [closer], after?_append _ _, before?_eq_some_iff.mpr rfl⟩

theorem keyword?_of_head {c : Char} (hc : c ∉ ['T', 'F', 'N']) (text : List Char) : keyword? (c :: text) = none := by
  simp only [List.mem_cons, List.not_mem_nil, or_false, not_or] at hc
  obtain ⟨htrue, hfalse, hnone⟩ := hc
  rw [keyword?, if_neg (cons_ne_of_head (by simpa using Ne.symm htrue) text),
    if_neg (cons_ne_of_head (by simpa using Ne.symm hfalse) text),
    if_neg (cons_ne_of_head (by simpa using Ne.symm hnone) text)]

theorem value?_of_head {c : Char} (hc : c ∉ ['T', 'F', 'N']) (hquote : c ≠ singleQuote) (text : List Char) :
    value? (c :: text) = container? (c :: text) := by
  rw [value?, keyword?_of_head hc, singleQuoted?, if_neg hquote]
  rfl

theorem value?_bracketed (inner : List Char) :
    value? ('[' :: (inner ++ [']'])) = parse? (toJson ('[' :: (inner ++ [']']))) := by
  have hbetween : between? '[' ']' ('[' :: (inner ++ [']'])) = some inner := between?_eq_some_iff.mpr rfl
  rw [value?_of_head (by decide) (by decide), container?, hbetween]
  exact if_pos rfl

theorem value?_parenthesized (inner : List Char) : value? ('(' :: (inner ++ [')'])) =
    if ',' ∈ inner then parse? ('[' :: (dropCommas (toJson inner) ++ [']'])) else none := by
  have hbetween : between? '(' ')' ('(' :: (inner ++ [')'])) = some inner := between?_eq_some_iff.mpr rfl
  have hbracket : between? '[' ']' ('(' :: (inner ++ [')'])) = none := rfl
  rw [value?_of_head (by decide) (by decide), container?, hbracket]
  simp only [Option.isSome_none, Bool.false_eq_true, if_false, hbetween]
  rfl

theorem read_bracketed (h : parse? (toJson ('[' :: (inner ++ [']']))) = some v) :
    read .python ('[' :: (inner ++ [']'])) = v := by
  have hvalue : dialectValue? .python ('[' :: (inner ++ [']'])) = some v := (value?_bracketed inner).trans h
  rw [read, trim_of_ends (by decide) (by decide), hvalue]

theorem read_list {texts jsons : List (List Char)} {values : List Json}
    (hconverts : List.Forall₂ Converts texts jsons) (hreads : List.Forall₂ (ReadsAs 126) jsons values) :
    read .python ('[' :: (join ", ".toList texts ++ [']'])) = .array values := by
  apply read_bracketed
  rw [(converts_list hconverts).toJson_eq]
  exact parse?_of_readsAs (readsAs_array hreads)

theorem parse?_of_read_bracketed {values : List Json} (h : read .python ('[' :: (inner ++ [']'])) = .array values) :
    parse? (toJson ('[' :: (inner ++ [']']))) = some (.array values) := by
  have hvalue : dialectValue? .python ('[' :: (inner ++ [']'])) = parse? (toJson ('[' :: (inner ++ [']']))) :=
    value?_bracketed inner
  rw [read, trim_of_ends (by decide) (by decide), hvalue] at h
  cases hparsed : parse? (toJson ('[' :: (inner ++ [']']))) with
  | some v =>
    rw [hparsed] at h
    exact congrArg some h
  | none =>
    -- JSON comes out as it is, so what is left after Python's reading is no JSON either.
    simp only [hparsed] at h
    cases hplain : parse? ('[' :: (inner ++ [']'])) with
    | some v =>
      rw [toJson_of_lexical (lexical_of_parse? hplain), hplain] at hparsed
      cases hparsed
    | none =>
      rw [hplain] at h
      cases h

theorem read_parenthesized (hcomma : ',' ∈ inner)
    (h : parse? ('[' :: (dropCommas (toJson inner) ++ [']'])) = some v) :
    read .python ('(' :: (inner ++ [')'])) = v := by
  have hvalue : dialectValue? .python ('(' :: (inner ++ [')'])) = some v := by
    change value? _ = _
    rw [value?_parenthesized, if_pos hcomma, h]
  rw [read, trim_of_ends (by decide) (by decide), hvalue]

end Python

theorem read_quoted (hdialect : dialect ≠ .java) (h : content? body = some s) :
    read dialect (quotedBy singleQuote body) = Json.text s := by
  have hvalue : dialectValue? dialect (quotedBy singleQuote body) = some (Json.text s) := by
    have hquoted : singleQuoted? (quotedBy singleQuote body) = some s := (singleQuoted?_quotedBy body).trans h
    cases dialect with
    | java => exact absurd rfl hdialect
    | javaScript =>
      change JavaScript.value? _ = _
      have hundefined : quotedBy singleQuote body ≠ "undefined".toList := cons_ne_of_head (by decide) _
      rw [JavaScript.value?, if_neg hundefined, hquoted]
      rfl
    | python =>
      have hkeyword : Python.keyword? (quotedBy singleQuote body) = none := Python.keyword?_of_head (by decide) _
      change Python.value? _ = _
      rw [Python.value?, hkeyword, hquoted]
      rfl
  rw [read, quotedBy, trim_of_ends (by decide) (by decide), ← quotedBy, hvalue]

end AnswerKey.Answer
