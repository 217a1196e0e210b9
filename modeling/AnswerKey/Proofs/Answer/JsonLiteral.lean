import AnswerKey.Answer.Literal
import AnswerKey.Json.Printer
import AnswerKey.Proofs.Json.Lexical
import Mathlib.Data.List.Basic

namespace AnswerKey.Answer

open Text Code Json

variable {text rest content word : List Char} {v : Json}

theorem not_lexical_cons {c : Char} (hc : isStructural c = false) (hquote : c ≠ doubleQuote) :
    ¬ Lexical (c :: text) := by
  intro h
  cases h with
  | char hc' _ =>
    rw [hc] at hc'
    cases hc'
  | string _ _ => exact hquote rfl

theorem isStructural_of_lexical (h : Lexical text) (hquote : doubleQuote ∉ text) :
    ∀ c ∈ text, isStructural c = true := by
  induction h with
  | nil => exact List.forall_mem_nil _
  | char hc _ ih => exact List.forall_mem_cons.mpr ⟨hc, ih fun h ↦ hquote (List.mem_cons_of_mem _ h)⟩
  | string _ _ _ => exact absurd List.mem_cons_self hquote

theorem ne_of_lexical {keyword : List Char} (h : Lexical text) (hquote : doubleQuote ∉ keyword)
    (hkeyword : keyword.all isStructural = false) : text ≠ keyword := by
  rintro rfl
  rw [List.all_eq_true.mpr (isStructural_of_lexical h hquote)] at hkeyword
  cases hkeyword

theorem ne_keyword_of_lexical (h : Lexical text) :
    text ≠ "True".toList ∧ text ≠ "False".toList ∧ text ≠ "None".toList :=
  ⟨ne_of_lexical h (by decide) (by decide), ne_of_lexical h (by decide) (by decide),
    ne_of_lexical h (by decide) (by decide)⟩

namespace PythonContainer

theorem jsonWord_of_lexical (h : Lexical word) : jsonWord word = word := by
  have hne : word ≠ "True".toList ∧ word ≠ "False".toList ∧ word ≠ "None".toList := ne_keyword_of_lexical h
  rw [jsonWord, if_neg hne.1, if_neg hne.2.1, if_neg hne.2.2]

theorem run_cons (state : State) (c : Char) (text : List Char) :
    run state (c :: text) = (step state c).2 ++ run (step state c).1 text := rfl

theorem run_double (h : Content content) (text : List Char) :
    run (.double false) (content ++ doubleQuote :: text) = content ++ doubleQuote :: run (.word []) text := by
  induction h with
  | nil => rfl
  | @plain c content hquote hslash _ ih =>
    have hstep : step (.double false) c = (.double false, [c]) := (if_neg hslash).trans (if_neg hquote)
    rw [List.cons_append, run_cons, hstep, ih]
    rfl
  | @escaped c content _ ih =>
    have hslash : step (.double false) backslash = (.double true, [backslash]) := rfl
    have hstep : step (.double true) c = (.double false, [c]) := rfl
    change run (.double false) (backslash :: c :: (content ++ doubleQuote :: text)) = _
    rw [run_cons, hslash, run_cons, hstep, ih]
    rfl

def EndsWord (rest : List Char) : Prop := ∀ c ∈ rest.head?, isWordPart c = false

theorem endsWord_nil : EndsWord [] := fun _ hc ↦ by cases hc

theorem endsWord_cons {c : Char} (hc : isWordPart c = false) (rest : List Char) : EndsWord (c :: rest) := by
  intro d hd
  cases hd
  exact hc

theorem run_endsWord (word : List Char) (hrest : EndsWord rest) :
    run (.word word) rest = jsonWord word ++ run (.word []) rest := by
  cases rest with
  | nil => exact (List.append_nil _).symm
  | cons c rest =>
    have hc : ¬ isWordPart c = true := by simp [hrest c rfl]
    rw [run_cons, run_cons]
    simp only [step, if_neg hc]
    split
    · exact List.append_assoc _ _ _
    · split
      · exact List.append_assoc _ _ _
      · exact List.append_assoc _ _ _

theorem run_word (h : Lexical text) (hword : ∀ c ∈ word, isStructural c = true) (hrest : EndsWord rest) :
    run (.word word) (text ++ rest) = word ++ (text ++ run (.word []) rest) := by
  induction h generalizing word with
  | nil =>
    rw [List.nil_append, run_endsWord word hrest, jsonWord_of_lexical (lexical_of_forall hword)]
    rfl
  | @char c text hc _ ih =>
    have hquotes : c ≠ doubleQuote ∧ c ≠ singleQuote := by
      constructor <;> rintro rfl <;> revert hc <;> decide
    rw [List.cons_append]
    by_cases hpart : isWordPart c = true
    · have hstep : step (.word word) c = (.word (word ++ [c]), []) := if_pos hpart
      have hword' : ∀ c' ∈ word ++ [c], isStructural c' = true :=
        List.forall_mem_append.mpr ⟨hword, List.forall_mem_singleton.mpr hc⟩
      rw [run_cons, hstep, ih hword', List.append_assoc]
      rfl
    · have hstep : step (.word word) c = (.word [], jsonWord word ++ [c]) :=
        ((if_neg hpart).trans (if_neg hquotes.1)).trans (if_neg hquotes.2)
      rw [run_cons, hstep, ih (List.forall_mem_nil _), jsonWord_of_lexical (lexical_of_forall hword), List.append_assoc]
      rfl
  | @string content text hcontent _ ih =>
    have hstep : step (.word word) doubleQuote = (.double false, jsonWord word ++ [doubleQuote]) := rfl
    rw [List.cons_append, List.append_assoc]
    change run (.word word) (doubleQuote :: (content ++ doubleQuote :: (text ++ rest))) = _
    rw [run_cons, hstep, run_double hcontent, ih (List.forall_mem_nil _),
      jsonWord_of_lexical (lexical_of_forall hword)]
    simp only [List.append_assoc, List.cons_append, List.nil_append]

theorem run_lexical (h : Lexical text) (hrest : EndsWord rest) :
    run (.word []) (text ++ rest) = text ++ run (.word []) rest := run_word h (List.forall_mem_nil _) hrest

theorem toJson_of_lexical (h : Lexical text) : toJson text = text := by
  have hrun := run_lexical h endsWord_nil
  rw [List.append_nil] at hrun
  rw [toJson, hrun]
  exact List.append_nil text

end PythonContainer

theorem singleQuoted?_of_lexical (h : Lexical text) : singleQuoted? text = none := by
  cases text with
  | nil => rfl
  | cons c text =>
    refine if_neg ?_
    rintro rfl
    exact not_lexical_cons (by decide) (by decide) h

namespace Java

theorem charLiteral?_of_lexical (h : Lexical text) : charLiteral? text = none := by
  have hhead {text : List Char} (h : Lexical (singleQuote :: text)) : False :=
    not_lexical_cons (by decide) (by decide) h
  unfold charLiteral?
  split
  · refine if_neg ?_
    rintro ⟨rfl, -⟩
    exact hhead h
  · refine if_neg ?_
    rintro ⟨rfl, -⟩
    exact hhead h
  · rfl

theorem suffixedNumber?_of_parse? (h : parse? text = some v) : suffixedNumber? text = none := by
  unfold suffixedNumber?
  split
  · rfl
  · next c hlast =>
    have htext : text.dropLast ++ [c] = text := List.dropLast_append_getLast? c hlast
    split
    · next hsuffix =>
      have hother : Json.isBlank c = false ∧ Number.isNumeral c = false := by
        have hall : ['L', 'l', 'f', 'F', 'd', 'D'].all (fun c ↦ !Json.isBlank c && !Number.isNumeral c) = true := by
          decide
        simpa using List.all_eq_true.mp hall c hsuffix
      split
      · next n hn =>
        have hnone := parse?_concat_eq_none hn hother.1 hother.2
        rw [htext, h] at hnone
        cases hnone
      · rfl
    · rfl

theorem value?_of_parse? (h : parse? text = some v) : value? text = none := by
  rw [value?, charLiteral?_of_lexical (lexical_of_parse? h), suffixedNumber?_of_parse? h]
  rfl

end Java

theorem JavaScript.value?_of_lexical (h : Lexical text) : value? text = none := by
  have hne : text ≠ "undefined".toList := ne_of_lexical h (by decide) (by decide)
  rw [value?, if_neg hne, singleQuoted?_of_lexical h]
  rfl

namespace Python

theorem keyword?_of_lexical (h : Lexical text) : keyword? text = none := by
  have hne : text ≠ "True".toList ∧ text ≠ "False".toList ∧ text ≠ "None".toList := ne_keyword_of_lexical h
  rw [keyword?, if_neg hne.1, if_neg hne.2.1, if_neg hne.2.2]

theorem between?_of_lexical (h : Lexical text) : between? '(' ')' text = none := by
  have hafter : after? ['('] text = none := by
    by_contra hsome
    obtain ⟨rest, hrest⟩ := Option.ne_none_iff_exists'.mp hsome
    have htext : text = '(' :: rest := after?_eq_some_iff.mp hrest
    subst htext
    exact not_lexical_cons (by decide) (by decide) h
  rw [between?, hafter]
  rfl

theorem value?_of_lexical (h : Lexical text) :
    value? text = if (between? '[' ']' text).isSome then parse? text else none := by
  rw [value?, keyword?_of_lexical h, singleQuoted?_of_lexical h, container?, between?_of_lexical h,
    PythonContainer.toJson_of_lexical h]
  rfl

end Python

/-- No language's own literals take a JSON text for another value. -/
theorem dialectValue?_of_parse? (dialect : Dialect) (h : parse? text = some v) :
    dialectValue? dialect text = none ∨ dialectValue? dialect text = some v := by
  have hlexical := lexical_of_parse? h
  cases dialect with
  | java => exact .inl (Java.value?_of_parse? h)
  | javaScript => exact .inl (JavaScript.value?_of_lexical hlexical)
  | python =>
    change Python.value? text = none ∨ Python.value? text = some v
    rw [Python.value?_of_lexical hlexical, h]
    split
    · exact .inr rfl
    · exact .inl rfl

theorem read_of_parse? (dialect : Dialect) (h : parse? text = some v) (htrim : trim text = text) :
    read dialect text = v := by
  rw [read, htrim]
  rcases dialectValue?_of_parse? dialect h with hvalue | hvalue
  · rw [hvalue, h]
    rfl
  · rw [hvalue]

/-- A JSON text means the same in every language: no language's own literals take it for another value, and the rewriting
of Python containers leaves it as it is. -/
theorem read_json (dialect : Dialect) (h : parse? text = some v) :
    (trim text = text → read dialect text = v) ∧
      (dialectValue? dialect text = none ∨ dialectValue? dialect text = some v) ∧
      PythonContainer.toJson text = text :=
  ⟨read_of_parse? dialect h, dialectValue?_of_parse? dialect h, PythonContainer.toJson_of_lexical (lexical_of_parse? h)⟩

def quotedKeyword : List Char := "[\"it's \\\"None\\\"\",[true,-2]]".toList

theorem read_json_quotedKeyword : ∃ v, parse? quotedKeyword = some v ∧ read .python quotedKeyword = v ∧
    v.compact = quotedKeyword := by
  have hparsed : (parse? quotedKeyword).map compact = some quotedKeyword := by decide +kernel
  obtain ⟨v, h, hcompact⟩ := Option.map_eq_some_iff.mp hparsed
  exact ⟨v, h, (read_json .python h).1 (by decide), hcompact⟩

end AnswerKey.Answer
