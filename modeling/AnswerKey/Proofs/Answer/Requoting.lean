import AnswerKey.Proofs.Answer.JsonLiteral
import AnswerKey.Proofs.Text.Pieces
import Mathlib.Data.List.Forall2

namespace AnswerKey.Answer

open Text Code Json

/-- What may stand between two quotes of a kind; a backslash takes the character behind it along. -/
inductive Body (quote : Char) : List Char → Prop
  | nil : Body quote []
  | plain {c : Char} {text : List Char} (hquote : c ≠ quote) (hslash : c ≠ backslash) (h : Body quote text) :
      Body quote (c :: text)
  | escaped {c : Char} {text : List Char} (h : Body quote text) : Body quote (backslash :: c :: text)

def quotedBy (quote : Char) (text : List Char) : List Char := quote :: (text ++ [quote])

theorem content_of_body {text : List Char} (h : Body doubleQuote text) : Content text := by
  induction h with
  | nil => exact .nil
  | plain hquote hslash _ ih => exact .plain hquote hslash ih
  | escaped _ ih => exact .escaped ih

theorem content?_plain {c : Char} (hslash : c ≠ backslash) (text : List Char) :
    content? (c :: text) = (content? text).map (c :: ·) := by
  cases text with
  | nil => exact if_neg hslash
  | cons d text => exact if_neg hslash

theorem content?_escaped (c : Char) (text : List Char) :
    content? (backslash :: c :: text) = (content? text).map (unescape c :: ·) := rfl

theorem exists_of_content?_plain {c : Char} {body s : List Char} (hslash : c ≠ backslash)
    (h : content? (c :: body) = some s) : ∃ s', s = c :: s' ∧ content? body = some s' := by
  rw [content?_plain hslash] at h
  obtain ⟨s', hs', rfl⟩ := Option.map_eq_some_iff.mp h
  exact ⟨s', rfl, hs'⟩

theorem exists_of_content?_escaped {c : Char} {body s : List Char} (h : content? (backslash :: c :: body) = some s) :
    ∃ s', s = unescape c :: s' ∧ content? body = some s' := by
  rw [content?_escaped] at h
  obtain ⟨s', hs', rfl⟩ := Option.map_eq_some_iff.mp h
  exact ⟨s', rfl, hs'⟩

theorem exists_content? {quote : Char} {body : List Char} (h : Body quote body) :
    ∃ s, content? body = some s := by
  induction h with
  | nil => exact ⟨[], rfl⟩
  | plain _ hslash _ ih =>
    obtain ⟨s, hs⟩ := ih
    exact ⟨_, by rw [content?_plain hslash, hs]; rfl⟩
  | escaped _ ih =>
    obtain ⟨s, hs⟩ := ih
    exact ⟨_, by rw [content?_escaped, hs]; rfl⟩

namespace PythonContainer

/-- The bodies of one string in single and in double quotes. -/
inductive Requoted : List Char → List Char → Prop
  | nil : Requoted [] []
  | plain {c : Char} {s t : List Char} (hsingle : c ≠ singleQuote) (hdouble : c ≠ doubleQuote) (hslash : c ≠ backslash)
      (h : Requoted s t) : Requoted (c :: s) (c :: t)
  | double {s t : List Char} (h : Requoted s t) : Requoted (doubleQuote :: s) (backslash :: doubleQuote :: t)
  | single {s t : List Char} (h : Requoted s t) : Requoted (backslash :: singleQuote :: s) (singleQuote :: t)
  | escaped {c : Char} {s t : List Char} (hc : c ≠ singleQuote) (h : Requoted s t) :
      Requoted (backslash :: c :: s) (backslash :: c :: t)

variable {s t text json rest text' json' : List Char} {texts jsons : List (List Char)}

theorem exists_requoted (h : Body singleQuote s) : ∃ t, Requoted s t := by
  induction h with
  | nil => exact ⟨[], .nil⟩
  | @plain c s hquote hslash _ ih =>
    obtain ⟨t, ht⟩ := ih
    by_cases hc : c = doubleQuote
    · subst hc
      exact ⟨_, .double ht⟩
    · exact ⟨_, .plain hquote hc hslash ht⟩
  | @escaped c s _ ih =>
    obtain ⟨t, ht⟩ := ih
    by_cases hc : c = singleQuote
    · subst hc
      exact ⟨_, .single ht⟩
    · exact ⟨_, .escaped hc ht⟩

theorem Requoted.content (h : Requoted s t) : Content t := by
  induction h with
  | nil => exact .nil
  | plain _ hdouble hslash _ ih => exact .plain hdouble hslash ih
  | double _ ih => exact .escaped ih
  | single _ ih => exact .plain (by decide) (by decide) ih
  | escaped _ _ ih => exact .escaped ih

theorem run_single (h : Requoted s t) (rest : List Char) :
    run (.single false) (s ++ singleQuote :: rest) = t ++ doubleQuote :: run (.word []) rest := by
  induction h with
  | nil => rfl
  | @plain c s t hsingle hdouble hslash _ ih =>
    have hstep : step (.single false) c = (.single false, [c]) := by
      simp only [step, if_neg hslash, if_neg hdouble, if_neg hsingle]
    rw [List.cons_append, run_cons, hstep, ih]
    rfl
  | double _ ih =>
    rw [List.cons_append, run_cons]
    exact congrArg (fun out ↦ backslash :: doubleQuote :: out) ih
  | single _ ih =>
    rw [List.cons_append, List.cons_append, run_cons, run_cons]
    exact congrArg (fun out ↦ singleQuote :: out) ih
  | @escaped c s t hc _ ih =>
    have hstep : step (.single true) c = (.single false, [backslash, c]) := by simp only [step, if_neg hc]
    have hslash : step (.single false) backslash = (.single true, []) := rfl
    rw [List.cons_append, List.cons_append, run_cons, hslash, run_cons, hstep, ih]
    rfl

/-- In front of anything that goes on with no word, the text comes out as `json`. -/
def Converts (text json : List Char) : Prop :=
  ∀ rest, EndsWord rest → run (.word []) (text ++ rest) = json ++ run (.word []) rest

theorem Converts.toJson_eq (h : Converts text json) : toJson text = json := by
  have hrun := h [] endsWord_nil
  rw [List.append_nil] at hrun
  rw [toJson, hrun]
  exact List.append_nil json

theorem converts_of_lexical (h : Lexical text) : Converts text text :=
  fun _ hrest ↦ run_lexical h hrest

theorem run_wordPart {word : List Char} (hword : ∀ c ∈ word, isWordPart c = true) (read rest : List Char) :
    run (.word read) (word ++ rest) = run (.word (read ++ word)) rest := by
  induction word generalizing read with
  | nil => rw [List.nil_append, List.append_nil]
  | cons c word ih =>
    obtain ⟨hc, hword⟩ := List.forall_mem_cons.mp hword
    have hstep : step (.word read) c = (.word (read ++ [c]), []) := if_pos hc
    rw [List.cons_append, run_cons, hstep, ih hword, List.append_assoc]
    rfl

theorem converts_word {word : List Char} (hword : word.all isWordPart = true) : Converts word (jsonWord word) := by
  intro rest hrest
  rw [run_wordPart (List.all_eq_true.mp hword), List.nil_append, run_endsWord word hrest]

theorem converts_single (h : Requoted s t) : Converts (quotedBy singleQuote s) (quotedBy doubleQuote t) := by
  intro rest _
  have hrun := run_single h rest
  have hstep : step (.word []) singleQuote = (.single false, [doubleQuote]) := rfl
  rw [quotedBy, List.cons_append, List.append_assoc, run_cons, hstep, List.singleton_append]
  simp only [hrun, quotedBy, List.cons_append, List.append_assoc, List.nil_append]

theorem converts_double (h : Body doubleQuote s) : Converts (quotedBy doubleQuote s) (quotedBy doubleQuote s) :=
  converts_of_lexical (.string (content_of_body h) .nil)

theorem EndsWord.append (h : EndsWord text) (hrest : EndsWord rest) : EndsWord (text ++ rest) := by
  cases text with
  | nil => exact hrest
  | cons c text => exact h

theorem Converts.append (h : Converts text json) (h' : Converts text' json') (hends : EndsWord text') :
    Converts (text ++ text') (json ++ json') := by
  intro rest hrest
  rw [List.append_assoc, h _ (hends.append hrest), h' _ hrest, List.append_assoc]

theorem Converts.cons {c : Char} (hc : c ∈ "[],() ".toList) (h : Converts text json) :
    Converts (c :: text) (c :: json) := by
  intro rest hrest
  have hmarks : "[],() ".toList.all (fun c ↦ step (.word []) c = (.word [], [c])) = true := by decide
  rw [List.cons_append, run_cons, of_decide_eq_true (List.all_eq_true.mp hmarks c hc), h _ hrest]
  rfl

theorem converts_mark {c : Char} (hc : c ∈ "[],() ".toList) : Converts [c] [c] :=
  Converts.cons hc fun _ _ ↦ rfl

theorem converts_join (h : List.Forall₂ Converts texts jsons) :
    Converts (join ", ".toList texts) (join ", ".toList jsons) := by
  induction h with
  | nil => exact fun _ _ ↦ rfl
  | cons hfirst hothers ih =>
    cases hothers with
    | nil => simpa [join] using hfirst
    | cons hsecond hothers =>
      rw [join_cons_cons, join_cons_cons]
      apply hfirst.append
      · exact (ih.cons (by decide)).cons (by decide)
      · exact endsWord_cons (by decide) _

theorem Converts.concat {c : Char} (h : Converts text json) (hc : c ∈ "[],() ".toList) :
    Converts (text ++ [c]) (json ++ [c]) := by
  apply h.append (converts_mark hc)
  have hmarks : "[],() ".toList.any isWordPart = false := by decide
  exact endsWord_cons (Bool.eq_false_iff.mpr (List.any_eq_false.mp hmarks c hc)) []

theorem converts_list (h : List.Forall₂ Converts texts jsons) :
    Converts ('[' :: (join ", ".toList texts ++ [']'])) ('[' :: (join ", ".toList jsons ++ [']'])) :=
  ((converts_join h).concat (by decide)).cons (by decide)

end PythonContainer
end AnswerKey.Answer
