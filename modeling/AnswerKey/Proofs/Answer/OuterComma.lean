import AnswerKey.Proofs.Answer.Requoting
import AnswerKey.Proofs.Json.Levels

namespace AnswerKey.Answer

open Text Code Json

namespace PythonContainer

/-- Whether a character of the Python text is read as code or in a literal. -/
def State.pythonMode : State → Mode
  | .word _ => .code
  | .double escaped => .literal doubleQuote escaped
  | .single escaped => .literal singleQuote escaped

/-- The mode of the JSON text that has come out; a backslash in single quotes is kept back. -/
def State.jsonMode : State → Mode
  | .word _ => .code
  | .double escaped => .literal doubleQuote escaped
  | .single _ => .literal doubleQuote false

def State.IsProper : State → Prop
  | .word read => ∀ c ∈ read, isWordPart c = true
  | _ => True

variable {state : State} {depth : Nat} {c : Char} {text front rest read : List Char}

theorem isPlain_of_isWordPart (hc : isWordPart c = true) : IsPlain c := isPlain_of_marks (by decide) hc

theorem isWordPart_of_mem_jsonWord (h : ∀ c ∈ read, isWordPart c = true) :
    ∀ c ∈ jsonWord read, isWordPart c = true := by
  unfold jsonWord
  split
  · exact List.all_eq_true.mp (by decide)
  split
  · exact List.all_eq_true.mp (by decide)
  split
  · exact List.all_eq_true.mp (by decide)
  · exact h

theorem isLevel_jsonWord (h : ∀ c ∈ read, isWordPart c = true) : IsLevel (jsonWord read) :=
  isLevel_of_forall fun c hc ↦ .inl (isPlain_of_isWordPart (isWordPart_of_mem_jsonWord h c hc))

theorem comma_notMem_jsonWord (h : ∀ c ∈ read, isWordPart c = true) : ',' ∉ jsonWord read := by
  intro hmem
  have hcomma := isWordPart_of_mem_jsonWord h _ hmem
  exact absurd hcomma (by decide)

theorem cases_of_concat_eq {word : List Char} {d : Char} (h : word ++ [d] = front ++ c :: rest) :
    (front = word ∧ d = c) ∨ ∃ rest', rest = rest' ++ [d] ∧ word = front ++ c :: rest' := by
  rcases List.eq_nil_or_concat rest with rfl | ⟨rest, e, rfl⟩
  · obtain ⟨rfl, heq⟩ := List.append_inj' h rfl
    exact .inl ⟨rfl, (List.cons.inj heq).1⟩
  · have hfront : word ++ [d] = (front ++ c :: rest) ++ [e] := by simpa using h
    obtain ⟨rfl, heq⟩ := List.append_inj' hfront rfl
    cases heq
    exact .inr ⟨rest, List.concat_eq_append, rfl⟩

theorem eq_of_concat_eq {word : List Char} {d : Char} (hword : ',' ∉ word) (h : word ++ [d] = front ++ ',' :: rest) :
    front = word ∧ d = ',' := by
  rcases cases_of_concat_eq h with heq | ⟨rest', -, rfl⟩
  · exact heq
  · exact absurd (List.mem_append_right _ List.mem_cons_self) hword

/-- A character of the Python text and what comes out for it. -/
structure Mirrors (state : State) (c : Char) (state' : State) (out : List Char) : Prop where
  proper : state'.IsProper
  pythonMode : state'.pythonMode = state.pythonMode.next c
  level : ∀ depth,
    Level.after (depth, state.jsonMode) out = (bracketDepth state.pythonMode depth c, state'.jsonMode)
  comma : ∀ depth front rest, out = front ++ ',' :: rest → Level.after (depth, state.jsonMode) front = (0, .code) →
    c = ',' ∧ state.pythonMode = .code ∧ depth = 0

theorem mirrors_wordEnd {state' : State} {d : Char} (hread : ∀ c ∈ read, isWordPart c = true)
    (hproper : state'.IsProper) (hmode : state'.pythonMode = Mode.next .code c)
    (hnext : ∀ depth, Level.next (depth, .code) d = (bracketDepth .code depth c, state'.jsonMode))
    (hd : d = ',' → c = ',') : Mirrors (.word read) c state' (jsonWord read ++ [d]) where
  proper := hproper
  pythonMode := hmode
  level := by
    intro depth
    change Level.after (depth, .code) _ = _
    rw [Level.after_append, isLevel_jsonWord hread]
    exact hnext depth
  comma := by
    intro depth front rest hout hfront
    obtain ⟨rfl, hcomma⟩ := eq_of_concat_eq (comma_notMem_jsonWord hread) hout
    change Level.after (depth, .code) _ = _ at hfront
    rw [isLevel_jsonWord hread] at hfront
    exact ⟨hd hcomma, rfl, (Prod.mk.inj hfront).1⟩

theorem mirrors_word (hread : ∀ c ∈ read, isWordPart c = true) (hback : c ≠ backQuote) :
    Mirrors (.word read) c (step (.word read) c).1 (step (.word read) c).2 := by
  simp only [step]
  split
  · next hc =>
    have hplain := isPlain_of_isWordPart hc
    refine ⟨List.forall_mem_append.mpr ⟨hread, List.forall_mem_singleton.mpr hc⟩, hplain.next_eq.symm, ?_, ?_⟩
    · intro depth
      rw [State.pythonMode, hplain.bracketDepth_eq]
      rfl
    · intro depth front rest hout
      cases front <;> cases hout
  split
  · next hc =>
    subst hc
    exact mirrors_wordEnd hread trivial rfl (fun _ ↦ rfl) id
  split
  · next hc =>
    subst hc
    exact mirrors_wordEnd hread trivial rfl (fun _ ↦ rfl) (fun h ↦ absurd h (by decide))
  · next hdouble hsingle =>
    have hnext : Mode.next .code c = .code := by simp [Mode.next, isQuote, hdouble, hsingle, hback]
    refine mirrors_wordEnd hread (List.forall_mem_nil _) hnext.symm (fun depth ↦ ?_) id
    rw [Level.next, hnext]
    rfl

theorem mirrors_literal {state' : State} {out : List Char} {quote quote' : Char} {escaped escaped' : Bool}
    (hpython : state.pythonMode = .literal quote escaped) (hjson : state.jsonMode = .literal quote' escaped')
    (hproper : state'.IsProper) (hmode : state'.pythonMode = Mode.next (.literal quote escaped) c)
    (hnext : ∀ depth, Level.after (depth, .literal quote' escaped') out = (depth, state'.jsonMode))
    (hfront : ∀ front rest, out = front ++ ',' :: rest → front = [] ∨ front = [backslash] ∧ escaped' = false) :
    Mirrors state c state' out where
  proper := hproper
  pythonMode := hpython ▸ hmode
  level := by
    intro depth
    rw [hjson, hpython, hnext]
    rfl
  comma := by
    intro depth front rest hout hafter
    rw [hjson] at hafter
    rcases hfront front rest hout with rfl | ⟨rfl, rfl⟩
    · cases hafter
    · have hslash : Mode.next (.literal quote' false) backslash = .literal quote' true := by
        rw [Mode.next, if_pos rfl]
      rw [Level.after_cons, Level.next, hslash] at hafter
      cases hafter

theorem front_of_singleton {d : Char} (h : [d] = front ++ ',' :: rest) : front = [] := by
  cases front with
  | nil => rfl
  | cons e front =>
    have htail : [] = front ++ ',' :: rest := (List.cons.inj h).2
    cases front <;> cases htail

theorem front_of_pair {d : Char} (h : [backslash, d] = front ++ ',' :: rest) : front = [] ∨ front = [backslash] := by
  cases front with
  | nil => exact .inl rfl
  | cons e front =>
    obtain ⟨rfl, htail⟩ := List.cons.inj h
    exact .inr (congrArg _ (front_of_singleton htail))

theorem mirrors_literal_char {state' : State} {d quote quote' : Char} {escaped escaped' : Bool}
    (hpython : state.pythonMode = .literal quote escaped) (hjson : state.jsonMode = .literal quote' escaped')
    (hproper : state'.IsProper) (hmode : state'.pythonMode = Mode.next (.literal quote escaped) c)
    (hnext : Mode.next (.literal quote' escaped') d = state'.jsonMode) : Mirrors state c state' [d] :=
  mirrors_literal hpython hjson hproper hmode (fun depth ↦ congrArg (Prod.mk depth) hnext)
    fun _ _ h ↦ .inl (front_of_singleton h)

theorem mirrors_double (escaped : Bool) (c : Char) :
    Mirrors (.double escaped) c (step (.double escaped) c).1 (step (.double escaped) c).2 := by
  cases escaped with
  | true => exact mirrors_literal_char rfl rfl trivial rfl rfl
  | false =>
    simp only [step]
    split
    · next hslash =>
      subst hslash
      exact mirrors_literal_char rfl rfl trivial rfl rfl
    split
    · next hquote =>
      subst hquote
      exact mirrors_literal_char rfl rfl (List.forall_mem_nil _) rfl rfl
    · next hslash hquote =>
      have hnext := Mode.next_literal hslash hquote
      exact mirrors_literal_char rfl rfl trivial hnext.symm hnext

theorem mirrors_single (escaped : Bool) (c : Char) :
    Mirrors (.single escaped) c (step (.single escaped) c).1 (step (.single escaped) c).2 := by
  cases escaped with
  | true =>
    simp only [step]
    split
    · next hquote =>
      subst hquote
      exact mirrors_literal_char rfl rfl trivial rfl rfl
    · exact mirrors_literal rfl rfl trivial rfl (fun _ ↦ rfl) fun _ _ h ↦ (front_of_pair h).imp_right (⟨·, rfl⟩)
  | false =>
    simp only [step]
    split
    · next hslash =>
      subst hslash
      -- Nothing comes out for the backslash yet: what it belongs to in JSON depends on the next character.
      exact mirrors_literal rfl rfl trivial rfl (fun _ ↦ rfl) fun front _ h ↦ by cases front <;> cases h
    split
    · next hdouble =>
      subst hdouble
      exact mirrors_literal rfl rfl trivial rfl (fun _ ↦ rfl) fun _ _ h ↦ (front_of_pair h).imp_right (⟨·, rfl⟩)
    split
    · next hsingle =>
      subst hsingle
      exact mirrors_literal_char rfl rfl (List.forall_mem_nil _) rfl rfl
    · next hslash hdouble hsingle =>
      exact mirrors_literal_char rfl rfl trivial (Mode.next_literal hslash hsingle).symm
        (Mode.next_literal hslash hdouble)

theorem mirrors_step (h : state.IsProper) (hback : state.pythonMode = .code → c ≠ backQuote) :
    Mirrors state c (step state c).1 (step state c).2 := by
  cases state with
  | word read => exact mirrors_word h (hback rfl)
  | double escaped => exact mirrors_double escaped c
  | single escaped => exact mirrors_single escaped c

theorem comma_notMem_finish (h : state.IsProper) : ',' ∉ finish state := by
  rcases state with read | _ | _ | _
  · exact comma_notMem_jsonWord h
  · exact List.not_mem_nil
  · exact List.not_mem_nil
  · decide

theorem cases_of_append_eq {out tail : List Char} (h : out ++ tail = front ++ ',' :: rest) :
    (∃ front', front = out ++ front' ∧ tail = front' ++ ',' :: rest) ∨ ∃ rest', out = front ++ ',' :: rest' := by
  rcases List.append_eq_append_iff.mp h with ⟨front', hfront, htail⟩ | ⟨between, hout, hrest⟩
  · exact .inl ⟨front', hfront, htail⟩
  · cases between with
    | nil => exact .inl ⟨[], by simpa using hout.symm, hrest.symm⟩
    | cons c between =>
      obtain ⟨rfl, -⟩ := List.cons.inj hrest
      exact .inr ⟨between, hout⟩

theorem ne_backQuote_of_run (h : state.IsProper) (hback : state.jsonMode.count backQuote front = 0)
    (hrun : run state (c :: text) = front ++ ',' :: rest) (hcode : state.pythonMode = .code) : c ≠ backQuote := by
  rintro rfl
  cases state with
  | word read =>
    -- It would come out as it is, behind the word.
    have hstep : step (.word read) backQuote = (.word [], jsonWord read ++ [backQuote]) := rfl
    rw [run_cons, hstep] at hrun
    rcases cases_of_append_eq hrun with ⟨front, rfl, -⟩ | ⟨rest, hout⟩
    · have hafter : Mode.code.after (jsonWord read) = .code := by
        rw [← Level.after_snd (0, .code), isLevel_jsonWord h]
      rw [State.jsonMode, List.append_assoc, Mode.count_append, hafter] at hback
      simp [Mode.count] at hback
    · obtain ⟨-, heq⟩ := eq_of_concat_eq (comma_notMem_jsonWord h) hout
      cases heq
  | double => cases hcode
  | single => cases hcode

theorem exists_comma_of_run (h : state.IsProper) (hback : state.jsonMode.count backQuote front = 0)
    (hrun : run state text = front ++ ',' :: rest) (hfront : Level.after (depth, state.jsonMode) front = (0, .code)) :
    ∃ front' rest', text = front' ++ ',' :: rest' ∧ Level.after (depth, state.pythonMode) front' = (0, .code) := by
  -- The two texts are at the same level in front of each character, and the level of the comma is that of its own.
  induction text generalizing state depth front with
  | nil =>
    have hfinish : finish state = front ++ ',' :: rest := hrun
    have hmem : ',' ∈ finish state := by
      rw [hfinish]
      exact List.mem_append_right _ List.mem_cons_self
    exact absurd hmem (comma_notMem_finish h)
  | cons c text ih =>
    have hstep := mirrors_step h (ne_backQuote_of_run h hback hrun)
    rw [run_cons] at hrun
    rcases cases_of_append_eq hrun with ⟨front, rfl, htail⟩ | ⟨rest, hout⟩
    · have hmode : state.jsonMode.after (step state c).2 = (step state c).1.jsonMode := by
        rw [← Level.after_snd (depth, state.jsonMode), hstep.level]
      rw [Mode.count_append, hmode, Nat.add_eq_zero_iff] at hback
      rw [Level.after_append, hstep.level] at hfront
      obtain ⟨front', rest', rfl, hfront'⟩ := ih hstep.proper hback.2 htail hfront
      refine ⟨c :: front', rest', rfl, ?_⟩
      rw [Level.after_cons, Level.next, ← hstep.pythonMode]
      exact hfront'
    · obtain ⟨rfl, hcode, rfl⟩ := hstep.comma depth front rest hout hfront
      exact ⟨[], text, rfl, congrArg (Prod.mk 0) hcode⟩

theorem hasOuterComma_of_toJson (hjson : toJson text = front ++ ',' :: rest) (hlevel : IsLevel front)
    (hlexical : Lexical front) : HasOuterComma text := by
  have hproper : (State.word []).IsProper := List.forall_mem_nil _
  exact hasOuterComma_iff.mpr (exists_comma_of_run hproper (count_backQuote_of_lexical hlexical) hjson (hlevel 0))

theorem comma_mem_step (state : State) : ',' ∈ (step state ',').2 := by
  rcases state with read | (_ | _) | (_ | _)
  · exact List.mem_append_right _ List.mem_cons_self
  all_goals decide

theorem comma_mem_run (h : ',' ∈ text) (state : State) : ',' ∈ run state text := by
  induction text generalizing state with
  | nil => cases h
  | cons c text ih =>
    rw [run_cons]
    rcases List.mem_cons.mp h with rfl | h
    · exact List.mem_append_left _ (comma_mem_step state)
    · exact List.mem_append_right _ (ih h _)

end PythonContainer

namespace Python

open PythonContainer

variable {text inner front rest : List Char} {v w : Json} {items : List Json}

theorem exists_eq_dropCommas_append (text : List Char) :
    ∃ tail, text = dropCommas text ++ tail ∧ ∀ c ∈ tail, c = ',' ∨ c = ' ' := by
  refine ⟨(text.reverse.takeWhile fun c ↦ c == ',' || c == ' ').reverse, ?_, ?_⟩
  · rw [dropCommas, ← List.reverse_append, List.takeWhile_append_dropWhile, List.reverse_reverse]
  · intro c hc
    have hc := List.mem_takeWhile_imp (List.mem_reverse.mp hc)
    simpa using hc

theorem hasOuterComma_of_takes (hlevel : TakesLevel (dropCommas (toJson text) ++ [']']) (',' :: rest))
    (hlexical : Takes (dropCommas (toJson text) ++ [']']) (',' :: rest)) : HasOuterComma text := by
  obtain ⟨front, htext, hfront⟩ := hlevel
  obtain ⟨front', htext', hfront'⟩ := hlexical
  obtain rfl : front = front' := List.append_cancel_right (htext.symm.trans htext')
  obtain ⟨tail, hjson, -⟩ := exists_eq_dropCommas_append (toJson text)
  rcases cases_of_concat_eq htext with ⟨-, heq⟩ | ⟨rest, -, hdropped⟩
  · cases heq
  · rw [hdropped, List.append_assoc, List.cons_append] at hjson
    exact hasOuterComma_of_toJson hjson hfront hfront'

theorem forall_isBlank_of_skipBlanks (hrest : ∀ c ∈ rest, Json.isBlank c = true)
    (hclose : skipBlanks (text ++ [']']) = ']' :: rest) : ∀ c ∈ text, Json.isBlank c = true := by
  have htext : text ++ [']'] = (text ++ [']']).takeWhile Json.isBlank ++ ']' :: rest := by
    rw [← hclose]
    exact List.takeWhile_append_dropWhile.symm
  rcases cases_of_concat_eq htext with ⟨hfront, -⟩ | ⟨rest', rfl, -⟩
  · intro c hc
    rw [← hfront] at hc
    exact List.mem_takeWhile_imp hc
  · have hclosing := hrest ']' (List.mem_append_right _ List.mem_cons_self)
    cases hclosing

theorem isBlank_or_comma_of_mem (h : ∀ c ∈ dropCommas text, Json.isBlank c = true) :
    ∀ c ∈ text, Json.isBlank c = true ∨ c = ',' := by
  obtain ⟨tail, htext, htail⟩ := exists_eq_dropCommas_append text
  rw [htext]
  refine List.forall_mem_append.mpr ⟨fun c hc ↦ .inl (h c hc), fun c hc ↦ ?_⟩
  rcases htail c hc with rfl | rfl
  · exact .inr rfl
  · exact .inl rfl

theorem hasOuterComma_of_blank (hcomma : ',' ∈ inner) (hrest : ∀ c ∈ rest, Json.isBlank c = true)
    (hclose : skipBlanks (dropCommas (toJson inner) ++ [']']) = ']' :: rest) : HasOuterComma inner := by
  have hall := isBlank_or_comma_of_mem (forall_isBlank_of_skipBlanks hrest hclose)
  have hmem : ',' ∈ toJson inner := comma_mem_run hcomma _
  obtain ⟨front, after, heq⟩ := List.append_of_mem hmem
  have hfront : ∀ c ∈ front, Json.isBlank c = true ∨ c = ',' := fun c hc ↦ hall c (by simp [heq, hc])
  apply hasOuterComma_of_toJson heq
  · exact isLevel_of_forall fun c hc ↦ (hfront c hc).imp_left (isPlain_of_marks (by decide))
  · refine lexical_of_forall fun c hc ↦ ?_
    rcases hfront c hc with hblank | rfl
    · simp [isStructural, hblank]
    · decide

/-- In parentheses, what has a comma only inside brackets and strings is read as a list of one item. -/
theorem exists_item_of_parse? (hcomma : ',' ∈ inner) (houter : ¬ HasOuterComma inner)
    (h : parse? ('[' :: (dropCommas (toJson inner) ++ [']'])) = some v) : ∃ w, v = .array [w] := by
  obtain ⟨rest, hvalue, hrest⟩ := parse?_eq_some_iff.mp h
  obtain ⟨items, rfl, hitems⟩ := exists_items_of_bracket rfl hvalue
  cases hitems with
  | empty hclose => exact absurd (hasOuterComma_of_blank hcomma hrest hclose) houter
  | items _ _ hitems =>
    cases hitems with
    | last _ _ => exact ⟨_, rfl⟩
    | @more _ _ _ afterItem _ _ hfirst hmark _ =>
      have hlevel := (takesLevel_of_value? hfirst).trans (takesLevel_skipBlanks afterItem)
      have hlexical := (takes_of_value? hfirst).trans (takes_skipBlanks afterItem)
      rw [hmark] at hlevel hlexical
      exact absurd (hasOuterComma_of_takes hlevel hlexical) houter

end Python
end AnswerKey.Answer
