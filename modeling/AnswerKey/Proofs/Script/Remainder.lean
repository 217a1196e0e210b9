import AnswerKey.Proofs.Code.Arguments
import AnswerKey.Proofs.Dialect.Indentation
import AnswerKey.Proofs.Script.Record

namespace AnswerKey

open Text Code

namespace Dialect

variable {d : Dialect} {opening : Line}

theorem opening_eq (h : opening ∈ d.grammar.outputCalls) :
    ∃ c name, opening = c :: name ++ ['('] ∧ isBlank c = false ∧ c ≠ '\x7d' := by
  have hall : ∀ o ∈ d.grammar.outputCalls,
      o = o.headD ' ' :: o.tail.dropLast ++ ['('] ∧ isBlank (o.headD ' ') = false ∧ o.headD ' ' ≠ '\x7d' := by
    cases d <;> decide
  exact ⟨_, _, hall _ h⟩

theorem find?_opening (h : opening ∈ d.grammar.outputCalls) (rest : Line) :
    d.grammar.outputCalls.find? (fun o ↦ startsWith (opening ++ rest) o) = some opening := by
  cases d with
  | java =>
    simp only [grammar, Java.grammar, List.mem_cons, List.not_mem_nil, or_false] at h
    rcases h with rfl | rfl | rfl <;> rfl
  | javaScript =>
    obtain rfl := List.mem_singleton.mp h
    rfl
  | python =>
    obtain rfl := List.mem_singleton.mp h
    rfl

theorem balancedArgument?_opening (h : opening ∈ d.grammar.outputCalls) (w rest : Line) :
    balancedArgument? (w ++ (opening ++ rest)) (byteLength w + byteLength opening - 1) =
      (enclosed? 0 .code rest).map Prod.fst := by
  obtain ⟨c, name, rfl, -, -⟩ := opening_eq h
  have hparen : byteLength ['('] = 1 := by decide
  have hposition : byteLength w + byteLength (c :: name ++ ['(']) - 1 = byteLength (w ++ c :: name) := by
    rw [byteLength_append, byteLength_append, hparen]
    omega
  have htext : w ++ (c :: name ++ ['('] ++ rest) = (w ++ c :: name) ++ '(' :: rest := by simp
  rw [hposition, htext, balancedArgument?_append]

theorem exists_opening_eq {line : Line} {call : OutputCall} (hcall : d.grammar.outputCall? line = some call) :
    ∃ rest, call.opening ∈ d.grammar.outputCalls ∧ line = indentation line ++ (call.opening ++ rest) ∧
      call.argument? line = ((enclosed? 0 .code rest).map Prod.fst).map trim := by
  obtain ⟨opening, hfind, rfl⟩ := Option.map_eq_some_iff.mp hcall
  have hknown := List.mem_of_find?_eq_some hfind
  have hstart : startsWith (trimStart line) opening = true := List.find?_some hfind
  obtain ⟨rest, hrest⟩ := Option.isSome_iff_exists.mp hstart
  have hline : line = indentation line ++ (opening ++ rest) := by
    rw [← after?_eq_some_iff.mp hrest, indentation_append_trimStart]
  have hargument := balancedArgument?_opening hknown (indentation line) rest
  rw [← hline] at hargument
  exact ⟨rest, hknown, hline, congrArg (Option.map trim) hargument⟩

end Dialect

/-- A line that begins with an output call, cut at the parentheses of the call. -/
structure CallLine (d : Dialect) where
  indent : Line
  opening : Line
  inside : Line
  remainder : Line
  blank : isBlankLine indent = true
  known : opening ∈ d.grammar.outputCalls
  balanced : Balanced 0 .code inside

namespace CallLine

variable {d : Dialect}

def text (l : CallLine d) : Line := l.indent ++ (l.opening ++ (l.inside ++ ')' :: l.remainder))

def position (l : CallLine d) : Nat := byteLength l.indent + byteLength l.opening - 1

def withRemainder (l : CallLine d) (remainder : Line) : CallLine d := { l with remainder }

theorem indentation_text (l : CallLine d) : indentation l.text = l.indent := by
  obtain ⟨c, name, hopening, hc, -⟩ := Dialect.opening_eq l.known
  rw [text, indentation_append l.blank, hopening]
  simp [indentation, hc]

theorem trimStart_text (l : CallLine d) : trimStart l.text = l.opening ++ (l.inside ++ ')' :: l.remainder) := by
  obtain ⟨c, name, hopening, hc, -⟩ := Dialect.opening_eq l.known
  rw [text, trimStart_append l.blank, hopening]
  simp [trimStart, hc]

theorem isBlankLine_text (l : CallLine d) : isBlankLine l.text = false := by
  obtain ⟨c, name, hopening, hc, -⟩ := Dialect.opening_eq l.known
  rw [text, isBlankLine_append l.blank, hopening]
  simp [isBlankLine, hc]

theorem outputCall?_text (l : CallLine d) : d.grammar.outputCall? l.text = some ⟨l.opening, l.position⟩ := by
  rw [Grammar.outputCall?, trimStart_text, indentation_text, Dialect.find?_opening l.known]
  rfl

theorem argument?_text (l : CallLine d) :
    OutputCall.argument? ⟨l.opening, l.position⟩ l.text = some (trim l.inside) := by
  have henclosed : enclosed? 0 .code (l.inside ++ ')' :: l.remainder) = some (l.inside, l.remainder) :=
    enclosed?_eq_some_iff.mpr ⟨rfl, l.balanced⟩
  have hargument := Dialect.balancedArgument?_opening l.known l.indent (l.inside ++ ')' :: l.remainder)
  rw [henclosed] at hargument
  exact congrArg (Option.map trim) hargument

theorem closesBlock_text (l : CallLine d) (remainder : Line) (n : Nat) :
    d.grammar.closesBlock (l.withRemainder remainder).text n = d.grammar.closesBlock l.text n := by
  have hopen (l : CallLine d) : d.grammar.blockEnd ≠ .dedent → d.grammar.closesBlock l.text n = false := by
    obtain ⟨c, name, hopening, -, hc⟩ := Dialect.opening_eq l.known
    have htext := l.trimStart_text
    rw [hopening] at htext
    intro hend
    cases d with
    | java => simp [Dialect.grammar, Java.grammar, Grammar.closesBlock, Marker.accepts, Java.closingLine, htext, hc]
    | javaScript =>
      simp [Dialect.grammar, JavaScript.grammar, Grammar.closesBlock, Marker.accepts, JavaScript.closingLine, htext, hc]
    | python => exact absurd rfl hend
  by_cases hend : d.grammar.blockEnd = .dedent
  · rw [Grammar.closesBlock, Grammar.closesBlock, hend]
    simp only [isBlankLine_text, indentWidth, indentation_text]
    rfl
  · rw [hopen _ hend, hopen _ hend]

theorem exists_text_eq {line args : Line} {call : OutputCall} (hcall : d.grammar.outputCall? line = some call)
    (hargs : call.argument? line = some args) :
    ∃ l : CallLine d, l.text = line ∧ l.opening = call.opening ∧ trim l.inside = args := by
  obtain ⟨rest, hknown, hline, hargument⟩ := Dialect.exists_opening_eq hcall
  rw [hargument, Option.map_map, Option.map_eq_some_iff] at hargs
  obtain ⟨⟨inside, remainder⟩, henclosed, rfl⟩ := hargs
  obtain ⟨rfl, hinside⟩ := enclosed?_eq_some_iff.mp henclosed
  exact ⟨⟨indentation line, call.opening, inside, remainder, List.all_takeWhile, hknown, hinside⟩, hline.symm, rfl, rfl⟩

end CallLine

namespace Machine

variable {d : Dialect} {m u : Machine} {commentary : Bool} {i : Nat} {line : Line} {step : Step}

theorem exists_callLine_of_reads (hg : m.grammar = d.grammar) (h : Reads m commentary i line (u, .ok step))
    (hedit : step.edit = some .outputCall) : ∃ l : CallLine d, l.text = line := by
  cases h with
  | passed => cases hedit
  | entered => cases hedit
  | skipped => cases hedit
  | kept => cases hedit
  | closed =>
    unfold Step.closed at hedit
    split at hedit <;> cases hedit
  | appended hpos hcode hclose hcall hargs =>
    obtain ⟨l, hl, -⟩ := CallLine.exists_text_eq (hg ▸ hcall) hargs
    exact ⟨l, hl⟩

theorem act_withRemainder (hg : m.grammar = d.grammar) (l : CallLine d)
    (h : m.act commentary i l.text = (u, .ok step)) (hedit : step.edit = some .outputCall) :
    step = .appended (d.grammar.renderAppend l.indent (trim l.inside)) i ∧
      ∀ remainder, m.act commentary i (l.withRemainder remainder).text = (u, .ok step) := by
  have hreads := h ▸ reads_act m commentary i l.text
  clear h
  generalize hline : l.text = line at hreads
  cases hreads with
  | passed => cases hedit
  | entered => cases hedit
  | skipped => cases hedit
  | kept => cases hedit
  | closed =>
    unfold Step.closed at hedit
    split at hedit <;> cases hedit
  | @appended e n b call args hpos hcode hclose hcall hargs =>
    subst hline
    obtain rfl := Option.some.inj (l.outputCall?_text.symm.trans (hg ▸ hcall))
    obtain rfl := Option.some.inj (l.argument?_text.symm.trans hargs)
    rw [hg, l.indentation_text]
    refine ⟨rfl, fun remainder ↦ ?_⟩
    have hcode' : (commentary || isBlankLine (l.withRemainder remainder).text) = false := by
      rw [l.isBlankLine_text] at hcode
      rwa [CallLine.isBlankLine_text]
    have hclose' : m.grammar.closesBlock (l.withRemainder remainder).text n = false := by
      rw [hg] at hclose ⊢
      rwa [l.closesBlock_text]
    have hread := Reads.appended (i := i) hpos hcode' hclose' (hg ▸ CallLine.outputCall?_text _)
      (CallLine.argument?_text (l.withRemainder remainder))
    rw [hg, CallLine.indentation_text] at hread
    exact act_of_reads hread

theorem exists_reads_of_run {lines : List Line} {passages : List Passage} {outcome : Except Stop Machine}
    (h : m.run i lines = (passages, outcome)) {p : Passage} (hp : p ∈ passages) :
    ∃ (v : Machine) (commentary : Bool) (u : Machine), v.grammar = m.grammar ∧
      Reads v commentary p.index p.line (u, .ok p.step) := by
  induction lines generalizing m i passages with
  | nil =>
    cases h
    cases hp
  | cons line lines ih =>
    cases hs : m.step? i line with
    | none =>
      simp only [run, hs] at h
      cases h
      cases hp
    | some r =>
      obtain ⟨u, _ | step⟩ := r
      · rw [run_cons_of_error hs] at h
        cases h
        cases hp
      · obtain ⟨commentary, t, -, hact⟩ := step?_eq_some_iff.mp hs
        have hreads := hact ▸ reads_act { m with tracker := t } commentary i line
        rcases hrest : u.run (i + 1) lines with ⟨rest, outcome'⟩
        rw [run_cons_of_step hs hrest] at h
        obtain ⟨rfl, rfl⟩ := Prod.mk.inj h
        rcases List.mem_cons.mp hp with rfl | hp
        · exact ⟨{ m with tracker := t }, commentary, u, rfl, hreads⟩
        · obtain ⟨v, commentary', w, hv, hw⟩ := ih hrest hp
          exact ⟨v, commentary', w, hv.trans hreads.frame.1, hw⟩

end Machine

namespace Snippet

variable {s : Snippet} {script : Script}

/-- The statement in place of an output call is made of the indentation and the argument text. The rest of the line has
no part in it, whatever it is: with any other rest the machine does just the same. -/
theorem remainder_dropped (h : s.transform = .ok script) {e : Edit} (he : e ∈ s.transformation.edits)
    (hkind : e.kind = .outputCall) :
    ∃ l : CallLine s.dialect, e.source = l.text ∧ e.emitted = [s.grammar.renderAppend l.indent (trim l.inside)] ∧
      ∀ (m u : Machine) (commentary : Bool) (i : Nat) (step : Step), m.grammar = s.grammar →
        m.act commentary i e.source = (u, .ok step) → step.edit = some .outputCall →
          ∀ remainder, m.act commentary i (l.withRemainder remainder).text = (u, .ok step) := by
  obtain ⟨block, passages, m, -, hrun, -, -, hedits⟩ := transform_ok h
  rw [hedits] at he
  obtain ⟨p, hp, hpe⟩ := List.mem_filterMap.mp he
  obtain ⟨kind, hedit, rfl⟩ := Passage.edit?_eq_some.mp hpe
  obtain rfl : kind = .outputCall := hkind
  obtain ⟨v, commentary, u, hv, hreads⟩ := Machine.exists_reads_of_run hrun hp
  obtain ⟨l, hl⟩ := Machine.exists_callLine_of_reads (d := s.dialect) hv hreads hedit
  rw [← hl] at hreads
  obtain ⟨hstep, -⟩ := Machine.act_withRemainder (d := s.dialect) hv l (Machine.act_of_reads hreads) hedit
  refine ⟨l, hl.symm, ?_, ?_⟩
  · rw [Passage.texts, hstep]
    rfl
  · intro m u commentary i step hg hact hedit
    rw [← hl] at hact
    exact (Machine.act_withRemainder hg l hact hedit).2

def chained : Snippet where
  id := "chained"
  dialect := .javaScript
  lines := ["function main() \x7b".toList, "  console.log(1); console.log(2);".toList, "\x7d".toList]

def chainedEdit : Edit where
  line := 1
  kind := .outputCall
  source := "  console.log(1); console.log(2);".toList
  emitted := ["  answers.push(1);".toList]

theorem exists_transform_chained : ∃ script, chained.transform = .ok script ∧ script.appendedCalls = 1 := by
  have hcalls : chained.transform.toOption.map (·.appendedCalls) = some 1 := by decide +kernel
  exact exists_ok_of_toOption hcalls

theorem remainder_dropped_chained : ∃ script, chained.transform = .ok script ∧
    chainedEdit ∈ chained.transformation.edits ∧ chainedEdit.kind = .outputCall ∧
    ∃ l : CallLine .javaScript, chainedEdit.source = l.text ∧
      chainedEdit.emitted = [chained.grammar.renderAppend l.indent (trim l.inside)] := by
  obtain ⟨script, h, -⟩ := exists_transform_chained
  have he : chainedEdit ∈ chained.transformation.edits := by decide +kernel
  obtain ⟨l, hsource, hemitted, -⟩ := remainder_dropped h he rfl
  exact ⟨script, h, he, rfl, l, hsource, hemitted⟩

/-- Whether the text behind a call, without blanks and a terminator, is empty, a comment, or a part of the statement in
place of the call. -/
def keepsRemainder (style : CommentStyle) (remainder statement : Line) : Bool :=
  let rest := trim ((after? [';'] (trimStart remainder)).getD remainder)
  rest.isEmpty || startsWith rest style.line || (style.block.any fun (opener, _) ↦ startsWith rest opener) ||
    contains statement rest

theorem chained_remainder_lost : (∃ script, chained.transform = .ok script ∧ script.appendedCalls = 1) ∧
    chainedEdit ∈ chained.transformation.edits ∧
    ∃ l : CallLine .javaScript, chainedEdit.source = l.text ∧ l.remainder = "; console.log(2);".toList ∧
      ∀ statement ∈ chainedEdit.emitted,
        keepsRemainder chained.grammar.comments l.remainder statement = false := by
  have hinside : enclosed? 0 .code "1); console.log(2);".toList = some (['1'], "; console.log(2);".toList) := by decide
  have hlost : ∀ statement ∈ chainedEdit.emitted,
      keepsRemainder chained.grammar.comments "; console.log(2);".toList statement = false := by decide +kernel
  exact ⟨exists_transform_chained, by decide +kernel, ⟨[' ', ' '], "console.log(".toList, ['1'],
    "; console.log(2);".toList, by decide, by decide, (enclosed?_eq_some_iff.mp hinside).2⟩, rfl, rfl, hlost⟩

end Snippet
end AnswerKey
