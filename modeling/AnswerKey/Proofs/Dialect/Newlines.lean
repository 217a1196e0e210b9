import AnswerKey.Dialect.Grammars
import AnswerKey.Proofs.Dialect.Indentation
import AnswerKey.Proofs.Text.Pieces

namespace AnswerKey

open Text Code Reading

variable {line args indent text piece : Line}

namespace Code

variable {mode : Mode} {depth : Nat}

theorem subset_of_mem_segments (h : piece ∈ segments depth mode text) : piece ⊆ text := by
  induction text generalizing depth mode piece with
  | nil => simp_all [segments]
  | cons c text ih =>
    simp only [segments] at h
    split at h
    · rcases List.mem_cons.mp h with rfl | h
      · exact List.nil_subset _
      · exact List.Subset.trans (ih h) (List.subset_cons_self c text)
    · split at h
      · rw [List.mem_singleton.mp h]
        simp
      · next segment others hsegments =>
        rcases List.mem_cons.mp h with rfl | h
        · exact List.cons_subset_cons c (ih (hsegments ▸ List.mem_cons_self))
        · exact List.Subset.trans (ih (hsegments ▸ List.mem_cons_of_mem segment h)) (List.subset_cons_self c text)

theorem subset_of_mem_splitArguments (h : piece ∈ splitArguments args) : piece ⊆ args := by
  have hmem : piece ∈ (segments 0 .code args).map trim := by
    unfold splitArguments dropEmptyLast at h
    split at h
    · exact List.dropLast_subset _ h
    · exact h
  obtain ⟨segment, hsegment, rfl⟩ := List.mem_map.mp hmem
  exact List.Subset.trans (trim_subset segment) (subset_of_mem_segments hsegment)

theorem newline_not_mem_of_mem_splitArguments (hargs : '\n' ∉ args) (h : piece ∈ splitArguments args) : '\n' ∉ piece :=
  fun hmem ↦ hargs (subset_of_mem_splitArguments h hmem)

end Code

namespace Template

theorem newline_not_mem_fill {template : Template} {initializer expression : List Char}
    (htemplate : '\n' ∉ template.fill [] []) (hi : '\n' ∉ initializer) (he : '\n' ∉ expression) :
    '\n' ∉ template.fill initializer expression := by
  intro h
  obtain ⟨part, hpart, hmem⟩ := List.mem_flatMap.mp h
  have hkept {s : List Char} (hs : '\n' ∈ s) (heq : s = Template.fill [part] [] []) : False :=
    htemplate (List.mem_flatMap.mpr ⟨part, hpart, by simpa [fill, heq] using hs⟩)
  cases part with
  | text s => exact hkept hmem (by simp [fill])
  | collector => exact hkept hmem (by simp [fill])
  | initializer => exact hi hmem
  | expression => exact he hmem

end Template

theorem Java.newline_not_mem_collectedValue (hargs : '\n' ∉ args) : '\n' ∉ collectedValue args := by
  have htrim : '\n' ∉ trim args := fun h ↦ hargs (trim_subset args h)
  unfold collectedValue
  split
  · decide
  · exact htrim

theorem JavaScript.newline_not_mem_collectedValue (hargs : '\n' ∉ args) : '\n' ∉ collectedValue args := by
  have hpieces {piece : Line} (h : piece ∈ splitArguments args) := newline_not_mem_of_mem_splitArguments hargs h
  have hjoined {pieces : List Line} (h : ∀ piece ∈ pieces, '\n' ∉ piece) :
      '\n' ∉ '[' :: join ", ".toList pieces ++ "].join(' ')".toList := by
    simpa using newline_not_mem_join (show '\n' ∉ ", ".toList by decide) h
  unfold collectedValue
  dsimp only
  split
  · decide
  · next arg harg =>
    have harg := hpieces (harg ▸ List.mem_singleton_self arg)
    split
    · exact hjoined (by simpa using harg)
    · exact harg
  · exact hjoined fun piece h ↦ hpieces h

namespace Python

theorem newline_not_mem_of_printKeyword? {arg name value : Line} (harg : '\n' ∉ arg)
    (h : printKeyword? arg = some (name, value)) : '\n' ∉ value := by
  unfold printKeyword? at h
  split at h
  · cases h
  · next name' value' hcut =>
    split at h
    · cases h
    · cases h
      intro hmem
      have hvalue := trim_subset value' hmem
      rw [cut?_eq_some hcut] at harg
      exact harg (List.mem_append_right _ hvalue)

theorem newline_not_mem_printArguments (hargs : '\n' ∉ args) :
    (∀ sep, (printArguments args).1 = some sep → '\n' ∉ sep) ∧ ∀ arg ∈ (printArguments args).2, '\n' ∉ arg := by
  refine List.foldlRecOn (splitArguments args) _ (motive := fun acc : Option Line × List Line ↦
    (∀ sep, acc.1 = some sep → '\n' ∉ sep) ∧ ∀ arg ∈ acc.2, '\n' ∉ arg) (by simp) fun acc hacc arg harg ↦ ?_
  have harg := newline_not_mem_of_mem_splitArguments hargs harg
  obtain ⟨hsep, hpositional⟩ := hacc
  dsimp only
  split
  · next name value hkeyword =>
    refine ⟨fun sep h ↦ ?_, hpositional⟩
    split at h
    · exact Option.some.inj h ▸ newline_not_mem_of_printKeyword? harg hkeyword
    · exact hsep sep h
  · exact ⟨hsep, List.forall_mem_append.mpr ⟨hpositional, List.forall_mem_singleton.mpr harg⟩⟩

theorem newline_not_mem_collectedValue (hargs : '\n' ∉ args) : '\n' ∉ collectedValue args := by
  obtain ⟨hsep, hpositional⟩ := newline_not_mem_printArguments hargs
  have hgetD : '\n' ∉ (printArguments args).1.getD "' '".toList := by
    cases h : (printArguments args).1 with
    | none => decide
    | some sep => exact hsep sep h
  have hjoined {pieces : List Line} (h : ∀ piece ∈ pieces, '\n' ∉ piece) :
      '\n' ∉ '(' :: (printArguments args).1.getD "' '".toList ++ ").join(map(str, (".toList ++
        join ", ".toList pieces ++ ",)))".toList := by
    have hjoin := newline_not_mem_join (show '\n' ∉ ", ".toList by decide) h
    simpa using And.intro hgetD hjoin
  unfold collectedValue
  dsimp only
  split
  · decide
  · next arg harg =>
    have harg := hpositional arg (harg ▸ List.mem_singleton_self arg)
    split
    · exact hjoined (by simpa using harg)
    · exact harg
  · exact hjoined hpositional

end Python

namespace Java

theorem newline_not_mem_instrumentEntry (hline : '\n' ∉ line) : '\n' ∉ instrumentEntry line := by
  have hfill : '\n' ∉ declaration.fill initializer [] := by decide
  have hindent : '\n' ∉ indentation line := fun h ↦ hline (indentation_subset line h)
  unfold instrumentEntry
  split
  · exact hline
  · next text htext =>
    have hfront : '\n' ∉ trimStart (upTo line text) :=
      fun h ↦ hline (List.mem_of_mem_take (trimStart_subset _ h))
    split
    · next rest params hrest _ =>
      split
      · exact hline
      · have hrest_line : '\n' ∉ rest :=
          fun h ↦ hline (((isSuffix_of_after? hrest).trans (isSuffix_of_entryHead? htext)).subset h)
        have htype : '\n' ∉ collectorType := by decide
        simp only [List.mem_append, not_or]
        exact ⟨⟨⟨⟨hindent, hfill⟩, hfront⟩, htype⟩, hrest_line⟩
    · exact hline

end Java

namespace Dialect

def declaration : Dialect → Template
  | java => Java.declaration
  | javaScript => JavaScript.declaration
  | python => Python.declaration

variable (d : Dialect)

theorem newline_not_mem_value (hargs : '\n' ∉ args) : '\n' ∉ d.grammar.collector.value args := by
  cases d with
  | java => exact Java.newline_not_mem_collectedValue hargs
  | javaScript => exact JavaScript.newline_not_mem_collectedValue hargs
  | python => exact Python.newline_not_mem_collectedValue hargs

theorem newline_not_mem_initializer : '\n' ∉ d.grammar.collector.initializer := by
  cases d <;> decide

theorem newline_not_mem_renderAppend (hindent : '\n' ∉ indent) (hargs : '\n' ∉ args) :
    '\n' ∉ d.grammar.renderAppend indent args := by
  have htemplate : '\n' ∉ d.grammar.collector.append.fill [] [] := by cases d <;> decide
  rw [Grammar.renderAppend, List.mem_append, not_or]
  exact ⟨hindent, Template.newline_not_mem_fill htemplate d.newline_not_mem_initializer (d.newline_not_mem_value hargs)⟩

theorem newline_not_mem_renderReturn? (hindent : '\n' ∉ indent) (h : d.grammar.renderReturn? indent = some text) :
    '\n' ∉ text := by
  obtain ⟨template, htemplate, rfl⟩ := Option.map_eq_some_iff.mp h
  have hfixed : ∀ template ∈ d.grammar.collector.returning, '\n' ∉ template.fill [] [] := by cases d <;> decide
  rw [List.mem_append, not_or]
  exact ⟨hindent, Template.newline_not_mem_fill (hfixed template htemplate) d.newline_not_mem_initializer
    List.not_mem_nil⟩

theorem newline_not_mem_instrumentEntry (hline : '\n' ∉ line) :
    ∀ text ∈ d.grammar.collector.instrumentEntry line, '\n' ∉ text := by
  have hindent : '\n' ∉ indentation line := fun h ↦ hline (indentation_subset line h)
  have hfill : '\n' ∉ d.declaration.fill d.grammar.collector.initializer [] := by cases d <;> decide
  cases d with
  | java => exact List.forall_mem_singleton.mpr (Java.newline_not_mem_instrumentEntry hline)
  | javaScript =>
    have htrim : '\n' ∉ trimStart line := fun h ↦ hline (trimStart_subset line h)
    refine List.forall_mem_singleton.mpr ?_
    rw [JavaScript.instrumentEntry, if_neg htrim]
    simp only [List.mem_append, not_or]
    exact ⟨⟨hindent, hfill⟩, htrim⟩
  | python =>
    refine List.forall_mem_cons.mpr ⟨?_, List.forall_mem_singleton.mpr hline⟩
    rw [List.mem_append, not_or]
    exact ⟨hindent, hfill⟩

end Dialect

end AnswerKey
