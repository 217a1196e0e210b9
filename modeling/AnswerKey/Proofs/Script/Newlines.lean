import AnswerKey.Proofs.Dialect.Newlines
import AnswerKey.Proofs.Script.Remainder
import AnswerKey.Proofs.Text.Lines

namespace AnswerKey

open Text Code

def Machine.IndentsOnLine (m : Machine) : Prop :=
  ∀ entryLine entryIndent indent, m.position = .inside entryLine entryIndent (some indent) → '\n' ∉ indent

namespace Machine

variable {d : Dialect} {m m' u : Machine} {commentary : Bool} {i : Nat} {line : Line} {lines : List Line}
  {step : Step} {passages : List Passage}

theorem Reads.newline_not_mem (hg : m.grammar = d.grammar) (hm : m.IndentsOnLine) (hline : '\n' ∉ line)
    (h : Reads m commentary i line (u, .ok step)) :
    u.IndentsOnLine ∧ ∀ text ∈ step.emitted.map (·.text), '\n' ∉ text := by
  have hindent : '\n' ∉ indentation line := fun hmem ↦ hline (indentation_subset line hmem)
  have hcopied : ∀ text ∈ (Step.copied line i).emitted.map (·.text), '\n' ∉ text := by simpa [Step.copied] using hline
  refine ⟨Indents.of_reads hm hindent h, ?_⟩
  cases h with
  | passed | skipped | kept => exact hcopied
  | entered =>
    rw [Step.texts_entered, hg]
    exact d.newline_not_mem_instrumentEntry hline
  | @closed e n b hpos =>
    have hbody : '\n' ∉ b.getD (indentation line ++ defaultBodyIndent) := by
      apply Indents.getD hm hpos
      simpa [hindent] using (by decide : '\n' ∉ defaultBodyIndent)
    rw [hg]
    cases hreturn : d.grammar.renderReturn? (b.getD (indentation line ++ defaultBodyIndent)) with
    | none => exact hcopied
    | some text => simpa [Step.closed, hline] using d.newline_not_mem_renderReturn? hbody hreturn
  | appended hpos hcode hclose hcall hargs =>
    rw [hg] at hcall ⊢
    obtain ⟨l, rfl, -, rfl⟩ := CallLine.exists_text_eq hcall hargs
    have hinside : '\n' ∉ trim l.inside := fun hmem ↦ hline (by simp [CallLine.text, trim_subset _ hmem])
    simpa [Step.appended] using d.newline_not_mem_renderAppend hindent hinside

theorem newline_not_mem_of_run (hg : m.grammar = d.grammar) (hm : m.IndentsOnLine)
    (hlines : ∀ line ∈ lines, '\n' ∉ line)
    (h : m.run i lines = (passages, .ok m')) : ∀ p ∈ passages, ∀ text ∈ p.texts, '\n' ∉ text := by
  induction lines generalizing m i passages with
  | nil =>
    cases h
    simp
  | cons line lines ih =>
    obtain ⟨commentary, t, u, step, rest, -, hreads, hrest, rfl⟩ := run_cons_ok h
    obtain ⟨hline, hlines⟩ := List.forall_mem_cons.mp hlines
    obtain ⟨hu, htexts⟩ := Reads.newline_not_mem (m := { m with tracker := t }) hg hm hline hreads
    exact List.forall_mem_cons.mpr ⟨htexts, ih (hreads.frame.1.trans hg) hu hlines hrest⟩

end Machine

theorem Script.endedText_eq {lines : List Line} (h : lines ≠ []) : endedText lines = lines.flatMap (· ++ ['\n']) :=
  joinLines_append_newline h

namespace Snippet

variable {s : Snippet} {script : Script}

theorem newline_not_mem_lines (hlines : ∀ line ∈ s.lines, '\n' ∉ line) (h : s.transform = .ok script) :
    ∀ line ∈ script.lines, '\n' ∉ line := by
  obtain ⟨block, passages, m, -, hrun, -, rfl, -⟩ := transform_ok h
  have htexts := Machine.newline_not_mem_of_run (d := s.dialect) rfl (fun _ _ _ h ↦ by simp at h) hlines hrun
  intro line hline
  rw [lines_scriptOf, List.mem_append, List.mem_flatMap, List.mem_singleton] at hline
  rcases hline with ⟨p, hp, hline⟩ | rfl
  · exact htexts p hp line hline
  · exact List.not_mem_nil

theorem lines_ne_nil (h : s.transform = .ok script) : script.lines ≠ [] := by
  obtain ⟨block, passages, m, -, -, -, rfl, -⟩ := transform_ok h
  rw [lines_scriptOf]
  simp

end Snippet
end AnswerKey
