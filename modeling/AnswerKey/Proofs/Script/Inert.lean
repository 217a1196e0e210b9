import AnswerKey.Proofs.Script.Agreement
import AnswerKey.Proofs.Script.Unscannable

namespace AnswerKey

open Text Code

theorem cut?_trimStart {piece line : Line} (h : contains line piece = false) : cut? piece (trimStart line) = none := by
  have hcut : cut? piece line = none := by simpa [contains] using h
  clear h
  induction line with
  | nil => exact hcut
  | cons c line ih =>
    have hrest : cut? piece line = none := by
      simp only [cut?] at hcut
      split at hcut
      · cases hcut
      · exact Option.map_eq_none_iff.mp hcut
    unfold trimStart at ih ⊢
    rw [List.dropWhile_cons]
    split
    · exact ih hrest
    · exact hcut

/-- A line without a meaning: blank, or a line comment in which no block comment ends. -/
def Code.CommentStyle.Inert (style : CommentStyle) (c : Line) : Prop :=
  isBlankLine c = true ∨
    startsWith (trimStart c) style.line = true ∧
      ∀ opener closer, style.block = some (opener, closer) → contains c closer = false

namespace Dialect

variable {d : Dialect} {c : Line}

theorem trimStart_of_inert (hc : d.grammar.comments.Inert c) :
    trimStart c = [] ∨ ∃ rest, trimStart c = d.grammar.comments.line ++ rest := by
  rcases hc with hblank | ⟨hstart, -⟩
  · exact .inl (trimStart_eq_nil hblank)
  · obtain ⟨rest, hrest⟩ := Option.isSome_iff_exists.mp hstart
    exact .inr ⟨rest, after?_eq_some_iff.mp hrest⟩

/-- Whatever a tracker has read, an inert line tells it nothing. -/
theorem feed?_of_inert (hc : d.grammar.comments.Inert c) (t : Tracker) :
    ∃ commentary, t.feed? d.grammar.comments c = some (commentary, t) ∧ (commentary || isBlankLine c) = true := by
  have htext := trimStart_of_inert hc
  have hskip : (startsWith (trimStart c) d.grammar.comments.line || isBlankLine c) = true := by
    rcases hc with hblank | ⟨hstart, -⟩
    · rw [hblank, Bool.or_true]
    · rw [hstart, Bool.true_or]
  by_cases hd : d = .python
  · subst hd
    exact ⟨_, rfl, hskip⟩
  rw [comments_grammar hd] at *
  have hcut : cut? ['*', '/'] (trimStart c) = none := by
    rcases hc with hblank | ⟨-, hcloser⟩
    · rw [trimStart_eq_nil hblank]
      rfl
    · exact cut?_trimStart (hcloser _ _ rfl)
  refine ⟨t.inBlock || startsWith (trimStart c) slashComments.line, ?_, ?_⟩
  · obtain ⟨_ | _⟩ := t
    · rcases htext with htext | ⟨rest, htext⟩ <;>
        simp [Tracker.feed?, slashComments, htext, after?, startsWith, leavesOpen?]
    · simp [Tracker.feed?, slashComments, hcut]
  · rw [Bool.or_assoc, hskip, Bool.or_true]

theorem not_entryPoint_of_inert (hc : d.grammar.comments.Inert c) : d.grammar.entryPoint.accepts c = false := by
  have htext := trimStart_of_inert hc
  suffices hread : d.grammar.entryPoint.read? c = none by simp [Marker.accepts, hread]
  cases d with
  | java =>
    have hpublic : Reading.keyword? "public" (trimStart c) = none := by
      rcases htext with h | ⟨rest, h⟩ <;> rw [h] <;> rfl
    simp only [grammar, Java.grammar, Java.entryPoint, Java.entryHead?, hpublic]
    rfl
  | javaScript =>
    have hasync : Reading.optionalKeyword "async" (trimStart c) = trimStart c := by
      rcases htext with h | ⟨rest, h⟩ <;> rw [h] <;> rfl
    have hfunction : Reading.keyword? "function" (trimStart c) = none := by
      rcases htext with h | ⟨rest, h⟩ <;> rw [h] <;> rfl
    simp only [grammar, JavaScript.grammar, JavaScript.entryPoint, hasync, hfunction]
    rfl
  | python =>
    have hif : Reading.keyword? "if" (trimStart c) = none := by
      rcases htext with h | ⟨rest, h⟩ <;> rw [h] <;> rfl
    simp only [grammar, Python.grammar, Python.entryPoint, hif]
    rfl

end Dialect

namespace Machine

variable {d : Dialect} {m : Machine} {c : Line} {i : Nat}

theorem step?_of_inert (hg : m.grammar = d.grammar) (hc : d.grammar.comments.Inert c) (hi : i ≠ m.entryLine) :
    m.step? i c = some (m, .ok (.copied c i)) := by
  obtain ⟨commentary, hfeed, hskip⟩ := d.feed?_of_inert hc m.tracker
  rw [← hg] at hfeed
  refine step?_eq_some_iff.mpr ⟨commentary, m.tracker, hfeed, ?_⟩
  change m.act commentary i c = _
  refine act_of_reads ?_
  cases hpos : m.position with
  | outside => exact .passed hpos hi
  | inside => exact .skipped hpos hskip

end Machine
end AnswerKey
