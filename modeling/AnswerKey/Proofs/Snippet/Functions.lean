import AnswerKey.Proofs.Dialect.Indentation
import AnswerKey.Proofs.Snippet.Block
import AnswerKey.Snippet.Functions
import Mathlib.Data.List.DropRight

namespace AnswerKey

open Text

structure FunctionParts (s : Snippet) (front : List Line) (first : Line) (more : List Line) (entry : Line)
    (back : List Line) : Prop where
  lines_eq : s.lines = front ++ first :: (more ++ entry :: back)
  front_other : ∀ line ∈ front, s.grammar.functionStart.accepts line = false
  starts : s.grammar.functionStart.accepts first = true
  enters : s.grammar.entryPoint.accepts entry = true
  back_other : ∀ line ∈ back, s.grammar.entryPoint.accepts line = false

namespace Snippet

variable {s : Snippet} {lines : List Line} {entry : Nat}

theorem functionLines_of_entryLine (hentry : s.entryLine = .ok entry) : s.functionLines =
    match firstIndex? s.grammar.functionStart (s.lines.take entry) with
    | none => .error (.defect (.missingBoundary s.id .functionStart))
    | some start => .ok (dedent (dropBlankEnd ((s.lines.take entry).drop start))) := by
  unfold functionLines
  rw [hentry]
  rfl

theorem functionLines_eq_ok_iff : s.functionLines = .ok lines ↔
    ∃ front first more entry back, FunctionParts s front first more entry back ∧
      lines = dedent (dropBlankEnd (first :: more)) := by
  constructor
  · intro h
    cases hentry : s.entryLine with
    | error fault => simp [functionLines, hentry, bind, Except.bind] at h
    | ok i =>
      obtain ⟨head, entry, back, hlines, rfl, henters, hback⟩ := entryLine_eq_ok_iff.mp hentry
      rw [functionLines_of_entryLine hentry, hlines, List.take_left] at h
      split at h
      · cases h
      · next start hstart =>
        obtain ⟨front, first, more, rfl, rfl, hstarts, hfront⟩ := firstIndex?_eq_some_iff.mp hstart
        rw [List.drop_left] at h
        refine ⟨front, first, more, entry, back, ⟨?_, hfront, hstarts, henters, hback⟩, (Except.ok.inj h).symm⟩
        rw [hlines, List.append_assoc, List.cons_append]
  · rintro ⟨front, first, more, entry, back, hparts, rfl⟩
    have hlines : s.lines = (front ++ first :: more) ++ entry :: back := by
      rw [hparts.lines_eq, List.append_assoc, List.cons_append]
    have hentry : s.entryLine = .ok (front ++ first :: more).length :=
      entryLine_eq_ok_iff.mpr ⟨_, entry, back, hlines, rfl, hparts.enters, hparts.back_other⟩
    have hstart : firstIndex? s.grammar.functionStart (front ++ first :: more) = some front.length :=
      firstIndex?_eq_some_iff.mpr ⟨front, first, more, rfl, rfl, hparts.starts, hparts.front_other⟩
    simp only [functionLines_of_entryLine hentry, hlines, List.take_left, hstart, List.drop_left]

end Snippet

section

variable {first : Line} {more lines : List Line}

theorem dropBlankEnd_eq_rdropWhile (lines : List Line) : dropBlankEnd lines = lines.rdropWhile isBlankLine := rfl

theorem exists_dropBlankEnd_cons (hfirst : isBlankLine first = false) (more : List Line) :
    ∃ kept, dropBlankEnd (first :: more) = first :: kept ∧ kept <+: more := by
  have hne : dropBlankEnd (first :: more) ≠ [] := by
    rw [dropBlankEnd_eq_rdropWhile, ne_eq, List.rdropWhile_eq_nil_iff]
    intro h
    simp [h first List.mem_cons_self] at hfirst
  obtain ⟨head, kept, hkept⟩ := List.exists_cons_of_ne_nil hne
  have hprefix : dropBlankEnd (first :: more) <+: first :: more := List.rdropWhile_prefix _ _
  rw [hkept, List.cons_prefix_cons] at hprefix
  obtain ⟨rfl, hprefix⟩ := hprefix
  exact ⟨kept, hkept, hprefix⟩

theorem isBlankLine_of_getLast?_dropBlankEnd (lines : List Line) :
    ∀ last ∈ (dropBlankEnd lines).getLast?, isBlankLine last = false := by
  intro last hlast
  rw [dropBlankEnd_eq_rdropWhile] at hlast
  obtain ⟨hne, rfl⟩ := List.mem_getLast?_eq_getLast hlast
  simpa using List.rdropWhile_last_not isBlankLine lines hne

theorem dropBlankEnd_eq_self (h : ∀ last ∈ lines.getLast?, isBlankLine last = false) : dropBlankEnd lines = lines := by
  rw [dropBlankEnd_eq_rdropWhile, List.rdropWhile_eq_self_iff]
  intro hne
  simp [h _ (List.getLast?_eq_some_getLast hne)]

end

/-- Lines as functions are shown: nothing about them changes when functions are read out of them again. -/
structure Presented (g : Grammar) (lines : List Line) : Prop where
  starts : ∃ first more, lines = first :: more ∧ g.functionStart.accepts first = true
  ends : ∃ front last, lines = front ++ [last] ∧ isBlankLine last = false
  flush : dedent lines = lines

section

variable {d : Dialect} {s : Snippet} {lines rest : List Line} {entry : Line} {text : List Char}

theorem presented_dedent {first : Line} (hfirst : d.grammar.functionStart.accepts first = true) (more : List Line) :
    Presented d.grammar (dedent (dropBlankEnd (first :: more))) := by
  have hmarker : d.grammar.functionStart.IgnoresIndent := d.functionStart_ignoresIndent
  have hcode : isBlankLine first = false := d.isBlankLine_of_functionStart hfirst
  obtain ⟨kept, hkept, -⟩ := exists_dropBlankEnd_cons hcode more
  have hlast := isBlankLine_of_getLast?_dropBlankEnd (first :: more)
  rw [hkept] at hlast ⊢
  obtain ⟨f, hdedent, hf⟩ := exists_dedent_eq (first :: kept)
  refine ⟨⟨f first, kept.map f, hdedent, ?_⟩, ?_, dedent_dedent _⟩
  · obtain ⟨-, heq⟩ := (hf first List.mem_cons_self).2 hcode
    rw [heq, hmarker.accepts_append (isBlankLine_sharedIndentation _)] at hfirst
    exact hfirst
  · obtain ⟨front, last, hends⟩ := List.eq_nil_or_concat' (first :: kept) |>.resolve_left (List.cons_ne_nil _ _)
    have hmem : last ∈ first :: kept := by simp [hends]
    have hblank := hlast last (by simp [hends])
    exact ⟨front.map f, f last, by rw [hdedent, hends]; simp, ((hf last hmem).2 hblank).1⟩

theorem presented_of_functionLines (h : s.functionLines = .ok lines) : Presented s.grammar lines := by
  obtain ⟨front, first, more, entry, back, hparts, rfl⟩ := Snippet.functionLines_eq_ok_iff.mp h
  exact presented_dedent (d := s.dialect) hparts.starts more

theorem Presented.functionLines_eq (h : Presented d.grammar lines) (hentry : d.grammar.entryPoint.accepts entry = true)
    (hrest : ∀ line ∈ rest, d.grammar.entryPoint.accepts line = false) (id : String) :
    (⟨id, d, lines ++ entry :: rest⟩ : Snippet).functionLines = .ok lines := by
  obtain ⟨⟨first, more, rfl, hstarts⟩, ⟨front, last, hends, hlast⟩, hflush⟩ := h
  have hdrop : dropBlankEnd (first :: more) = first :: more := by
    apply dropBlankEnd_eq_self
    simp [hends, hlast]
  refine Snippet.functionLines_eq_ok_iff.mpr ⟨[], first, more, entry, rest, ⟨rfl, ?_, hstarts, hentry, hrest⟩, ?_⟩
  · exact List.forall_mem_nil _
  · rw [hdrop, hflush]

theorem newline_not_mem_functionLines (hlines : ∀ line ∈ s.lines, '\n' ∉ line) (h : s.functionLines = .ok lines) :
    ∀ line ∈ lines, '\n' ∉ line := by
  obtain ⟨front, first, more, entry, back, hparts, rfl⟩ := Snippet.functionLines_eq_ok_iff.mp h
  apply newline_not_mem_dedent
  intro line hline
  apply hlines
  have hmem : line ∈ first :: more := (List.rdropWhile_prefix isBlankLine _).subset hline
  rw [hparts.lines_eq]
  simp only [List.mem_append, List.mem_cons] at hmem ⊢
  rcases hmem with rfl | hmem
  · exact .inr (.inl rfl)
  · exact .inr (.inr (.inl hmem))

theorem functionLines_of_functionText (h : s.functionText = .ok text) :
    ∃ lines, s.functionLines = .ok lines ∧ text = joinLines lines := by
  unfold Snippet.functionText at h
  cases hlines : s.functionLines with
  | error fault => simp [hlines, Except.map] at h
  | ok lines =>
    rw [hlines] at h
    exact ⟨lines, rfl, (Except.ok.inj h).symm⟩

/-- The text of a snippet's functions begins with a function and ends with a line that is not blank, and it is the
text of the functions of every snippet in which it comes before an entry point that is the last one. -/
theorem functionText_idempotent (hlines : ∀ line ∈ s.lines, '\n' ∉ line) (h : s.functionText = .ok text) :
    (∃ first ∈ (splitOn '\n' text).head?, s.grammar.functionStart.accepts first = true) ∧
      (∃ last ∈ (splitOn '\n' text).getLast?, isBlankLine last = false) ∧
      ∀ id entry rest, s.grammar.entryPoint.accepts entry = true →
        (∀ line ∈ rest, s.grammar.entryPoint.accepts line = false) →
        (⟨id, s.dialect, splitOn '\n' text ++ entry :: rest⟩ : Snippet).functionText = .ok text := by
  obtain ⟨lines, hfunction, rfl⟩ := functionLines_of_functionText h
  have hpresented := presented_of_functionLines hfunction
  obtain ⟨first, more, hcons, hstarts⟩ := hpresented.starts
  obtain ⟨front, last, hconcat, hlast⟩ := hpresented.ends
  have hsplit : splitOn '\n' (joinLines lines) = lines :=
    splitOn_joinLines (newline_not_mem_functionLines hlines hfunction) (hcons ▸ List.cons_ne_nil first more)
  rw [hsplit]
  refine ⟨⟨first, by simp [hcons], hstarts⟩, ⟨last, by simp [hconcat], hlast⟩, ?_⟩
  intro id entry rest hentry hrest
  rw [Snippet.functionText, hpresented.functionLines_eq (d := s.dialect) hentry hrest id]
  rfl

def guarded : Snippet where
  id := "guarded"
  dialect := .python
  lines := ["class Box:".toList, "\tdef size(self):".toList, [], "\t\tif __name__ == '__main__':".toList,
    "\t\t  return 3".toList, " ".toList, "if __name__ == \x22__main__\x22:".toList, "\tprint(Box().size())".toList]

theorem functionText_idempotent_guarded : ∃ text, guarded.functionText = .ok text ∧ '\n' ∈ text ∧
    (⟨"again", .python, splitOn '\n' text ++ ["if __name__ == '__main__':".toList, "print(4)".toList]⟩ :
      Snippet).functionText = .ok text := by
  have hlines : ∀ line ∈ guarded.lines, '\n' ∉ line := by decide
  refine ⟨"def size(self):\n\n\tif __name__ == '__main__':\n\t  return 3".toList, by decide +kernel, by decide, ?_⟩
  exact (functionText_idempotent hlines (by decide +kernel)).2.2 _ _ _ (by decide) (by decide)

end

end AnswerKey
