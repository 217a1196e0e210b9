import AnswerKey.Proofs.Script.Displacement
import AnswerKey.Proofs.Script.Record
import AnswerKey.Snippet.Functions
import AnswerKey.Snippet.ReturnType

namespace AnswerKey

open Text Code

section

variable {marker : Marker} {lines : List Line} {w : Line}

theorem lastIndex?_map {f : Line → Line} (h : ∀ line, marker.accepts (f line) = marker.accepts line) :
    lastIndex? marker (lines.map f) = lastIndex? marker lines := by
  induction lines with
  | nil => rfl
  | cons line lines ih => simp only [List.map_cons, lastIndex?, ih, h]

theorem firstIndex?_map {f : Line → Line} (h : ∀ line, marker.accepts (f line) = marker.accepts line) :
    firstIndex? marker (lines.map f) = firstIndex? marker lines := by
  rw [firstIndex?, List.findIdx?_map]
  exact congrArg (fun p ↦ lines.findIdx? p) (funext h)

theorem declaredType?_indented (hmarker : marker.IgnoresIndent) (hw : isBlankLine w = true) (i : Nat) :
    declaredType? marker i (lines.map (w ++ ·)) = declaredType? marker i lines := by
  induction lines generalizing i with
  | nil => rfl
  | cons line lines ih =>
    have hread := hmarker line hw
    simp only [List.map_cons, declaredType?, ih]
    cases h : marker.read? line with
    | none =>
      rw [h, Option.map_none, Option.map_eq_none_iff] at hread
      rw [hread]
    | some heading =>
      rw [h, Option.map_some, Option.map_eq_some_iff] at hread
      obtain ⟨heading', hread', heq⟩ := hread
      rw [hread']
      exact congrArg (fun type : Option Line ↦ some (type.getD [], i)) (Prod.mk.inj heq).2

theorem dropBlankEnd_indented (hw : isBlankLine w = true) (lines : List Line) :
    dropBlankEnd (lines.map (w ++ ·)) = (dropBlankEnd lines).map (w ++ ·) := by
  have hblank : isBlankLine ∘ (w ++ ·) = isBlankLine := funext (isBlankLine_append hw)
  rw [dropBlankEnd, ← List.map_reverse, List.dropWhile_map, hblank, ← List.map_reverse, dropBlankEnd]

end

def Script.indented (w : Line) (script : Script) : Script :=
  { script with
    emitted := script.emitted.dropLast.map (fun e ↦ { e with text := w ++ e.text }) ++ script.emitted.getLast?.toList }

namespace Displacement

variable {w : Line}

def indent (hw : isBlankLine w = true) : Displacement := ⟨fun i ↦ i, Function.injective_id, w, hw⟩

theorem moves_indent (hw : isBlankLine w = true) (i n : Nat) : (indent hw).Moves i i n := fun _ _ ↦ rfl

theorem mapLine_indent (hw : isBlankLine w = true) (fault : Fault) : fault.mapLine (indent hw).number = fault := by
  rcases fault with (_ | _ | _ | _ | _ | _) | _ <;> rfl

end Displacement

namespace Snippet

open Displacement

def indented (s : Snippet) (w : Line) : Snippet := { s with lines := s.lines.map (w ++ ·) }

variable {s : Snippet} {w : Line}

@[simp] theorem id_indented : (s.indented w).id = s.id := rfl

@[simp] theorem dialect_indented : (s.indented w).dialect = s.dialect := rfl

@[simp] theorem grammar_indented : (s.indented w).grammar = s.grammar := rfl

@[simp] theorem lines_indented : (s.indented w).lines = s.lines.map (w ++ ·) := rfl

theorem entryLine_indented (hw : isBlankLine w = true) (s : Snippet) : (s.indented w).entryLine = s.entryLine := by
  have hmarker : s.grammar.entryPoint.IgnoresIndent := s.dialect.entryPoint_ignoresIndent
  simp only [entryLine, id_indented, grammar_indented, lines_indented, lastIndex?_map (hmarker.accepts_append hw)]

theorem functionText_indented (hw : isBlankLine w = true) (s : Snippet) :
    (s.indented w).functionText = s.functionText := by
  have hmarker : s.grammar.functionStart.IgnoresIndent := s.dialect.functionStart_ignoresIndent
  simp only [functionText, functionLines, entryLine_indented hw, id_indented, grammar_indented, lines_indented,
    ← List.map_take, ← List.map_drop, firstIndex?_map (hmarker.accepts_append hw), dropBlankEnd_indented hw,
    dedent_indented hw]

theorem returnType_indented (hw : isBlankLine w = true) (s : Snippet) :
    (s.indented w).returnType = s.returnType := by
  have hmarker : s.grammar.functionStart.IgnoresIndent := s.dialect.functionStart_ignoresIndent
  simp only [returnType, id_indented, dialect_indented, grammar_indented, lines_indented,
    declaredType?_indented hmarker hw]

theorem closing?_indented (hw : isBlankLine w = true) {start : Nat} (hentry : s.entryLine = .ok start) :
    (s.indented w).closing? start = s.closing? start := by
  obtain ⟨front, line, back, hlines, rfl⟩ := split_of_entryLine hentry
  have hlines' : (s.indented w).lines = front.map (w ++ ·) ++ (w ++ line) :: back.map (w ++ ·) := by
    rw [lines_indented, hlines, List.map_append, List.map_cons]
  have hmoved := closingIndex?_displaced (g := s.grammar) (t := {}) rfl (indentWidth line) back
    (moves_indent hw (front.length + 1) back.length)
  rw [closing?_eq hlines, ← List.length_map (w ++ ·), closing?_eq hlines', indentWidth_append hw, List.length_map]
  refine hmoved.trans ?_
  simp only [indent, Option.map_id_fun', Option.map_id_apply]

theorem entryBlock_indented (hw : isBlankLine w = true) (s : Snippet) :
    (s.indented w).entryBlock = s.entryBlock := by
  have hentry' := entryLine_indented hw s
  cases hentry : s.entryLine with
  | error fault => simp only [entryBlock, hentry', hentry]; rfl
  | ok start =>
    rw [entryBlock_of_entryLine (hentry'.trans hentry), entryBlock_of_entryLine hentry, closing?_indented hw hentry]
    simp only [id_indented, grammar_indented, lines_indented, List.length_map]

theorem outputs_indented (hw : isBlankLine w = true) (s : Snippet) : (s.indented w).outputs = s.outputs := by
  have hregion (start stop : Nat) : (s.indented w).outputsIn start stop = s.outputsIn start stop := by
    have hmoved := outputsOf_displaced (g := s.grammar) (t := {}) rfl s.id ((s.lines.drop start).take (stop - start))
      (moves_indent hw start _)
    simp only [outputsIn, id_indented, grammar_indented, lines_indented, ← List.map_drop, ← List.map_take]
    refine hmoved.trans ?_
    cases outputsOf s.grammar s.id {} start ((s.lines.drop start).take (stop - start)) with
    | error fault => exact congrArg Except.error (mapLine_indent hw fault)
    | ok outputs => exact congrArg Except.ok (List.map_id _)
  simp only [outputs, entryBlock_indented hw, hregion]

theorem linesBeforeEntry_indented (hw : isBlankLine w = true) (passages : List Passage) :
    linesBeforeEntry (passages.map (indent hw).passage) = linesBeforeEntry passages := by
  unfold linesBeforeEntry
  rw [List.takeWhile_map, emitted_displaced, List.length_map]
  rfl

theorem scriptOf_indented (hw : isBlankLine w = true) (s : Snippet) (passages : List Passage) :
    (s.indented w).scriptOf (passages.map (indent hw).passage) = (s.scriptOf passages).indented w := by
  have hemitted : (indent hw).emitted = fun e ↦ { e with text := w ++ e.text } := by
    funext e
    simp only [Displacement.emitted, indent, Option.map_id_fun', id_eq]
    rfl
  simp only [scriptOf, Script.indented, id_indented, dialect_indented, emitted_displaced, appended_displaced,
    linesBeforeEntry_indented, List.dropLast_concat, List.getLast?_concat, Option.toList_some, hemitted]

theorem transform_indented (hw : isBlankLine w = true) (s : Snippet) :
    (s.indented w).transform = s.transform.map (Script.indented w) := by
  have hblock' := entryBlock_indented hw s
  cases hblock : s.entryBlock with
  | error fault => simp only [transform, transformation, hblock', hblock]; rfl
  | ok block =>
    have hrun := Machine.run_displaced (m := { grammar := s.grammar, entryLine := block.start }) rfl s.lines
      (moves_indent hw 0 s.lines.length)
    rw [transform_eq_conclude (hblock'.trans hblock), transform_eq_conclude hblock]
    refine ((congrArg (s.indented w).conclude hrun).trans
      (conclude_displaced s (s.indented w) rfl fun _ _ ↦ scriptOf_indented hw s _)).trans ?_
    cases s.conclude (Machine.run { grammar := s.grammar, entryLine := block.start } 0 s.lines) with
    | error fault => exact congrArg Except.error (mapLine_indent hw fault)
    | ok script => rfl

theorem indented_lines_of_transform {script : Script} (h : s.transform = .ok script) (w : Line) :
    ∃ texts, script.lines = texts ++ [[]] ∧ (script.indented w).lines = texts.map (w ++ ·) ++ [[]] ∧
      (script.indented w).origins = script.origins := by
  obtain ⟨block, passages, m, -, -, -, rfl, -⟩ := transform_ok h
  refine ⟨(passages.flatMap (·.step.emitted)).map (·.text), ?_, ?_, ?_⟩
  · simp [Script.lines, scriptOf]
  · simp [Script.lines, Script.indented, scriptOf, Function.comp_def]
  · simp [Script.origins, Script.indented, scriptOf, Function.comp_def]

/-- Blanks in front of all lines of a snippet come out in front of all lines of its script, and make no difference
to anything else. -/
theorem indentation_commutes (hw : isBlankLine w = true) (s : Snippet) :
    (s.indented w).functionText = s.functionText ∧ (s.indented w).returnType = s.returnType ∧
      (s.indented w).outputs = s.outputs ∧ (s.indented w).transform = s.transform.map (Script.indented w) ∧
      ∀ script, s.transform = .ok script →
        (∃ texts, script.lines = texts ++ [[]] ∧ (script.indented w).lines = texts.map (w ++ ·) ++ [[]]) ∧
          (script.indented w).origins = script.origins ∧
          (script.indented w).collectorLine = script.collectorLine ∧
          (script.indented w).appendedCalls = script.appendedCalls := by
  refine ⟨functionText_indented hw s, returnType_indented hw s, outputs_indented hw s, transform_indented hw s, ?_⟩
  intro script h
  obtain ⟨texts, hlines, hindented, horigins⟩ := indented_lines_of_transform h w
  exact ⟨⟨texts, hlines, hindented⟩, horigins, rfl, rfl⟩

theorem indentation_commutes_twice : isBlankLine ['\t', ' '] = true ∧ ∃ script, twice.transform = .ok script ∧
    (twice.indented ['\t', ' ']).outputs = twice.outputs ∧
    (twice.indented ['\t', ' ']).transform = .ok (script.indented ['\t', ' ']) := by
  have hw : isBlankLine ['\t', ' '] = true := by decide
  obtain ⟨script, h⟩ := exists_transform_twice
  obtain ⟨-, -, houtputs, htransform, -⟩ := indentation_commutes hw twice
  exact ⟨hw, script, h, houtputs, by rw [htransform, h]; rfl⟩

end Snippet
end AnswerKey
