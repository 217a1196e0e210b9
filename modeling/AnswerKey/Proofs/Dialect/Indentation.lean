import AnswerKey.Code.Comment
import AnswerKey.Dialect.Grammars
import AnswerKey.Proofs.Code.Positions

namespace AnswerKey

open Text Code Reading

variable {w line : Line}

theorem Code.Tracker.feed?_append {style : CommentStyle} {t : Tracker} (hw : isBlankLine w = true) (line : Line) :
    t.feed? style (w ++ line) = t.feed? style line := by
  simp only [Tracker.feed?, trimStart_append hw]

namespace Marker

/-- The marker finds the same in a line, whatever blanks stand in front. -/
def IgnoresIndent (m : Marker) : Prop :=
  ∀ {w : Line} (line : Line), isBlankLine w = true →
    (m.read? (w ++ line)).map (fun h ↦ (h.name, h.type)) = (m.read? line).map fun h ↦ (h.name, h.type)

theorem IgnoresIndent.accepts_append {m : Marker} (h : m.IgnoresIndent) (hw : isBlankLine w = true) (line : Line) :
    m.accepts (w ++ line) = m.accepts line := by
  simpa [accepts] using congrArg Option.isSome (h line hw)

theorem ignoresIndent_filter {role : Role} {read? : Line → Option Heading} {name : Option Line}
    (h : (⟨role, read?⟩ : Marker).IgnoresIndent) :
    (⟨role, fun line ↦ (read? line).filter fun heading ↦ heading.name ≠ name⟩ : Marker).IgnoresIndent := by
  intro w line hw
  have hnamed (o : Option Heading) : (o.filter fun heading ↦ decide (heading.name ≠ name)).map
      (fun h ↦ (h.name, h.type)) = (o.map fun h ↦ (h.name, h.type)).filter fun p ↦ decide (p.1 ≠ name) :=
    (Option.filter_map (x := o) (f := fun h ↦ (h.name, h.type)) (p := fun p ↦ decide (p.1 ≠ name))).symm
  rw [hnamed, hnamed, h line hw]

end Marker

theorem Java.functionStart_ignoresIndent : Java.functionStart.IgnoresIndent := by
  refine Marker.ignoresIndent_filter fun line hw ↦ ?_
  simp only [Java.methodHeading?, trimStart_append hw, Option.map_bind, Option.map_map, Function.comp_def]

theorem Java.entryPoint_ignoresIndent : Java.entryPoint.IgnoresIndent := by
  intro w line hw
  simp only [Java.entryPoint, Java.entryHead?, heading?, trimStart_append hw, Option.map_map, Function.comp_def]

theorem Java.closingLine_ignoresIndent : Java.closingLine.IgnoresIndent := by
  intro w line hw
  simp only [Java.closingLine, trimStart_append hw]
  split
  · split <;> rfl
  · rfl

theorem JavaScript.functionStart_ignoresIndent : JavaScript.functionStart.IgnoresIndent := by
  refine Marker.ignoresIndent_filter fun line hw ↦ ?_
  simp only [JavaScript.functionHeading?, trimStart_append hw, Option.map_bind, Option.map_map, Function.comp_def]

theorem JavaScript.entryPoint_ignoresIndent : JavaScript.entryPoint.IgnoresIndent := by
  intro w line hw
  simp only [JavaScript.entryPoint, heading?, trimStart_append hw, Option.map_map, Function.comp_def]

theorem JavaScript.closingLine_ignoresIndent : JavaScript.closingLine.IgnoresIndent := by
  intro w line hw
  simp only [JavaScript.closingLine, trimStart_append hw]
  split
  · split <;> rfl
  · rfl

theorem Python.functionStart_ignoresIndent : Python.functionStart.IgnoresIndent := by
  intro w line hw
  simp only [Python.functionStart, trimStart_append hw, Option.map_bind, Option.map_map, Function.comp_def]

theorem Python.entryPoint_ignoresIndent : Python.entryPoint.IgnoresIndent := by
  intro w line hw
  simp only [Python.entryPoint, trimStart_append hw, Option.map_bind, Function.comp_def]
  iterate 5 refine Option.bind_congr fun text _ ↦ ?_
  split
  · rfl
  · split <;> rfl
  · rfl

namespace Dialect

theorem functionStart_ignoresIndent (d : Dialect) : d.grammar.functionStart.IgnoresIndent := by
  cases d with
  | java => exact Java.functionStart_ignoresIndent
  | javaScript => exact JavaScript.functionStart_ignoresIndent
  | python => exact Python.functionStart_ignoresIndent

theorem entryPoint_ignoresIndent (d : Dialect) : d.grammar.entryPoint.IgnoresIndent := by
  cases d with
  | java => exact Java.entryPoint_ignoresIndent
  | javaScript => exact JavaScript.entryPoint_ignoresIndent
  | python => exact Python.entryPoint_ignoresIndent

theorem isBlankLine_of_functionStart {d : Dialect} (h : d.grammar.functionStart.accepts line = true) :
    isBlankLine line = false := by
  have hmarker : d.grammar.functionStart.IgnoresIndent := d.functionStart_ignoresIndent
  have hempty : d.grammar.functionStart.accepts [] = false := by cases d <;> rfl
  cases hblank : isBlankLine line with
  | false => rfl
  | true =>
    have hsame := hmarker.accepts_append hblank []
    rw [List.append_nil, h, hempty] at hsame
    cases hsame

theorem closesBlock_append (d : Dialect) (hw : isBlankLine w = true) (line : Line) (n : Nat) :
    d.grammar.closesBlock (w ++ line) (columns w + n) = d.grammar.closesBlock line n := by
  have haligned {m : Marker} (h : m.IgnoresIndent) :
      (m.accepts (w ++ line) && indentWidth (w ++ line) == columns w + n) =
        (m.accepts line && indentWidth line == n) := by
    have hwidth : (columns w + indentWidth line == columns w + n) = (indentWidth line == n) := by
      rw [Bool.eq_iff_iff]
      simp
    rw [h.accepts_append hw, indentWidth_append hw, hwidth]
  cases d with
  | java => exact haligned Java.closingLine_ignoresIndent
  | javaScript => exact haligned JavaScript.closingLine_ignoresIndent
  | python =>
    have hle : (columns w + indentWidth line ≤ columns w + n) = (indentWidth line ≤ n) := by simp
    simp only [grammar, Python.grammar, Grammar.closesBlock, isBlankLine_append hw, indentWidth_append hw, hle]

end Dialect

section

variable {n : Nat} {text rest : Line} {word : String}

theorem isSuffix_of_blanks? (h : blanks? text = some rest) : rest <:+ text := by
  cases text with
  | nil => cases h
  | cons c text =>
    simp only [blanks?] at h
    split at h
    · cases h
      exact (List.dropWhile_suffix _).trans (List.suffix_cons c text)
    · cases h

theorem isSuffix_of_keyword? (h : keyword? word text = some rest) : rest <:+ text := by
  obtain ⟨_, hafter, hblanks⟩ := Option.bind_eq_some_iff.mp h
  exact (isSuffix_of_blanks? hblanks).trans (isSuffix_of_after? hafter)

theorem isSuffix_of_entryHead? (h : Java.entryHead? line = some rest) : rest <:+ line := by
  obtain ⟨_, hpublic, hstatic⟩ := Option.bind_eq_some_iff.mp h
  exact ((isSuffix_of_keyword? hstatic).trans (isSuffix_of_keyword? hpublic)).trans (List.dropWhile_suffix _)

theorem upTo_append (w : Line) (h : rest <:+ line) : upTo (w ++ line) rest = w ++ upTo line rest := by
  have hlength := h.length_le
  rw [upTo, upTo, List.length_append, Nat.add_sub_assoc hlength, List.take_length_add_append]

end

namespace Dialect

theorem argument?_append (d : Dialect) (hw : isBlankLine w = true) (line : Line) :
    (d.grammar.outputCall? (w ++ line)).map (fun call ↦ (call.opening, call.argument? (w ++ line))) =
      (d.grammar.outputCall? line).map fun call ↦ (call.opening, call.argument? line) := by
  have hopening : ∀ opening ∈ d.grammar.outputCalls, 0 < byteLength opening := by cases d <;> decide
  simp only [Grammar.outputCall?, trimStart_append hw, indentation_append hw, byteLength_append, Option.map_map]
  cases hfind : d.grammar.outputCalls.find? fun opening ↦ startsWith (trimStart line) opening with
  | none => rfl
  | some opening =>
    have hpos := hopening opening (List.mem_of_find?_eq_some hfind)
    have hposition : byteLength w + byteLength (indentation line) + byteLength opening - 1 =
        byteLength w + (byteLength (indentation line) + byteLength opening - 1) := by omega
    simp only [Option.map_some, Function.comp_apply, OutputCall.argument?, balancedArgument?, hposition,
      fromByte?_append]

theorem instrumentEntry_append (d : Dialect) (hw : isBlankLine w = true) (line : Line) :
    d.grammar.collector.instrumentEntry (w ++ line) =
      (d.grammar.collector.instrumentEntry line).map (w ++ ·) := by
  cases d with
  | java =>
    have hhead : Java.entryHead? (w ++ line) = Java.entryHead? line := by
      simp only [Java.entryHead?, trimStart_append hw]
    suffices h : Java.instrumentEntry (w ++ line) = w ++ Java.instrumentEntry line by
      simp only [grammar, Java.grammar, h, List.map_cons, List.map_nil]
    unfold Java.instrumentEntry
    rw [hhead]
    cases htext : Java.entryHead? line with
    | none => rfl
    | some text =>
      simp only [upTo_append w (isSuffix_of_entryHead? htext), trimStart_append hw, indentation_append hw]
      split
      · split <;> simp only [List.append_assoc]
      · rfl
  | javaScript =>
    suffices h : JavaScript.instrumentEntry (w ++ line) = w ++ JavaScript.instrumentEntry line by
      simp only [grammar, JavaScript.grammar, h, List.map_cons, List.map_nil]
    simp only [JavaScript.instrumentEntry, trimStart_append hw, indentation_append hw]
    split <;> simp only [List.append_assoc]
  | python =>
    simp only [grammar, Python.grammar, Python.instrumentEntry, indentation_append hw, List.append_assoc, List.map_cons,
      List.map_nil]

end Dialect

theorem Grammar.renderAppend_append (g : Grammar) (w indent args : Line) :
    g.renderAppend (w ++ indent) args = w ++ g.renderAppend indent args :=
  List.append_assoc _ _ _

theorem Grammar.renderReturn?_append (g : Grammar) (w indent : Line) :
    g.renderReturn? (w ++ indent) = (g.renderReturn? indent).map (w ++ ·) := by
  simp only [renderReturn?, Option.map_map, Function.comp_def, List.append_assoc]

end AnswerKey
