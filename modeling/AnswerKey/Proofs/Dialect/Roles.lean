import AnswerKey.Proofs.Dialect.Headings
import AnswerKey.Proofs.Dialect.MethodLine

namespace AnswerKey

open Text Code Reading

variable {line text rest indent : Line} {heading : Heading}

namespace Java

theorem exists_typeText_void : ∃ t : TypeText, t.Tight ∧ t.written = "void".toList :=
  ⟨{ name := "void".toList, args := none, brackets := [] }, by decide, rfl⟩

theorem MainHeading.findSome?_declaration? (m : MainHeading) (n : Nat) :
    (modifierRests n ("void".toList ++ m.behindType)).findSome? declaration? =
      some ("void".toList, "main".toList, m.params) := by
  obtain ⟨t, htight, hvoid⟩ := exists_typeText_void
  have hname : ∀ c ∈ "main".toList, isWord c = true := List.all_eq_true.mp (by decide)
  have hfound := findSome?_modifierRests_written hname m.main_blank htight m.type_gap (by decide) m.params n
  rw [hvoid] at hfound
  rw [← hfound]
  simp only [behindType, List.append_assoc]

theorem MainHeading.beginsCode_void (m : MainHeading) : BeginsCode ("void".toList ++ m.behindType) :=
  beginsCode_name (List.all_eq_true.mp (by decide)) (by decide) m.behindType

theorem MainHeading.leadingModifiers_withType (m : MainHeading) (n : Nat) :
    leadingModifiers (n + 1) (m.withType "void".toList) =
      "static".toList ++ (m.afterStatic ++ ("void".toList ++ m.behindType)) := by
  have hwords : ∀ p ∈ [("public", m.afterPublic)], p.1 ∈ wordsBeforeStatic ∧ IsGap p.2 :=
    List.forall_mem_singleton.mpr ⟨show "public" ∈ wordsBeforeStatic by decide, m.public_gap⟩
  have htext : m.withType "void".toList =
      spaced [("public", m.afterPublic)] ++
        ("static".toList ++ (m.afterStatic ++ ("void".toList ++ m.behindType))) := by
    unfold withType modifiers
    simp only [spaced, List.flatMap_cons, List.flatMap_nil, List.append_nil, List.append_assoc]
  rw [htext]
  exact leadingModifiers_spaced hwords m.static_gap m.beginsCode_void (Nat.le_add_left 1 n)

/-- An entry line is read as the heading of a method called `main`. -/
theorem methodHeading?_of_entryPoint (hread : entryPoint.read? line = some heading) :
    methodHeading? line = some { heading with name := some "main".toList, type := some "void".toList } := by
  obtain ⟨params, hparams, rfl⟩ := Option.map_eq_some_iff.mp hread
  obtain ⟨text, hhead, hmain⟩ := Option.bind_eq_some_iff.mp hparams
  obtain ⟨m, htrim, hvoid, rfl⟩ := exists_mainHeading hhead hmain
  have hline : trimStart line = m.withType "void".toList := by rw [htrim, hvoid, MainHeading.withType]
  obtain ⟨n, hn⟩ : ∃ n, (trimStart line).length = n + 1 := by
    rw [hline]
    exact ⟨_, rfl⟩
  have hstatic := keyword?_append "static" m.static_gap m.beginsCode_void
  rw [methodHeading?, hn, hline, m.leadingModifiers_withType, hstatic, Option.bind_some, m.findSome?_declaration?]
  rfl

theorem functionStart_declaration (rest : Line) :
    functionStart.accepts (declaration.fill initializer [] ++ rest) = false := by
  have hparen : '(' ∈ declaration.fill initializer [] := by decide
  rw [Marker.accepts, functionStart_read?_append hparen]
  decide

end Java

namespace JavaScript

theorem functionWord?_of_keyword? (h : keyword? "function" text = some rest) : functionWord? text = some rest := by
  obtain ⟨behind, hafter, hblanks⟩ := Option.bind_eq_some_iff.mp h
  -- A blank stands where a star may stand.
  have hstar : after? ['*'] behind = none := by
    apply Java.after?_mark
    intro c hc
    obtain ⟨gap, hgap, rfl⟩ := exists_gap_of_blanks? hblanks
    rintro rfl
    exact absurd (Java.isBlank_of_mem_head?_gap hgap rest _ hc) (by decide)
  rw [functionWord?, hafter, Option.bind_some, hstar, Option.getD_none, hblanks]

theorem introduction?_of_keyword? (h : keyword? "function" (optionalKeyword "async" text) = some rest) :
    introduction? (optionalKeyword "export" text) = some rest := by
  have hword := functionWord?_of_keyword? h
  cases hasync : keyword? "async" text with
  | none =>
    rw [optionalKeyword, hasync, Option.getD_none] at h hword
    obtain ⟨gap, -, rfl⟩ := exists_gap_of_keyword? h
    rw [optionalKeyword_of_after? rfl, introduction?, hasync, Option.bind_none, Option.none_or, hword, Option.some_or]
  | some behind =>
    rw [optionalKeyword_of_keyword? hasync] at hword
    obtain ⟨gap, -, rfl⟩ := exists_gap_of_keyword? hasync
    rw [optionalKeyword_of_after? rfl, introduction?, hasync, Option.bind_some, hword, Option.some_or]

theorem functionHeading?_of_entryPoint (hread : entryPoint.read? line = some heading) :
    functionHeading? line = some { heading with name := some "main".toList } := by
  obtain ⟨params, hparams, rfl⟩ := Option.map_eq_some_iff.mp hread
  obtain ⟨behind, hmain, hparen⟩ := Option.bind_eq_some_iff.mp hparams
  obtain ⟨named, hfunction, hafter⟩ := Option.bind_eq_some_iff.mp hmain
  have hrun : run? isNameChar named = some ("main".toList, behind) := by
    obtain ⟨blanks, hblanks, rfl⟩ := exists_blanks_of_openParen? hparen
    have hother : ∀ c, isBlank c = true → isNameChar c = false := by
      intro c hc
      have hdollar : c ≠ '$' := by
        rintro rfl
        exact absurd hc (by decide)
      simp [isNameChar, isWord_eq_false_of_isBlank hc, hdollar]
    exact run?_eq_some_iff.mpr ⟨after?_eq_some_iff.mp hafter, by decide, List.all_eq_true.mp (by decide),
      Java.head?_blanks_cons hblanks hother (by decide) params⟩
  have hrest : functionRest? behind = some params := by
    have htrim : trimStart behind = '(' :: params := after?_eq_some_iff.mp hparen
    simp only [functionRest?, htrim]
  rw [functionHeading?, introduction?_of_keyword? hfunction, Option.bind_some, hrun]
  dsimp only [Option.bind_some]
  rw [hrest, Option.map_some]

end JavaScript

theorem Python.functionStart_of_entryPoint (h : entryPoint.accepts line = true) :
    functionStart.accepts line = false := by
  obtain ⟨heading, hread⟩ := Option.isSome_iff_exists.mp h
  obtain ⟨behind, hif, -⟩ := Option.bind_eq_some_iff.mp hread
  obtain ⟨gap, -, hline⟩ := exists_gap_of_keyword? hif
  -- The guard's first word begins no definition.
  have hnone : keyword? "def" (optionalKeyword "async" (trimStart line)) = none := by
    rw [hline, optionalKeyword_of_after? rfl, keyword?_of_after? rfl]
  rw [Marker.accepts, functionStart]
  dsimp only
  rw [hnone]
  rfl

namespace Dialect

variable (d : Dialect)

theorem functionStart_of_entryPoint (h : d.grammar.entryPoint.accepts line = true) :
    d.grammar.functionStart.accepts line = false := by
  obtain ⟨heading, hread⟩ := Option.isSome_iff_exists.mp h
  cases d with
  | java =>
    have hmain := Java.methodHeading?_of_entryPoint hread
    simp [grammar, Java.grammar, Java.functionStart, Marker.accepts, hmain]
  | javaScript =>
    have hmain := JavaScript.functionHeading?_of_entryPoint hread
    simp [grammar, JavaScript.grammar, JavaScript.functionStart, Marker.accepts, hmain]
  | python => exact Python.functionStart_of_entryPoint h

theorem entryPoint_of_functionStart (h : d.grammar.functionStart.accepts line = true) :
    d.grammar.entryPoint.accepts line = false := by
  rw [← Bool.not_eq_true]
  intro henters
  exact Bool.false_ne_true ((d.functionStart_of_entryPoint henters).symm.trans h)

section

variable (hindent : isBlankLine indent = true)

include hindent

theorem entryPoint_append (line : Line) :
    d.grammar.entryPoint.accepts (indent ++ line) = d.grammar.entryPoint.accepts line := by
  have hmarker : d.grammar.entryPoint.IgnoresIndent := d.entryPoint_ignoresIndent
  exact hmarker.accepts_append hindent line

theorem entryPoint_declaration (rest : Line) : d.grammar.entryPoint.accepts
    (indent ++ (d.declaration.fill d.grammar.collector.initializer [] ++ rest)) = false := by
  rw [d.entryPoint_append hindent]
  cases d <;> rfl

theorem functionStart_declaration (rest : Line) : d.grammar.functionStart.accepts
    (indent ++ (d.declaration.fill d.grammar.collector.initializer [] ++ rest)) = false := by
  have hmarker : d.grammar.functionStart.IgnoresIndent := d.functionStart_ignoresIndent
  rw [hmarker.accepts_append hindent]
  cases d with
  | java => exact Java.functionStart_declaration rest
  | javaScript | python => rfl

theorem entryPoint_renderAppend (args : Line) :
    d.grammar.entryPoint.accepts (d.grammar.renderAppend indent args) = false := by
  rw [Grammar.renderAppend, d.entryPoint_append hindent]
  cases d <;> rfl

theorem entryPoint_renderReturn? (h : d.grammar.renderReturn? indent = some text) :
    d.grammar.entryPoint.accepts text = false := by
  obtain ⟨template, htemplate, rfl⟩ := Option.map_eq_some_iff.mp h
  have hfixed : ∀ template ∈ d.grammar.collector.returning,
      d.grammar.entryPoint.accepts (template.fill d.grammar.collector.initializer []) = false := by
    cases d <;> decide
  rw [d.entryPoint_append hindent]
  exact hfixed template htemplate

end

/-- Where the collector is declared for an entry line, there is neither an entry point nor a function. -/
theorem exists_declared_instrumentEntry (haccepts : d.grammar.entryPoint.accepts line = true) (hline : '\n' ∉ line) :
    ∃ declared, d.grammar.collector.instrumentEntry line = declared :: (if d = .python then [line] else []) ∧
      d.grammar.entryPoint.accepts declared = false ∧ d.grammar.functionStart.accepts declared = false := by
  obtain ⟨rest, -, hinstrumented⟩ := d.exists_instrumentEntry_eq haccepts hline
  have hindent : isBlankLine (indentation line) = true := List.all_takeWhile
  exact ⟨_, hinstrumented, d.entryPoint_declaration hindent rest, d.functionStart_declaration hindent rest⟩

end Dialect

end AnswerKey
