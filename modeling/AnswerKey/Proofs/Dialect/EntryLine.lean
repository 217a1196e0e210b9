import AnswerKey.Proofs.Dialect.Newlines

namespace AnswerKey

open Text Reading

variable {text rest line : Line}

def IsGap (gap : Line) : Prop := gap ≠ [] ∧ isBlankLine gap = true

theorem exists_gap_of_blanks? (h : blanks? text = some rest) : ∃ gap, IsGap gap ∧ text = gap ++ rest := by
  cases text with
  | nil => cases h
  | cons c text =>
    simp only [blanks?] at h
    split at h
    · next hc =>
      obtain rfl := Option.some.inj h
      have hblank : isBlankLine (c :: indentation text) = true := by
        rw [isBlankLine, List.all_cons, hc, Bool.true_and]
        exact List.all_takeWhile
      exact ⟨c :: indentation text, ⟨List.cons_ne_nil _ _, hblank⟩,
        congrArg (c :: ·) (indentation_append_trimStart text).symm⟩
    · cases h

theorem exists_gap_of_keyword? {word : String} (h : keyword? word text = some rest) :
    ∃ gap, IsGap gap ∧ text = word.toList ++ (gap ++ rest) := by
  obtain ⟨after, hafter, hblanks⟩ := Option.bind_eq_some_iff.mp h
  obtain ⟨gap, hgap, rfl⟩ := exists_gap_of_blanks? hblanks
  exact ⟨gap, hgap, after?_eq_some_iff.mp hafter⟩

theorem exists_blanks_of_openParen? (h : openParen? text = some rest) :
    ∃ blanks, isBlankLine blanks = true ∧ text = blanks ++ '(' :: rest := by
  refine ⟨indentation text, List.all_takeWhile, ?_⟩
  have hparen : trimStart text = '(' :: rest := after?_eq_some_iff.mp h
  rw [← hparen, indentation_append_trimStart]

structure Java.MainHeading where
  afterPublic : Line
  afterStatic : Line
  afterType : Line
  afterMain : Line
  params : Line
  public_gap : IsGap afterPublic
  static_gap : IsGap afterStatic
  type_gap : IsGap afterType
  main_blank : isBlankLine afterMain = true

namespace Java.MainHeading

def modifiers (m : MainHeading) : Line := "public".toList ++ m.afterPublic ++ "static".toList ++ m.afterStatic

theorem modifiers_ne_nil (m : MainHeading) : m.modifiers ≠ [] := List.cons_ne_nil 'p' _

def behindType (m : MainHeading) : Line := m.afterType ++ "main".toList ++ m.afterMain ++ '(' :: m.params

def withType (m : MainHeading) (type : Line) : Line := m.modifiers ++ (type ++ m.behindType)

end Java.MainHeading

/-- What an entry line is behind its indentation, and what that becomes behind the declaration of the collector. -/
inductive Dialect.Redeclares : Dialect → Line → Line → Prop
  | java (m : Java.MainHeading) : Redeclares .java (m.withType "void".toList) (m.withType Java.collectorType)
  | javaScript (rest : Line) : Redeclares .javaScript rest rest
  | python (rest : Line) : Redeclares .python rest []

/-- In front of the rest of an entry line stands what comes before it, less the indentation. -/
theorem trimStart_upTo {front : Line} (h : trimStart line = front ++ text) (hfront : front ≠ []) :
    trimStart (upTo line text) = front := by
  have hline : line = (indentation line ++ front) ++ text := by
    rw [List.append_assoc, ← h, indentation_append_trimStart]
  have hupTo : upTo line text = indentation line ++ front := by
    rw [upTo, hline, List.length_append, Nat.add_sub_cancel, List.take_left, ← hline]
  obtain ⟨c, rest, rfl⟩ := List.exists_cons_of_ne_nil hfront
  have hcode : isBlank c = false := by
    have hhead := List.head?_dropWhile_not isBlank line
    rw [← trimStart, h] at hhead
    exact hhead
  have hindent : isBlankLine (indentation line) = true := List.all_takeWhile
  rw [hupTo, trimStart_append hindent, trimStart, List.dropWhile_cons_of_neg (by simp [hcode])]

namespace Java

theorem exists_mainHeading {params : Line} (hhead : entryHead? line = some text)
    (hmain : afterMain? text = some params) :
    ∃ m : MainHeading, trimStart line = m.modifiers ++ text ∧ text = "void".toList ++ m.behindType ∧
      m.params = params := by
  obtain ⟨behindPublic, hpublic, hstatic⟩ := Option.bind_eq_some_iff.mp hhead
  obtain ⟨afterPublic, hpublicGap, hline⟩ := exists_gap_of_keyword? hpublic
  obtain ⟨afterStatic, hstaticGap, hrest⟩ := exists_gap_of_keyword? hstatic
  have hmodifiers : trimStart line = "public".toList ++ afterPublic ++ "static".toList ++ afterStatic ++ text := by
    simp only [hline, hrest, List.append_assoc]
  obtain ⟨behindMain, hname, hparen⟩ := Option.bind_eq_some_iff.mp hmain
  obtain ⟨name, hvoid, hafter⟩ := Option.bind_eq_some_iff.mp hname
  obtain ⟨afterType, htypeGap, htext⟩ := exists_gap_of_keyword? hvoid
  obtain ⟨afterMain, hblank, hparams⟩ := exists_blanks_of_openParen? hparen
  have htype : text = "void".toList ++ (afterType ++ "main".toList ++ afterMain ++ '(' :: params) := by
    simp only [htext, after?_eq_some_iff.mp hafter, hparams, List.append_assoc]
  exact ⟨⟨afterPublic, afterStatic, afterType, afterMain, params, hpublicGap, hstaticGap, htypeGap, hblank⟩,
    hmodifiers, htype, rfl⟩

/-- An entry line becomes its indentation, the declaration, and itself with another type in place of `void`. -/
theorem exists_instrumentEntry_eq (haccepts : entryPoint.accepts line = true) (hline : '\n' ∉ line) :
    ∃ rest, Dialect.java.Redeclares (trimStart line) rest ∧
      instrumentEntry line = indentation line ++ (declaration.fill initializer [] ++ rest) := by
  cases htext : entryHead? line with
  | none => simp [entryPoint, Marker.accepts, heading?, htext] at haccepts
  | some text =>
    have hmain : (afterMain? text).isSome = true := by
      simpa [entryPoint, Marker.accepts, heading?, htext] using haccepts
    obtain ⟨params, hparams⟩ := Option.isSome_iff_exists.mp hmain
    obtain ⟨m, htrim, hvoid, rfl⟩ := exists_mainHeading htext hparams
    have hparams_line : '\n' ∉ m.params := by
      intro hmem
      have hmem : '\n' ∈ trimStart line := by simp [htrim, hvoid, MainHeading.behindType, hmem]
      exact hline (trimStart_subset line hmem)
    have hafter : after? "void".toList text = some m.behindType := hvoid ▸ after?_append _ _
    have hfront : trimStart (upTo line text) = m.modifiers := trimStart_upTo htrim m.modifiers_ne_nil
    have hheading : trimStart line = m.withType "void".toList := by rw [htrim, hvoid, MainHeading.withType]
    refine ⟨m.withType collectorType, hheading ▸ .java m, ?_⟩
    simp only [instrumentEntry, htext, hafter, hparams, if_neg hparams_line, hfront, MainHeading.withType,
      List.append_assoc]

end Java

namespace Dialect

variable (d : Dialect) {indent : Line}

theorem exists_instrumentEntry_eq (haccepts : d.grammar.entryPoint.accepts line = true) (hline : '\n' ∉ line) :
    ∃ rest, d.Redeclares (trimStart line) rest ∧ d.grammar.collector.instrumentEntry line =
      (indentation line ++ (d.declaration.fill d.grammar.collector.initializer [] ++ rest)) ::
        if d = .python then [line] else [] := by
  cases d with
  | java =>
    obtain ⟨rest, hrest, heq⟩ := Java.exists_instrumentEntry_eq haccepts hline
    exact ⟨rest, hrest, congrArg (fun text ↦ [text]) heq⟩
  | javaScript =>
    have htrim : '\n' ∉ trimStart line := fun h ↦ hline (trimStart_subset line h)
    exact ⟨trimStart line, .javaScript _,
      by simp [grammar, JavaScript.grammar, JavaScript.instrumentEntry, htrim, declaration]⟩
  | python => exact ⟨[], .python _, by simp [grammar, Python.grammar, Python.instrumentEntry, declaration]⟩

/-- In a declaration the initializer does not occur before its own place. -/
theorem cut?_declaration (rest : Line) : ∃ front back,
    cut? d.grammar.collector.initializer (d.declaration.fill d.grammar.collector.initializer [] ++ rest) =
        some (front, back ++ rest) ∧
      ∀ initializer, d.declaration.fill initializer [] = front ++ initializer ++ back := by
  cases d with
  | java => exact ⟨"static java.util.List<Object> answers = ".toList, "; ".toList, rfl, fun initializer ↦ rfl⟩
  | javaScript => exact ⟨"const answers = ".toList, "; ".toList, rfl, fun initializer ↦ rfl⟩
  | python => exact ⟨"answers = ".toList, [], rfl, fun initializer ↦ rfl⟩

theorem replaceFirst_declaration (hindent : isBlankLine indent = true) (new rest : Line) :
    replaceFirst d.grammar.collector.initializer new
        (indent ++ (d.declaration.fill d.grammar.collector.initializer [] ++ rest)) =
      indent ++ (d.declaration.fill new [] ++ rest) := by
  obtain ⟨a, piece, hpiece, ha⟩ : ∃ a piece, d.grammar.collector.initializer = a :: piece ∧ isBlank a = false := by
    cases d with
    | java => exact ⟨_, _, rfl, by decide⟩
    | javaScript => exact ⟨_, _, rfl, by decide⟩
    | python => exact ⟨_, _, rfl, by decide⟩
  have hnot : a ∉ indent := fun hmem ↦ Bool.false_ne_true (ha.symm.trans (isBlank_of_mem hindent a hmem))
  obtain ⟨front, back, hcut, hfill⟩ := d.cut?_declaration rest
  rw [hfill new, replaceFirst, hpiece, cut?_append hnot, ← hpiece, hcut, Option.map_some]
  simp only [List.append_assoc]

end Dialect

end AnswerKey
