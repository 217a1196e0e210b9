import AnswerKey.Proofs.Dialect.EntryLine
import AnswerKey.Proofs.Script.Newlines

namespace AnswerKey

open Text Code

namespace Script

def linesWithCollector (s : Script) (expression : Line) : List Line :=
  s.lines.modify s.collectorLine (replaceFirst s.dialect.grammar.collector.initializer expression)

variable {script : Script} {new indent rest line : Line} {k : Nat}

theorem splitOn_text (hplain : ∀ line ∈ script.lines, '\n' ∉ line) (hne : script.lines ≠ []) :
    splitOn '\n' script.text = script.lines ++ [[]] := by
  rw [text, endedText_eq hne, ← List.append_nil (script.lines.flatMap _), splitOn_lines hplain]
  rfl

/-- Lines without line feeds are the lines of the text too. -/
theorem textWithCollector_eq (hplain : ∀ line ∈ script.lines, '\n' ∉ line)
    (hline : script.collectorLine < script.lines.length) (new : Line) :
    script.textWithCollector new = endedText (script.linesWithCollector new) := by
  have hne : script.lines ≠ [] := List.ne_nil_of_length_pos (Nat.zero_lt_of_lt hline)
  have hsplit : (splitOn '\n' script.text).modify script.collectorLine
      (replaceFirst script.dialect.grammar.collector.initializer new) = script.linesWithCollector new ++ [[]] := by
    rw [splitOn_text hplain hne, linesWithCollector, List.modify_eq_take_drop, List.modify_eq_take_drop,
      List.take_append_of_le_length hline.le, List.drop_append_of_le_length hline.le, List.drop_eq_getElem_cons hline,
      List.append_assoc]
    rfl
  have hmodified : script.linesWithCollector new ≠ [] := by
    rw [← List.length_pos_iff, linesWithCollector, List.length_modify]
    exact Nat.zero_lt_of_lt hline
  rw [textWithCollector, hsplit, joinLines_concat, List.append_nil, endedText_eq hmodified]

theorem textWithCollector_initializer (script : Script) :
    script.textWithCollector script.dialect.grammar.collector.initializer = script.text := by
  have hsame : replaceFirst script.dialect.grammar.collector.initializer script.dialect.grammar.collector.initializer =
      id := by
    funext text
    exact replaceFirst_self _ text
  rw [textWithCollector, hsame, List.modify_id, joinLines_splitOn]

theorem getElem?_linesWithCollector (hk : k ≠ script.collectorLine) :
    (script.linesWithCollector new)[k]? = script.lines[k]? := by
  rw [linesWithCollector, List.getElem?_modify]
  simp [hk.symm]

theorem getElem?_collectorLine (hindent : isBlankLine indent = true) (hline : script.lines[script.collectorLine]? =
      some (indent ++ (script.dialect.declaration.fill script.dialect.grammar.collector.initializer [] ++ rest))) :
    (script.linesWithCollector new)[script.collectorLine]? =
      some (indent ++ (script.dialect.declaration.fill new [] ++ rest)) := by
  rw [linesWithCollector, List.getElem?_modify, hline]
  simp [script.dialect.replaceFirst_declaration hindent]

theorem endedText_append (front : List Line) (line : Line) (back : List Line) :
    endedText (front ++ line :: back) =
      front.flatMap (· ++ ['\n']) ++ (line ++ '\n' :: back.flatMap (· ++ ['\n'])) := by
  rw [endedText_eq (by simp), List.flatMap_append, List.flatMap_cons, List.append_assoc line]
  rfl

theorem linesWithCollector_eq {d : Dialect} {front back : List Line} (hd : script.dialect = d)
    (hlines : script.lines =
      front ++ (indent ++ (d.declaration.fill d.grammar.collector.initializer [] ++ rest)) :: back)
    (hfront : front.length = script.collectorLine) (hindent : isBlankLine indent = true) (new : Line) :
    script.linesWithCollector new = front ++ (indent ++ (d.declaration.fill new [] ++ rest)) :: back := by
  subst hd
  rw [linesWithCollector, hlines, ← hfront, ← script.dialect.replaceFirst_declaration hindent new]
  exact List.modifyTailIdx_add (List.modifyHead _) 0 front (_ :: back)

theorem newline_not_mem_linesWithCollector (hlines : ∀ line ∈ script.lines, '\n' ∉ line) (hnew : '\n' ∉ new)
    (hindent : isBlankLine indent = true) (hline : script.lines[script.collectorLine]? =
      some (indent ++ (script.dialect.declaration.fill script.dialect.grammar.collector.initializer [] ++ rest))) :
    ∀ line ∈ script.linesWithCollector new, '\n' ∉ line := by
  intro line hmem
  obtain ⟨k, hk⟩ := List.mem_iff_getElem?.mp hmem
  by_cases hcollector : k = script.collectorLine
  · rw [hcollector, getElem?_collectorLine hindent hline] at hk
    obtain rfl := Option.some.inj hk
    have hfixed : '\n' ∉ script.dialect.declaration.fill [] [] := by cases script.dialect <;> decide
    have hold := hlines _ (List.mem_of_getElem? hline)
    simp only [List.mem_append, not_or] at hold ⊢
    exact ⟨hold.1, Template.newline_not_mem_fill hfixed hnew List.not_mem_nil, hold.2.2⟩
  · rw [getElem?_linesWithCollector hcollector] at hk
    exact hlines line (List.mem_of_getElem? hk)

end Script

namespace Snippet

variable {s : Snippet} {script : Script}

/-- The lines that an entry line becomes, and where they are in the script. -/
structure Declared (s : Snippet) (script : Script) (entry rest : Line) (front back : List Line) : Prop where
  entry_eq : ∃ start, s.entryLine = .ok start ∧ s.lines[start]? = some entry
  rest_eq : s.dialect.Redeclares (trimStart entry) rest
  front_length : front.length = script.collectorLine
  lines_eq : script.lines =
    front ++ (indentation entry ++ (s.dialect.declaration.fill s.grammar.collector.initializer [] ++ rest)) ::
      ((if s.dialect = .python then [entry] else []) ++ back)
  edits_eq : s.transformation.edits.filter (·.kind = .entryPoint) =
    [⟨script.collectorLine, .entryPoint, entry, s.grammar.collector.instrumentEntry entry⟩]

theorem exists_declared (hlines : ∀ line ∈ s.lines, '\n' ∉ line) (h : s.transform = .ok script) :
    ∃ entry rest front back, Declared s script entry rest front back := by
  obtain ⟨block, passages, m, front, entry, body, ending, hblock, hfront, hrun, hout, hpassages, hlayout, rfl,
    hedits⟩ := layout_of_transform h
  have hentry := entryLine_of_entryBlock hblock
  have hget : s.lines[block.start]? = some entry.line := by
    rw [← hfront, ← hlayout.index_eq]
    exact Machine.getElem?_of_mem_run hrun (by simp [hpassages])
  obtain ⟨line, hline, haccepts⟩ := accepts_of_entryLine hentry
  obtain rfl : line = entry.line := Option.some.inj (hline.symm.trans hget)
  obtain ⟨rest, hrest, hinstrumented⟩ :=
    s.dialect.exists_instrumentEntry_eq haccepts (hlines _ (List.mem_of_getElem? hget))
  have htexts : entry.texts = s.grammar.collector.instrumentEntry entry.line := hlayout.entered.texts_eq
  have hcollector := collectorLine_scriptOf hlayout hpassages
  refine ⟨entry.line, rest, (copies 0 front).flatMap Passage.texts, (body ++ ending).flatMap Passage.texts ++ [[]],
    ⟨block.start, hentry, hget⟩, hrest, ?_, ?_, ?_⟩
  · rw [hcollector, Passage.length_texts_copies]
  · rw [lines_scriptOf, hpassages, List.flatMap_append, List.flatMap_cons, htexts, grammar, hinstrumented]
    simp only [List.append_assoc, List.cons_append]
  · rw [hedits, (ordered_edits hlayout hout hpassages hrun).filter_entryPoint, hcollector, htexts]

theorem exists_collectorLine (hlines : ∀ line ∈ s.lines, '\n' ∉ line) (h : s.transform = .ok script) :
    ∃ indent rest, isBlankLine indent = true ∧ script.lines[script.collectorLine]? =
      some (indent ++ (script.dialect.declaration.fill script.dialect.grammar.collector.initializer [] ++ rest)) := by
  obtain ⟨entry, rest, front, back, hdeclared⟩ := exists_declared hlines h
  refine ⟨indentation entry, rest, List.all_takeWhile, ?_⟩
  rw [dialect_of_transform h, hdeclared.lines_eq, ← hdeclared.front_length,
    List.getElem?_append_right (Nat.le_refl _), Nat.sub_self]
  rfl

/-- Where a script declares its collector, and what its text is around the initializer there. -/
structure DeclaredOnce (s : Snippet) (script : Script) (entry rest : Line) (before after : List Char) : Prop where
  entry_eq : ∃ start, s.entryLine = .ok start ∧ s.lines[start]? = some entry
  rest_eq : s.dialect.Redeclares (trimStart entry) rest
  edits_eq : s.transformation.edits.filter (·.kind = .entryPoint) =
    [⟨script.collectorLine, .entryPoint, entry, s.grammar.collector.instrumentEntry entry⟩]
  line_eq : (splitOn '\n' script.text)[script.collectorLine]? =
    some (indentation entry ++ (s.dialect.declaration.fill s.grammar.collector.initializer [] ++ rest))
  below_eq : s.dialect = .python → (splitOn '\n' script.text)[script.collectorLine + 1]? = some entry
  place : ∃ above front back below, EndsLine above ∧ above.count '\n' = script.collectorLine ∧
    (∀ new, s.dialect.declaration.fill new [] = front ++ new ++ back) ∧
    before = above ++ (indentation entry ++ front) ∧ after = back ++ rest ++ '\n' :: below
  text_eq : script.text = before ++ (s.grammar.collector.initializer ++ after)
  exchange : ∀ new, script.textWithCollector new = before ++ (new ++ after)

theorem Declared.exists_declaredOnce {entry rest : Line} {front back : List Line}
    (hdeclared : Declared s script entry rest front back) (hdialect : script.dialect = s.dialect)
    (hplain : ∀ line ∈ script.lines, '\n' ∉ line) : ∃ before after, DeclaredOnce s script entry rest before after := by
  obtain ⟨declares, ends, -, hfill⟩ := s.dialect.cut?_declaration []
  have hlines := hdeclared.lines_eq
  have hne : script.lines ≠ [] := by
    rw [hlines]
    simp
  have hsplit := Script.splitOn_text hplain hne
  have hget (k : Nat) : (splitOn '\n' script.text)[script.collectorLine + k]? =
      ((indentation entry ++ (s.dialect.declaration.fill s.grammar.collector.initializer [] ++ rest)) ::
        ((if s.dialect = .python then [entry] else []) ++ back) ++ [[]])[k]? := by
    rw [hsplit, hlines, List.append_assoc, ← hdeclared.front_length, List.getElem?_append_right (Nat.le_add_right _ _),
      Nat.add_sub_cancel_left]
  have hfront : ∀ line ∈ front, (line ++ ['\n']).count '\n' = 1 := by
    intro line hline
    have hmem : line ∈ script.lines := hlines ▸ List.mem_append_left _ hline
    rw [List.count_append, List.count_eq_zero_of_not_mem (hplain line hmem)]
    rfl
  have habove : (front.flatMap (· ++ ['\n'])).count '\n' = script.collectorLine := by
    rw [count_newline_flatMap hfront, hdeclared.front_length]
  -- The text of the lines with a collector declared, cut around that collector.
  have haround (new : Line) (more : List Line) :
      Script.endedText (front ++ (indentation entry ++ (s.dialect.declaration.fill new [] ++ rest)) :: more) =
        front.flatMap (· ++ ['\n']) ++ (indentation entry ++ declares) ++
          (new ++ (ends ++ rest ++ '\n' :: more.flatMap (· ++ ['\n']))) := by
    rw [Script.endedText_append, hfill]
    simp only [List.append_assoc]
  have htext : script.text = _ := (congrArg Script.endedText hlines).trans (haround _ _)
  have hcollector : script.collectorLine < script.lines.length := by
    rw [hlines, ← hdeclared.front_length, List.length_append, List.length_cons]
    omega
  have hexchange (new : Line) : script.textWithCollector new = _ :=
    (Script.textWithCollector_eq hplain hcollector new).trans <|
      congrArg Script.endedText <|
        Script.linesWithCollector_eq hdialect hlines hdeclared.front_length List.all_takeWhile new
  have hbelow (hpython : s.dialect = .python) : (splitOn '\n' script.text)[script.collectorLine + 1]? = some entry := by
    rw [hget 1, if_pos hpython]
    rfl
  have hended : EndsLine (front.flatMap (· ++ ['\n'])) := endsLine_flatMap fun line _ ↦ .inr ⟨line, rfl⟩
  exact ⟨_, _, hdeclared.entry_eq, hdeclared.rest_eq, hdeclared.edits_eq, hget 0, hbelow,
    ⟨_, declares, ends, _, hended, habove, hfill, rfl, rfl⟩, htext,
    fun new ↦ (hexchange new).trans (haround new _)⟩

/-- A script of lines without line feeds declares its collector on one line, which is made of the entry line, and the
text with another collector has that in place of the initializer declared there. With the initializer itself it is the
script's text, whatever its lines are. -/
theorem transform_declaredOnce (h : s.transform = .ok script) :
    ((∀ line ∈ s.lines, '\n' ∉ line) → ∃ entry rest before after, DeclaredOnce s script entry rest before after) ∧
      script.textWithCollector s.grammar.collector.initializer = script.text := by
  have hdialect := dialect_of_transform h
  constructor
  · intro hlines
    obtain ⟨entry, rest, front, back, hdeclared⟩ := exists_declared hlines h
    obtain ⟨before, after, honce⟩ := hdeclared.exists_declaredOnce hdialect (newline_not_mem_lines hlines h)
    exact ⟨entry, rest, before, after, honce⟩
  · rw [grammar, ← hdialect]
    exact script.textWithCollector_initializer

def bracketsText : List Char :=
  "const seen = [];\n\tasync function main(all = []) \x7b\n\t\tconsole.log(seen, []);\n\t\x7d\n".toList

theorem exists_transform_brackets : ∃ script, (ofText "brackets" .javaScript bracketsText).transform = .ok script ∧
    script.collectorLine = 1 := by
  have hline : (ofText "brackets" .javaScript bracketsText).transform.toOption.map (·.collectorLine) = some 1 := by
    decide +kernel
  obtain ⟨script, h, hcollector⟩ := exists_ok_of_toOption hline
  exact ⟨script, h, hcollector⟩

theorem transform_declaredOnce_brackets :
    ∃ script, (ofText "brackets" .javaScript bracketsText).transform = .ok script ∧
    (∃ entry rest before after,
      DeclaredOnce (ofText "brackets" .javaScript bracketsText) script entry rest before after) ∧
      script.textWithCollector "[]".toList = script.text := by
  obtain ⟨script, h, -⟩ := exists_transform_brackets
  obtain ⟨honce, hsame⟩ := transform_declaredOnce h
  exact ⟨script, h, honce (newline_not_mem_ofText _ _ _), hsame⟩

/-- A comment of two lines that stand as one, in front of the entry line. -/
def foldedComment : Snippet where
  id := "folded"
  dialect := .javaScript
  lines := ["/*\n*/".toList, "function main() \x7b".toList, "\x7d".toList]

/-- The line of the text that has the number of the declaring line is the end of the comment. -/
theorem foldedComment_misplaced : ∃ script, foldedComment.transform = .ok script ∧
    (splitOn '\n' script.text)[script.collectorLine]? = some "*/".toList ∧
    ¬ ∃ entry rest before after, DeclaredOnce foldedComment script entry rest before after := by
  have hline : foldedComment.transform.toOption.map (fun script ↦ (splitOn '\n' script.text)[script.collectorLine]?) =
      some (some "*/".toList) := by
    decide +kernel
  obtain ⟨script, h, hline⟩ := exists_ok_of_toOption hline
  refine ⟨script, h, hline, ?_⟩
  rintro ⟨entry, rest, before, after, honce⟩
  have hdeclared := Option.some.inj (hline.symm.trans honce.line_eq)
  have hconst : 'c' ∈ "*/".toList := by
    rw [hdeclared]
    exact List.mem_append_right _ (List.mem_append_left _ (by decide))
  exact absurd hconst (by decide)

end Snippet
end AnswerKey
