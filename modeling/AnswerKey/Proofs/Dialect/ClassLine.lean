import AnswerKey.Proofs.Dialect.EntryLine
import AnswerKey.Proofs.Script.Remainder
import AnswerKey.Proofs.Text.Lines

namespace AnswerKey

open Text Code Reading

variable {text rest indent gap piece : Line} {word : String}

theorem Text.isWord_eq_false_of_isBlank {c : Char} (h : isBlank c = true) : isWord c = false := by
  have hblanks : ∀ n ∈ List.range' 0x09 5 ++ List.range' 0x2000 11 ++
      [0x20, 0x85, 0xA0, 0x1680, 0x2028, 0x2029, 0x202F, 0x205F, 0x3000], isWord (Char.ofNat n) = false := by
    decide +kernel
  have hval : c.val.toNat = c.toNat := rfl
  simp only [isBlank, Bool.or_eq_true, Bool.and_eq_true, decide_eq_true_eq, beq_iff_eq, UInt32.le_iff_toNat_le,
    ← UInt32.toNat_inj, UInt32.reduceToNat, hval] at h
  rw [← Char.ofNat_toNat c]
  apply hblanks
  simp only [List.mem_append, List.mem_range'_1, List.mem_cons, List.not_mem_nil, or_false]
  omega

theorem Text.isBlank_eq_false_of_isWord {c : Char} (h : isWord c = true) : isBlank c = false := by
  by_contra hblank
  rw [Bool.not_eq_false] at hblank
  exact Bool.false_ne_true ((isWord_eq_false_of_isBlank hblank).symm.trans h)

def BeginsCode (text : Line) : Prop := ∀ c ∈ text.head?, isBlank c = false

theorem beginsCode_append (hne : text ≠ []) (h : ∀ c ∈ text, isBlank c = false) (rest : Line) :
    BeginsCode (text ++ rest) := by
  obtain ⟨c, text, rfl⟩ := List.exists_cons_of_ne_nil hne
  intro d hd
  obtain rfl := Option.some.inj hd
  exact h c List.mem_cons_self

theorem trimStart_of_beginsCode (h : BeginsCode text) : trimStart text = text := by
  cases text with
  | nil => rfl
  | cons c text => exact List.dropWhile_cons_of_neg (by simp [h c rfl])

theorem blanks?_append (hgap : IsGap gap) (h : BeginsCode rest) : blanks? (gap ++ rest) = some rest := by
  obtain ⟨hne, hblank⟩ := hgap
  obtain ⟨c, gap, rfl⟩ := List.exists_cons_of_ne_nil hne
  rw [isBlankLine, List.all_cons, Bool.and_eq_true] at hblank
  rw [List.cons_append, blanks?, if_pos hblank.1, trimStart_append hblank.2, trimStart_of_beginsCode h]

theorem keyword?_append (word : String) (hgap : IsGap gap) (h : BeginsCode rest) :
    keyword? word (word.toList ++ (gap ++ rest)) = some rest := by
  rw [keyword?, after?_append, Option.bind_some, blanks?_append hgap h]

theorem optionalKeyword_of_keyword? (h : keyword? word text = some rest) : optionalKeyword word text = rest := by
  rw [optionalKeyword, h, Option.getD_some]

theorem keyword?_of_after? (h : after? word.toList text = none) : keyword? word text = none := by
  rw [keyword?, h, Option.bind_none]

theorem optionalKeyword_of_after? (h : after? word.toList text = none) : optionalKeyword word text = text := by
  rw [optionalKeyword, keyword?_of_after? h, Option.getD_none]

theorem run?_eq_some_iff {p : Char → Bool} {run : Line} : run? p text = some (run, rest) ↔
    text = run ++ rest ∧ run ≠ [] ∧ (∀ c ∈ run, p c = true) ∧ ∀ c ∈ rest.head?, p c = false := by
  have hsplit : text.takeWhile p ++ text.dropWhile p = text := List.takeWhile_append_dropWhile
  constructor
  · intro h
    unfold run? at h
    split at h
    · cases h
    · next hne =>
      obtain ⟨rfl, rfl⟩ := Prod.mk.inj (Option.some.inj h)
      refine ⟨hsplit.symm, hne, fun c hc ↦ List.mem_takeWhile_imp hc, fun c hc ↦ ?_⟩
      have hhead := List.head?_dropWhile_not p text
      rw [Option.mem_def.mp hc] at hhead
      exact hhead
  · rintro ⟨rfl, hne, hrun, hrest⟩
    have hdrop : rest.dropWhile p = rest ∧ rest.takeWhile p = [] := by
      cases rest with
      | nil => exact ⟨rfl, rfl⟩
      | cons c rest =>
        have hc : ¬ p c = true := by simp [hrest c rfl]
        exact ⟨List.dropWhile_cons_of_neg hc, List.takeWhile_cons_of_neg hc⟩
    rw [run?, List.takeWhile_append_of_pos hrun, List.dropWhile_append_of_pos hrun, hdrop.1, hdrop.2, List.append_nil]
    split
    · contradiction
    · rfl

namespace Java

def modifier (word : String) : Option Line → Line
  | some gap => word.toList ++ gap
  | none => []

theorem exists_modifier (word : String) (text : Line) :
    ∃ gap : Option Line, (∀ g ∈ gap, IsGap g) ∧ text = modifier word gap ++ optionalKeyword word text := by
  cases h : keyword? word text with
  | none => exact ⟨none, by simp, by rw [optionalKeyword, h]; rfl⟩
  | some rest =>
    obtain ⟨gap, hgap, htext⟩ := exists_gap_of_keyword? h
    refine ⟨some gap, by simpa using hgap, ?_⟩
    rw [optionalKeyword_of_keyword? h, modifier, List.append_assoc, ← htext]

theorem optionalKeyword_modifier {gap : Option Line} (hgap : ∀ g ∈ gap, IsGap g) (hcode : BeginsCode rest)
    (hnot : after? word.toList rest = none) : optionalKeyword word (modifier word gap ++ rest) = rest := by
  cases gap with
  | none => exact optionalKeyword_of_after? hnot
  | some gap =>
    have hkeyword := keyword?_append word (hgap gap rfl) hcode
    rw [modifier, List.append_assoc, optionalKeyword_of_keyword? hkeyword]

/-- A line that declares a class, cut behind the name. -/
structure ClassLine where
  indent : Line
  afterPublic : Option Line
  afterFinal : Option Line
  afterClass : Line
  name : Line
  rest : Line
  indent_blank : isBlankLine indent = true
  public_gap : ∀ gap ∈ afterPublic, IsGap gap
  final_gap : ∀ gap ∈ afterFinal, IsGap gap
  class_gap : IsGap afterClass
  name_ne_nil : name ≠ []
  name_word : ∀ c ∈ name, isWord c = true
  rest_other : ∀ c ∈ rest.head?, isWord c = false

namespace ClassLine

def head (l : ClassLine) : Line :=
  l.indent ++ (modifier "public" l.afterPublic ++ (modifier "final" l.afterFinal ++
    ("class".toList ++ (l.afterClass ++ l.name))))

def line (l : ClassLine) : Line := l.head ++ l.rest

def behindPublic (l : ClassLine) : Line :=
  modifier "final" l.afterFinal ++ ("class".toList ++ (l.afterClass ++ (l.name ++ l.rest)))

theorem line_eq (l : ClassLine) : l.line = l.indent ++ (modifier "public" l.afterPublic ++ l.behindPublic) := by
  simp only [line, head, behindPublic, List.append_assoc]

theorem getLast?_head_ne (l : ClassLine) {c : Char} (hc : isWord c = false) : l.head.getLast? ≠ some c := by
  obtain ⟨front, last, hname⟩ := (List.eq_nil_or_concat l.name).resolve_left l.name_ne_nil
  have hword : isWord last = true := l.name_word last (by simp [hname])
  have hlast : l.head.getLast? = some last := by
    simp only [head, hname, List.concat_eq_append, ← List.append_assoc, List.getLast?_concat]
  rw [hlast]
  rintro heq
  rw [Option.some.inj heq, hc] at hword
  cases hword

theorem beginsCode_name (l : ClassLine) : BeginsCode (l.name ++ l.rest) :=
  beginsCode_append l.name_ne_nil (fun c hc ↦ isBlank_eq_false_of_isWord (l.name_word c hc)) l.rest

theorem beginsCode_behindPublic (l : ClassLine) : BeginsCode l.behindPublic := by
  unfold behindPublic
  cases l.afterFinal <;> simp [BeginsCode, modifier] <;> decide

theorem beginsCode_behindIndent (l : ClassLine) : BeginsCode (modifier "public" l.afterPublic ++ l.behindPublic) := by
  cases l.afterPublic with
  | none => exact l.beginsCode_behindPublic
  | some gap => simp [BeginsCode, modifier]; decide

theorem after?_public (l : ClassLine) : after? "public".toList l.behindPublic = none := by
  unfold behindPublic
  cases l.afterFinal <;> rfl

theorem className?_line (l : ClassLine) : className? l.line = some l.name := by
  have hclass : BeginsCode ("class".toList ++ (l.afterClass ++ (l.name ++ l.rest))) := by simp [BeginsCode]; decide
  have hkeyword := keyword?_append "class" l.class_gap l.beginsCode_name
  have hname : run? isWord (l.name ++ l.rest) = some (l.name, l.rest) :=
    run?_eq_some_iff.mpr ⟨rfl, l.name_ne_nil, l.name_word, l.rest_other⟩
  rw [className?, line_eq, trimStart_append l.indent_blank, trimStart_of_beginsCode l.beginsCode_behindIndent,
    optionalKeyword_modifier l.public_gap l.beginsCode_behindPublic l.after?_public, behindPublic,
    optionalKeyword_modifier l.final_gap hclass rfl, hkeyword, Option.bind_some, hname, Option.map_some]

end ClassLine

/-- The name in the declaration of a class is the one behind the keyword `class`. -/
theorem className?_eq_some_iff {name : Line} :
    className? text = some name ↔ ∃ l : ClassLine, l.line = text ∧ l.name = name := by
  constructor
  · intro h
    obtain ⟨afterPublic, hpublic, htext⟩ := exists_modifier "public" (trimStart text)
    obtain ⟨afterFinal, hfinal, hbehind⟩ := exists_modifier "final" (optionalKeyword "public" (trimStart text))
    obtain ⟨⟨found, rest⟩, hrun, rfl⟩ := Option.map_eq_some_iff.mp h
    obtain ⟨named, hclass, hrun⟩ := Option.bind_eq_some_iff.mp hrun
    obtain ⟨afterClass, hgap, hnamed⟩ := exists_gap_of_keyword? hclass
    obtain ⟨rfl, hne, hword, hother⟩ := run?_eq_some_iff.mp hrun
    refine ⟨⟨indentation text, afterPublic, afterFinal, afterClass, found, rest, List.all_takeWhile, hpublic, hfinal,
      hgap, hne, hword, hother⟩, ?_, rfl⟩
    rw [ClassLine.line_eq, ClassLine.behindPublic, ← hnamed, ← hbehind, ← htext, indentation_append_trimStart]
  · rintro ⟨l, rfl, rfl⟩
    exact l.className?_line

theorem newline_not_mem_className? {name : Line} (h : className? text = some name) : '\n' ∉ name := by
  obtain ⟨l, -, rfl⟩ := className?_eq_some_iff.mp h
  intro hmem
  exact absurd (l.name_word _ hmem) (by decide)

theorem className?_append_return (text : Line) : className? (text ++ ['\r']) = className? text := by
  have hreturn : isWord '\r' = false := by decide
  refine Option.ext fun name ↦ ?_
  rw [className?_eq_some_iff, className?_eq_some_iff]
  constructor
  · rintro ⟨l, hline, rfl⟩
    obtain ⟨rest, rfl, hrest⟩ := exists_of_append_eq_concat (l.getLast?_head_ne hreturn) hline
    refine ⟨{ l with rest, rest_other := fun c hc ↦ l.rest_other c ?_ }, rfl, rfl⟩
    rw [hrest]
    exact List.mem_head?_append_of_mem_head? hc
  · rintro ⟨l, rfl, rfl⟩
    refine ⟨{ l with rest := l.rest ++ ['\r'], rest_other := fun c hc ↦ ?_ }, (List.append_assoc _ _ _).symm, rfl⟩
    rw [List.head?_append, Option.mem_def, Option.or_eq_some_iff] at hc
    rcases hc with hc | ⟨-, hc⟩
    · exact l.rest_other c hc
    · exact Option.some.inj hc ▸ hreturn

/-- No declaration of a class begins with the text, whatever stands behind it. -/
def OpensOtherwise (piece : Line) : Prop :=
  piece.head?.map isBlank = some false ∧
    ∀ word ∈ ["public", "final", "class"], ¬ word.toList <+: piece ∧ ¬ piece <+: word.toList

instance : DecidablePred OpensOtherwise := fun _ ↦ inferInstanceAs (Decidable (_ ∧ _))

theorem after?_of_opensOtherwise (h : OpensOtherwise piece) (rest : Line) :
    ∀ word ∈ ["public", "final", "class"], after? word.toList (piece ++ rest) = none := by
  intro word hword
  obtain ⟨hnot, hnot'⟩ := h.2 word hword
  rw [Option.eq_none_iff_forall_ne_some]
  intro tail htail
  have hpiece : piece <+: word.toList ++ tail := ⟨rest, after?_eq_some_iff.mp htail⟩
  rcases List.prefix_or_prefix_of_prefix (List.prefix_append _ tail) hpiece with h | h
  · exact hnot h
  · exact hnot' h

theorem className?_behind (hindent : isBlankLine indent = true) (h : OpensOtherwise piece) (rest : Line) :
    className? (indent ++ (piece ++ rest)) = none := by
  obtain ⟨c, hc, hblank⟩ := Option.map_eq_some_iff.mp h.1
  have hcode : trimStart (piece ++ rest) = piece ++ rest := by
    refine trimStart_of_beginsCode fun d hd ↦ ?_
    rw [List.head?_append, hc, Option.some_or, Option.mem_some] at hd
    exact hd ▸ hblank
  have hnone := after?_of_opensOtherwise h rest
  simp only [List.forall_mem_cons] at hnone
  rw [className?, trimStart_append hindent, hcode, optionalKeyword_of_after? hnone.1,
    optionalKeyword_of_after? hnone.2.1, keyword?_of_after? hnone.2.2.1]
  rfl

theorem className?_of_entryHead? (h : entryHead? text = some rest) : className? text = none := by
  obtain ⟨behindPublic, hpublic, hstatic⟩ := Option.bind_eq_some_iff.mp h
  obtain ⟨gap, -, rfl⟩ := exists_gap_of_keyword? hstatic
  rw [className?, optionalKeyword_of_keyword? hpublic]
  rfl

/-- An entry line declares no class, and no other line than an entry line is changed. -/
theorem className?_instrumentEntry (text : Line) : className? (instrumentEntry text) = className? text := by
  unfold instrumentEntry
  split
  · rfl
  · next rest hrest =>
    split
    · split
      · rfl
      · have hstatic : declaration.fill initializer [] =
            "static ".toList ++ (declaration.fill initializer []).drop 7 := rfl
        rw [className?_of_entryHead? hrest, hstatic]
        simp only [List.append_assoc]
        exact className?_behind List.all_takeWhile (by decide) _
    · rfl

theorem className?_of_outputCall? {call : OutputCall} (h : grammar.outputCall? text = some call) :
    className? text = none := by
  have hopenings : ∀ opening ∈ grammar.outputCalls, OpensOtherwise opening := by decide
  obtain ⟨rest, hknown, htext, -⟩ := Dialect.exists_opening_eq (d := .java) h
  rw [htext]
  exact className?_behind List.all_takeWhile (hopenings _ hknown) rest

theorem className?_renderAppend (hindent : isBlankLine indent = true) (args : Line) :
    className? (grammar.renderAppend indent args) = none :=
  className?_behind hindent (show OpensOtherwise "answers.add(".toList by decide) _

theorem className?_renderReturn? (hindent : isBlankLine indent = true) (h : grammar.renderReturn? indent = some text) :
    className? text = none := by
  obtain rfl := Option.some.inj h
  exact className?_behind hindent (show OpensOtherwise "return answers;".toList by decide) []

end Java
end AnswerKey
