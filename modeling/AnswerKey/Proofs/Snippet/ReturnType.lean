import AnswerKey.Proofs.Dialect.Headings
import AnswerKey.Proofs.Snippet.Functions
import AnswerKey.Snippet.ReturnType

namespace AnswerKey

open Text

section

variable {marker : Marker} {front back lines : List Line} {line : Line} {heading : Heading}

theorem declaredType?_eq (hfront : ∀ line ∈ front, marker.accepts line = false)
    (h : marker.read? line = some heading) (i : Nat) :
    declaredType? marker i (front ++ line :: back) = some (heading.type.getD [], i + front.length) := by
  induction front generalizing i with
  | nil => simp [declaredType?, h]
  | cons other front ih =>
    obtain ⟨hother, hfront⟩ := List.forall_mem_cons.mp hfront
    have hnone : marker.read? other = none := by simpa [Marker.accepts] using hother
    rw [List.cons_append, declaredType?, hnone, ih hfront, List.length_cons, Nat.add_assoc, Nat.add_comm 1]

theorem declaredType?_eq_none (h : ∀ line ∈ lines, marker.accepts line = false) (i : Nat) :
    declaredType? marker i lines = none := by
  induction lines generalizing i with
  | nil => rfl
  | cons line lines ih =>
    obtain ⟨hline, h⟩ := List.forall_mem_cons.mp h
    have hnone : marker.read? line = none := by simpa [Marker.accepts] using hline
    rw [declaredType?, hnone]
    exact ih h (i + 1)

/-- What a token is reported as: its type, or as unknown at a line. -/
def ReturnType.ofDeclared (id : String) (token : Line) (line : Nat) : Except Defect ReturnType :=
  match ReturnType.ofToken? token with
  | some type => .ok type
  | none => .error (.unknownReturnType id token line)

theorem Snippet.returnType_eq {s : Snippet} (hjava : s.dialect = .java) (hlines : s.lines = front ++ line :: back)
    (hfront : ∀ line ∈ front, Java.functionStart.accepts line = false)
    (h : Java.functionStart.read? line = some heading) :
    s.returnType = ReturnType.ofDeclared s.id (heading.type.getD []) front.length := by
  have hgrammar : s.grammar.functionStart = Java.functionStart := by rw [grammar, hjava]; rfl
  rw [returnType, if_neg (not_not.mpr hjava), hgrammar, hlines, declaredType?_eq hfront h, Nat.zero_add]
  rfl

end

/-- A heading is read alike in front of a carriage return. -/
theorem Java.functionStart_read?_of_return {line first : Line} (h : line = first ∨ line = first ++ ['\r'])
    {heading : Heading} (hline : functionStart.read? line = some heading) :
    functionStart.read? first = some heading := by
  rcases h with rfl | rfl
  · exact hline
  · have hmem : '(' ∈ first := by simpa using paren_mem_of_functionStart hline
    rwa [functionStart_read?_append hmem] at hline

theorem exists_ofDeclared_of_functionText {s : Snippet} {shown : List Char} (hjava : s.dialect = .java)
    (hlines : ∀ line ∈ s.lines, '\n' ∉ line) (h : s.functionText = .ok shown) :
    ∃ token n, s.returnType = ReturnType.ofDeclared s.id token n ∧
      ∀ id, (Snippet.ofText id .java shown).returnType = ReturnType.ofDeclared id token 0 := by
  obtain ⟨lines, hfunction, rfl⟩ := functionLines_of_functionText h
  have hgrammar : s.grammar.functionStart = Java.functionStart := by rw [Snippet.grammar, hjava]; rfl
  obtain ⟨front, line, more, entry, back, hparts, rfl⟩ := Snippet.functionLines_eq_ok_iff.mp hfunction
  have hother := hparts.front_other
  have hstarts := hparts.starts
  rw [hgrammar] at hother hstarts
  obtain ⟨heading, hheading⟩ := Option.isSome_iff_exists.mp hstarts
  -- The line is not blank, so it stays the first one, and only blanks are taken from it.
  have hcode : isBlankLine line = false := Dialect.java.isBlankLine_of_functionStart hstarts
  obtain ⟨kept, hkept, -⟩ := exists_dropBlankEnd_cons hcode more
  obtain ⟨f, hdedent, hf⟩ := exists_dedent_eq (line :: kept)
  obtain ⟨hblank, hline⟩ := (hf line List.mem_cons_self).2 hcode
  rw [hkept, hdedent, List.map_cons] at hfunction ⊢
  have hflush := Java.functionStart_ignoresIndent (f line) (isBlankLine_sharedIndentation (line :: kept))
  rw [← hline, hheading] at hflush
  obtain ⟨shownHeading, hshown, heq⟩ := Option.map_eq_some_iff.mp hflush.symm
  have htype : shownHeading.type = heading.type := (Prod.ext_iff.mp heq).2
  -- Split into lines again, the text gives this line back, except for a carriage return.
  have hne : f line ≠ [] := by
    intro hnil
    rw [hnil] at hblank
    cases hblank
  have hnewline : '\n' ∉ f line := newline_not_mem_functionLines hlines hfunction _ List.mem_cons_self
  obtain ⟨first, rest, hfirst, hreturn⟩ := exists_linesOf_joinLines hnewline hne (kept.map f)
  refine ⟨heading.type.getD [], front.length, Snippet.returnType_eq hjava hparts.lines_eq hother hheading, ?_⟩
  intro id
  have hsplit : (Snippet.ofText id .java (joinLines (f line :: kept.map f))).lines = [] ++ first :: rest := hfirst
  rw [← htype]
  exact Snippet.returnType_eq rfl hsplit (List.forall_mem_nil _) (Java.functionStart_read?_of_return hreturn hshown)

/-- A Java snippet of lines without line feeds and its functions as they are shown have one declared type, or none of
them has one and both report the same token. -/
theorem returnType_functionText {s : Snippet} {shown : List Char} (hjava : s.dialect = .java)
    (hlines : ∀ line ∈ s.lines, '\n' ∉ line) (h : s.functionText = .ok shown) (id : String) :
    (∃ type, s.returnType = .ok type ∧ (Snippet.ofText id .java shown).returnType = .ok type) ∨
      ∃ token line, s.returnType = .error (.unknownReturnType s.id token line) ∧
        (Snippet.ofText id .java shown).returnType = .error (.unknownReturnType id token 0) := by
  obtain ⟨token, n, hsnippet, hshown⟩ := exists_ofDeclared_of_functionText hjava hlines h
  rw [hsnippet, hshown id]
  unfold ReturnType.ofDeclared
  cases ReturnType.ofToken? token with
  | some type => exact .inl ⟨type, rfl, rfl⟩
  | none => exact .inr ⟨token, n, rfl, rfl⟩

def tallyText : List Char :=
  ("class Tally \x7b\n\tstatic Map<String, Integer> tally(String[] words) \x7b\r\r\n\t\treturn null;\r\n\t\x7d\n" ++
    "\tpublic static void main(String[] args) \x7b\n\t\tSystem.out.println(1);\n\t\x7d\n\x7d\n").toList

theorem returnType_functionText_tally : ∃ shown, (Snippet.ofText "tally" .java tallyText).functionText = .ok shown ∧
    '\r' ∈ shown ∧
    ((∃ type, (Snippet.ofText "tally" .java tallyText).returnType = .ok type ∧
        (Snippet.ofText "shown" .java shown).returnType = .ok type) ∨
      ∃ token line, (Snippet.ofText "tally" .java tallyText).returnType =
        .error (.unknownReturnType "tally" token line) ∧
        (Snippet.ofText "shown" .java shown).returnType = .error (.unknownReturnType "shown" token 0)) := by
  have hshown : (Snippet.ofText "tally" .java tallyText).functionText =
      .ok "static Map<String, Integer> tally(String[] words) \x7b\r\n\treturn null;\n\x7d".toList := by
    decide +kernel
  exact ⟨_, hshown, by decide,
    returnType_functionText rfl (Snippet.newline_not_mem_ofText _ _ _) hshown "shown"⟩

def foldedHeading : Snippet where
  id := "folded"
  dialect := .java
  lines := ["static\nint f() \x7b".toList, "\x7d".toList, "public static void main(String[] a) \x7b".toList,
    "\x7d".toList]

theorem foldedHeading_unread : ∃ shown, foldedHeading.functionText = .ok shown ∧ foldedHeading.returnType = .ok .int ∧
    (Snippet.ofText "shown" .java shown).returnType = .error (.missingBoundary "shown" .functionStart) := by
  refine ⟨"static\nint f() \x7b\n\x7d".toList, ?_, ?_, ?_⟩ <;> decide +kernel

end AnswerKey
