import AnswerKey.Proofs.Dialect.Roles
import AnswerKey.Proofs.Script.Newlines
import AnswerKey.Proofs.Snippet.Functions

namespace AnswerKey

open Text

theorem lastIndex?_append {marker : Marker} {back : List Line} (h : ∀ line ∈ back, marker.accepts line = false)
    (front : List Line) : lastIndex? marker (front ++ back) = lastIndex? marker front := by
  induction front with
  | nil => rw [List.nil_append, lastIndex?_eq_none_iff.mpr h, lastIndex?]
  | cons line front ih => rw [List.cons_append, lastIndex?, lastIndex?, ih]

namespace Machine

variable {d : Dialect} {m m' u : Machine} {commentary : Bool} {i : Nat} {line : Line} {lines : List Line} {step : Step}
  {passages : List Passage}

theorem Reads.entryPoint_texts (hg : m.grammar = d.grammar) (hm : m.Indents (isBlankLine · = true))
    (hi : m.entryLine < i)
    (hline : d.grammar.entryPoint.accepts line = false) (h : Reads m commentary i line (u, .ok step)) :
    ∀ text ∈ step.emitted.map (·.text), d.grammar.entryPoint.accepts text = false := by
  have hindent : isBlankLine (indentation line) = true := List.all_takeWhile
  have hcopied : ∀ text ∈ (Step.copied line i).emitted.map (·.text), d.grammar.entryPoint.accepts text = false :=
    List.forall_mem_singleton.mpr hline
  cases h with
  | passed | skipped | kept => exact hcopied
  -- The entry line is behind, so no line declares the collector.
  | entered hpos hentry => exact absurd hentry (Nat.ne_of_gt hi)
  | @closed e n b hpos =>
    have hbody : isBlankLine (b.getD (indentation line ++ defaultBodyIndent)) = true :=
      hm.getD hpos ((isBlankLine_append hindent _).trans (by decide))
    rw [hg]
    cases hreturn : d.grammar.renderReturn? (b.getD (indentation line ++ defaultBodyIndent)) with
    | none => exact hcopied
    | some text =>
      exact List.forall_mem_cons.mpr ⟨d.entryPoint_renderReturn? hbody hreturn, List.forall_mem_singleton.mpr hline⟩
  | appended =>
    rw [hg]
    exact List.forall_mem_singleton.mpr (d.entryPoint_renderAppend hindent _)

theorem entryPoint_texts_of_run (hg : m.grammar = d.grammar) (hm : m.Indents (isBlankLine · = true))
    (hi : m.entryLine < i)
    (hlines : ∀ line ∈ lines, d.grammar.entryPoint.accepts line = false) (h : m.run i lines = (passages, .ok m')) :
    ∀ text ∈ passages.flatMap Passage.texts, d.grammar.entryPoint.accepts text = false := by
  induction lines generalizing m i passages with
  | nil =>
    cases h
    exact List.forall_mem_nil _
  | cons line lines ih =>
    obtain ⟨commentary, t, u, step, rest, -, hreads, hrest, rfl⟩ := run_cons_ok h
    obtain ⟨hline, hlines⟩ := List.forall_mem_cons.mp hlines
    obtain ⟨hgrammar, hentry, -⟩ := hreads.frame
    have hu : u.Indents (isBlankLine · = true) :=
      Indents.of_reads (m := { m with tracker := t }) hm List.all_takeWhile hreads
    have hnext : u.entryLine < i + 1 := hentry ▸ Nat.lt_succ_of_lt hi
    rw [List.flatMap_cons, List.forall_mem_append]
    exact ⟨Reads.entryPoint_texts (m := { m with tracker := t }) hg hm hi hline hreads,
      ih (hgrammar.trans hg) hu hnext hlines hrest⟩

theorem texts_of_run {front back : List Line} (hg : m.grammar = d.grammar) (hpos : m.position = .outside)
    (hentry : m.entryLine = front.length) (hback : ∀ line ∈ back, d.grammar.entryPoint.accepts line = false)
    (h : m.run 0 (front ++ line :: back) = (passages, .ok m')) :
    ∃ rest, passages.flatMap Passage.texts = front ++ (d.grammar.collector.instrumentEntry line ++ rest) ∧
      ∀ text ∈ rest, d.grammar.entryPoint.accepts text = false := by
  obtain ⟨-, -, htracker⟩ := frame_of_run h
  rw [List.append_cons, Code.Tracker.after?_append, Option.bind_eq_some_iff] at htracker
  obtain ⟨t, hfront, -⟩ := htracker
  rcases hrest : (m.afterEntry line t).run (front.length + 1) back with ⟨rest, outcome⟩
  rw [run_entry hpos hentry hfront, hrest] at h
  obtain ⟨rfl, rfl⟩ := Prod.mk.inj h
  have hindents : (m.afterEntry line t).Indents (isBlankLine · = true) := by
    intro e n indent hinside
    simp [afterEntry] at hinside
  have hbehind : (m.afterEntry line t).entryLine < front.length + 1 := by
    rw [afterEntry, hentry]
    exact Nat.lt_succ_self _
  refine ⟨rest.flatMap Passage.texts, ?_,
    entryPoint_texts_of_run (m := m.afterEntry line t) hg hindents hbehind hback hrest⟩
  rw [List.flatMap_append, Passage.texts_copies, List.flatMap_cons, Passage.texts, Step.texts_entered, hg]

end Machine

namespace Snippet

variable {s : Snippet} {script : Script} {lines : List Line} {id : String}

/-- A script is its snippet up to the entry line, the declaration of the collector, and lines that are no entry points;
only a dialect that keeps the entry line has it among them. -/
theorem exists_lines_transform (hlines : ∀ line ∈ s.lines, '\n' ∉ line) (h : s.transform = .ok script) :
    ∃ front entry declared back, s.entryLine = .ok front.length ∧ front <+: s.lines ∧
      script.lines = front ++ (declared :: ((if s.dialect = .python then [entry] else []) ++ back)) ∧
      s.grammar.entryPoint.accepts entry = true ∧ s.grammar.entryPoint.accepts declared = false ∧
      ∀ line ∈ back, s.grammar.entryPoint.accepts line = false := by
  obtain ⟨block, passages, m, hblock, hrun, -, rfl, -⟩ := transform_ok h
  have hentry := entryLine_of_entryBlock hblock
  obtain ⟨front, entry, back, hsplit, hstart, haccepts, hback⟩ := entryLine_eq_ok_iff.mp hentry
  have hentryLine : '\n' ∉ entry := hlines entry (hsplit ▸ List.mem_append_right front List.mem_cons_self)
  obtain ⟨declared, hinstrumented, hdeclared, -⟩ := s.dialect.exists_declared_instrumentEntry haccepts hentryLine
  rw [hsplit] at hrun
  obtain ⟨texts, htexts, hnone⟩ := Machine.texts_of_run (d := s.dialect) rfl rfl hstart.symm hback hrun
  refine ⟨front, entry, declared, texts ++ [[]], hstart ▸ hentry, ⟨entry :: back, hsplit.symm⟩, ?_, haccepts,
    hdeclared, ?_⟩
  · rw [lines_scriptOf, htexts, hinstrumented]
    simp only [List.append_assoc, List.cons_append]
  · have hempty (d : Dialect) : d.grammar.entryPoint.accepts [] = false := by cases d <;> rfl
    rw [List.forall_mem_append]
    exact ⟨hnone, List.forall_mem_singleton.mpr (hempty s.dialect)⟩

/-- In a script the entry point of its snippet is found again only if the line was kept, below the declaration. -/
theorem lastIndex?_transform (hlines : ∀ line ∈ s.lines, '\n' ∉ line) (h : s.transform = .ok script) :
    ∃ start, s.entryLine = .ok start ∧ lastIndex? s.grammar.entryPoint script.lines =
      if s.dialect = .python then some (start + 1) else lastIndex? s.grammar.entryPoint (s.lines.take start) := by
  obtain ⟨front, entry, declared, back, hentry, hfront, hscript, haccepts, hdeclared, hback⟩ :=
    exists_lines_transform hlines h
  refine ⟨front.length, hentry, ?_⟩
  rw [hscript]
  split
  · have hkept : front ++ declared :: ([entry] ++ back) = (front ++ [declared]) ++ entry :: back := by simp
    rw [hkept]
    exact lastIndex?_eq_some_iff.mpr ⟨front ++ [declared], entry, back, rfl, by simp, haccepts, hback⟩
  · have hnone : ∀ line ∈ declared :: ([] ++ back), s.grammar.entryPoint.accepts line = false :=
      List.forall_mem_cons.mpr ⟨hdeclared, hback⟩
    rw [lastIndex?_append hnone, ← List.prefix_iff_eq_take.mp hfront]

/-- A script whose entry line was rewritten is not instrumented again, if the snippet had no other entry line. -/
theorem transform_transformed (hdialect : s.dialect ≠ .python) (hlines : ∀ line ∈ s.lines, '\n' ∉ line)
    (h : s.transform = .ok script)
    (hone : ∀ start, s.entryLine = .ok start → ∀ line ∈ s.lines.take start, s.grammar.entryPoint.accepts line = false) :
    (⟨id, s.dialect, script.lines⟩ : Snippet).transform = .error (.defect (.missingBoundary id .entryPoint)) := by
  obtain ⟨start, hentry, hlast⟩ := lastIndex?_transform hlines h
  rw [if_neg hdialect, lastIndex?_eq_none_iff.mpr (hone start hentry)] at hlast
  have hnone : (⟨id, s.dialect, script.lines⟩ : Snippet).entryLine =
      .error (.defect (.missingBoundary id .entryPoint)) := by
    rw [entryLine]
    simp only [grammar] at hlast ⊢
    rw [hlast]
  rw [transform, transformation, entryBlock, hnone]
  rfl

theorem exists_start_apart (h : s.functionLines = .ok lines) :
    ∃ front first more entry back, FunctionParts s front first more entry back ∧
      lines = dedent (dropBlankEnd (first :: more)) ∧ s.grammar.entryPoint.accepts first = false ∧
      ∃ shown ∈ lines.head?, s.grammar.entryPoint.accepts shown = false := by
  obtain ⟨front, first, more, entry, back, hparts, hlines⟩ := functionLines_eq_ok_iff.mp h
  obtain ⟨shown, others, hshown, hstarts⟩ := (presented_of_functionLines h).starts
  have hfirst := s.dialect.entryPoint_of_functionStart hparts.starts
  refine ⟨front, first, more, entry, back, hparts, hlines, hfirst, shown, ?_,
    s.dialect.entryPoint_of_functionStart hstarts⟩
  rw [hshown]
  rfl

end Snippet

/-- No line is both an entry point and a function: what is read on an entry line is the heading of `main`. So the
functions of a snippet begin with no entry point, however many there are, and where an entry line is rewritten there
is none. -/
theorem entryPoint_apart :
    (∀ (d : Dialect) (line : Line),
      (d.grammar.functionStart.accepts line && d.grammar.entryPoint.accepts line) = false) ∧
    (∀ line heading, Java.entryPoint.read? line = some heading →
      Java.methodHeading? line = some { heading with name := some "main".toList, type := some "void".toList }) ∧
    (∀ line heading, JavaScript.entryPoint.read? line = some heading →
      JavaScript.functionHeading? line = some { heading with name := some "main".toList }) ∧
    (∀ (s : Snippet) (lines : List Line), s.functionLines = .ok lines →
      ∃ front first more entry back, FunctionParts s front first more entry back ∧
        lines = dedent (dropBlankEnd (first :: more)) ∧ s.grammar.entryPoint.accepts first = false ∧
        ∃ shown ∈ lines.head?, s.grammar.entryPoint.accepts shown = false) ∧
    ∀ (d : Dialect) (line : Line), d.grammar.entryPoint.accepts line = true → '\n' ∉ line →
      ∃ declared, d.grammar.collector.instrumentEntry line = declared :: (if d = .python then [line] else []) ∧
        d.grammar.entryPoint.accepts declared = false ∧ d.grammar.functionStart.accepts declared = false := by
  refine ⟨?_, ?_, ?_, ?_, ?_⟩
  · intro d line
    cases henters : d.grammar.entryPoint.accepts line with
    | false => exact Bool.and_false _
    | true => rw [d.functionStart_of_entryPoint henters, Bool.false_and]
  · intro line heading hread
    exact Java.methodHeading?_of_entryPoint hread
  · intro line heading hread
    exact JavaScript.functionHeading?_of_entryPoint hread
  · intro s lines h
    exact Snippet.exists_start_apart h
  · intro d line haccepts hline
    exact d.exists_declared_instrumentEntry haccepts hline

def ladder : Snippet where
  id := "ladder"
  dialect := .java
  lines := ["class Ladder \x7b".toList, "  public static void main(String[] args) \x7b".toList, "  \x7d".toList,
    "  static int rung(int i) \x7b".toList, "    return i;".toList, "  \x7d".toList,
    "  public\tstatic  void main (int i) \x7b".toList, "  \x7d".toList, [],
    "  public static void main() \x7b".toList, "  \x7d".toList, "\x7d".toList]

def ladderEntry : Line := "  public\tstatic  void main (int i) \x7b".toList

theorem entryPoint_apart_ladder :
    Java.functionStart.accepts ladderEntry = false ∧
    (Java.methodHeading? ladderEntry).map (fun h ↦ (h.name, h.type)) = some (some "main".toList, some "void".toList) ∧
    (JavaScript.functionHeading? "async  function main () \x7b".toList).map (·.name) = some (some "main".toList) ∧
    ladder.functionLines = .ok ["static int rung(int i) \x7b".toList, "  return i;".toList, "\x7d".toList,
      "public\tstatic  void main (int i) \x7b".toList, "\x7d".toList] ∧
    (∃ front first more entry back, FunctionParts ladder front first more entry back ∧
      ladder.grammar.entryPoint.accepts first = false) ∧
    ∃ declared, Java.grammar.collector.instrumentEntry ladderEntry = [declared] ∧
      Java.entryPoint.accepts declared = false := by
  obtain ⟨hapart, hjava, hjavaScript, hstart, hdeclared⟩ := entryPoint_apart
  have henters : Java.entryPoint.accepts ladderEntry = true := by decide
  have hread : Java.entryPoint.read? ladderEntry =
      some ⟨"  public\tstatic  void main (".toList, none, none⟩ := by decide
  have hreadScript : JavaScript.entryPoint.read? "async  function main () \x7b".toList =
      some ⟨"async  function main (".toList, none, none⟩ := by decide
  have hshown : ladder.functionLines = .ok ["static int rung(int i) \x7b".toList, "  return i;".toList, "\x7d".toList,
      "public\tstatic  void main (int i) \x7b".toList, "\x7d".toList] := by decide +kernel
  refine ⟨?_, ?_, ?_, hshown, ?_, ?_⟩
  · have hboth := hapart .java ladderEntry
    rw [Bool.and_eq_false_iff] at hboth
    exact hboth.resolve_right (by rw [Bool.not_eq_false]; exact henters)
  · rw [hjava _ _ hread]
    rfl
  · rw [hjavaScript _ _ hreadScript]
    rfl
  · obtain ⟨front, first, more, entry, back, hparts, -, hfirst, -⟩ := hstart ladder _ hshown
    exact ⟨front, first, more, entry, back, hparts, hfirst⟩
  · obtain ⟨declared, hlines, hnone, -⟩ := hdeclared .java ladderEntry henters (by decide)
    exact ⟨declared, hlines, hnone⟩

end AnswerKey
