import AnswerKey.Execution.Staging
import AnswerKey.Proofs.Json.Printer
import AnswerKey.Proofs.Script.Collector

namespace AnswerKey

open Text

/-- The collector with a limit that is put in place of the initializer. -/
def Dialect.cappedCollector (maxValues : Nat) : Dialect → Line
  | .java => Script.javaCollector maxValues
  | .javaScript => Script.javaScriptCollector maxValues
  | .python => "_SnipcheckAnswers()".toList

def Dialect.linesInFront (bindings : Bindings) : Dialect → Nat
  | .java => 0
  | .javaScript => bindings.length
  | .python => 1 + bindings.length + 5

def Script.sourceFile? (script : Script) : Option String :=
  match script.dialect with
  | .java => script.launchedClass?.map fun name ↦ .ofList name ++ ".java"
  | .javaScript => some "script.js"
  | .python => some "script.py"

/-- A staged source with the lines of a script at their places behind `offset` others. -/
structure LineMap (s : Snippet) (script : Script) (collector : Line) (offset : Nat) (staged : List Char) : Prop where
  verbatim : ∀ k ≠ script.collectorLine, ∀ line, script.lines[k]? = some line →
    (splitOn '\n' staged)[offset + k]? = some line
  declared : ∃ indent rest, isBlankLine indent = true ∧
    script.lines[script.collectorLine]? =
      some (indent ++ (script.dialect.declaration.fill script.dialect.grammar.collector.initializer [] ++ rest)) ∧
    (splitOn '\n' staged)[offset + script.collectorLine]? =
      some (indent ++ (script.dialect.declaration.fill collector [] ++ rest))
  diagnosed : ∀ k j, script.snippetLine? k = some j → (splitOn '\n' staged)[offset + k]? = s.lines[j]? ∨
    ∃ e ∈ s.transformation.edits, (e.kind = .entryPoint ∨ e.kind = .outputCall) ∧ e.line = j

theorem newline_not_mem_decimal (n : Nat) : '\n' ∉ decimal n := newline_not_mem_toDigits n

theorem newline_not_mem_marker : '\n' ∉ plainQuoted Launcher.valueLimitMarker := by
  simp [plainQuoted, Launcher.valueLimitMarker]

theorem Dialect.newline_not_mem_cappedCollector (maxValues : Nat) (d : Dialect) :
    '\n' ∉ d.cappedCollector maxValues := by
  have hdecimal := newline_not_mem_decimal maxValues
  -- the long texts are opened by `delta`, since unfolding them would read them character by character
  cases d with
  | java =>
    delta cappedCollector Script.javaCollector
    simp only [List.mem_append, not_or]
    exact ⟨⟨⟨⟨by decide +kernel, hdecimal⟩, by decide +kernel⟩, newline_not_mem_marker⟩, by decide +kernel⟩
  | javaScript =>
    delta cappedCollector Script.javaScriptCollector
    simp only [List.mem_append, not_or]
    exact ⟨⟨⟨⟨by decide +kernel, hdecimal⟩, by decide +kernel⟩, newline_not_mem_marker⟩, by decide +kernel⟩
  | python =>
    delta cappedCollector
    simp

theorem Launcher.classPlace_eq : "__CLASS__".toList = '_' :: "_CLASS__".toList := by decide

theorem Launcher.sentinelPlace_eq : "__SENTINEL__".toList = '_' :: "_SENTINEL__".toList := by decide

namespace Script

variable {bindings : Bindings} {maxValues : Nat}

theorem count_pythonBinding (binding : String × Json) (h : '\n' ∉ binding.1.toList) :
    (pythonBinding binding).count '\n' = 1 := by
  have hquoted := Json.newline_not_mem_quoted binding.2.compact
  delta pythonBinding
  simp only [List.count_append, List.count_eq_zero_of_not_mem h, List.count_eq_zero_of_not_mem hquoted]
  simp

theorem count_javaScriptBinding (binding : String × Json) (h : '\n' ∉ binding.1.toList) :
    (javaScriptBinding binding).count '\n' = 1 := by
  have hcompact := binding.2.newline_not_mem_compact
  delta javaScriptBinding
  simp only [List.count_append, List.count_eq_zero_of_not_mem h, List.count_eq_zero_of_not_mem hcompact]
  simp

theorem count_pythonCollectorClass (maxValues : Nat) : (pythonCollectorClass maxValues).count '\n' = 5 := by
  delta pythonCollectorClass
  simp only [List.count_append, List.count_eq_zero_of_not_mem (newline_not_mem_decimal maxValues),
    List.count_eq_zero_of_not_mem newline_not_mem_marker]
  decide +kernel

theorem count_pythonHead (h : ∀ binding ∈ bindings, '\n' ∉ binding.1.toList) :
    (pythonHead bindings maxValues).count '\n' = 1 + bindings.length + 5 := by
  have himport : "import json as _snipcheck_json\n".toList.count '\n' = 1 := by simp
  delta pythonHead
  rw [List.count_append, List.count_append, count_pythonCollectorClass, himport,
    count_newline_flatMap fun binding hmem ↦ count_pythonBinding binding (h binding hmem)]

theorem endsLine_pythonBinding (binding : String × Json) : EndsLine (pythonBinding binding) := by
  obtain ⟨name, value⟩ := binding
  exact endsLine_append_of_getLast? (by decide) _

theorem endsLine_javaScriptBinding (binding : String × Json) : EndsLine (javaScriptBinding binding) := by
  obtain ⟨name, value⟩ := binding
  exact endsLine_append_of_getLast? (by decide) _

theorem endsLine_pythonHead (bindings : Bindings) (maxValues : Nat) : EndsLine (pythonHead bindings maxValues) := by
  have himport : EndsLine "import json as _snipcheck_json\n".toList :=
    endsLine_append_of_getLast? (by decide +kernel) []
  have hclass : EndsLine (pythonCollectorClass maxValues) := endsLine_append_of_getLast? (by decide +kernel) _
  exact (himport.append (endsLine_flatMap fun binding _ ↦ endsLine_pythonBinding binding)).append hclass

theorem count_javaScriptBindings (h : ∀ binding ∈ bindings, '\n' ∉ binding.1.toList) :
    (bindings.flatMap javaScriptBinding).count '\n' = bindings.length :=
  count_newline_flatMap fun binding hmem ↦ count_javaScriptBinding binding (h binding hmem)

theorem endsLine_javaScriptBindings (bindings : Bindings) : EndsLine (bindings.flatMap javaScriptBinding) :=
  endsLine_flatMap fun binding _ ↦ endsLine_javaScriptBinding binding

end Script

namespace Snippet

variable {s : Snippet} {script : Script} {k j : Nat}

/-- A line of the script that stands for a line of the snippet equals it, or one of the two edits of such a line was
made. -/
theorem kept_of_transform (h : s.transform = .ok script) (hj : script.snippetLine? k = some j) :
    script.lines[k]? = s.lines[j]? ∨
      ∃ e ∈ s.transformation.edits, (e.kind = .entryPoint ∨ e.kind = .outputCall) ∧ e.line = j := by
  obtain ⟨block, passages, m, front, entry, body, ending, -, -, hrun, -, hpassages, hlayout, rfl, hedits⟩ :=
    layout_of_transform h
  rw [hedits]
  exact kept_scriptOf (hpassages ▸ hlayout.made) hrun (Option.join_eq_some_iff.mp hj)

theorem getElem?_origins_collectorLine {front : List Line} {entry : Passage} {body ending : List Passage}
    {position : Position} (hlayout : Layout s.grammar front entry body ending position) :
    ∃ first ∈ entry.step.emitted,
      (s.scriptOf (copies 0 front ++ entry :: (body ++ ending))).origins[front.length]? = some first.origin := by
  obtain ⟨first, others, hemitted⟩ : ∃ first others, entry.step.emitted = first :: others := by
    refine List.exists_cons_of_ne_nil fun hnil ↦ s.dialect.instrumentEntry_ne_nil entry.line ?_
    have htexts : entry.texts = s.grammar.collector.instrumentEntry entry.line := hlayout.entered.texts_eq
    rw [Passage.texts, hnil] at htexts
    exact htexts.symm
  have hcopies : ((copies 0 front).flatMap (·.step.emitted)).length = front.length := by
    simpa [Passage.texts, List.length_flatMap] using Passage.length_texts_copies 0 front
  refine ⟨first, hemitted ▸ List.mem_cons_self, ?_⟩
  rw [Script.origins, scriptOf, List.getElem?_map, List.flatMap_append, List.flatMap_cons, hemitted,
    List.append_assoc, List.getElem?_append_right (by rw [hcopies]), hcopies, Nat.sub_self]
  rfl

/-- The line that declares the collector stands for the entry line if for any. -/
theorem entry_of_collectorLine (h : s.transform = .ok script) (hj : script.snippetLine? script.collectorLine = some j) :
    ∃ e ∈ s.transformation.edits, (e.kind = .entryPoint ∨ e.kind = .outputCall) ∧ e.line = j := by
  obtain ⟨block, passages, m, front, entry, body, ending, -, -, -, -, hpassages, hlayout, rfl, hedits⟩ :=
    layout_of_transform h
  obtain ⟨first, hfirst, hget⟩ := getElem?_origins_collectorLine hlayout
  rw [Script.snippetLine?, collectorLine_scriptOf hlayout hpassages, hpassages, hget, Option.join_some] at hj
  have hentry : entry ∈ passages := by simp [hpassages]
  have hmade : ∀ p ∈ passages, p.Made s.dialect := hpassages ▸ hlayout.made
  obtain ⟨rfl, -⟩ := (hmade entry hentry).kept hfirst hj
  rw [hedits]
  exact ⟨_, List.mem_filterMap.mpr ⟨entry, hentry, hlayout.entered.edit?_eq⟩, .inl rfl, rfl⟩

end Snippet

namespace Snippet

variable {s : Snippet} {script : Script} {new : Line} {front : List Char}

/-- The script's lines come at their places behind a front that ends with a line feed, whatever follows them. -/
theorem lineMap_of_front (hlines : ∀ line ∈ s.lines, '\n' ∉ line) (h : s.transform = .ok script) (hnew : '\n' ∉ new)
    (hfront : EndsLine front) (back : List Char) :
    LineMap s script new (front.count '\n') (front ++ script.textWithCollector new ++ back) := by
  obtain ⟨indent, rest, hindent, hline⟩ := exists_collectorLine hlines h
  obtain ⟨hcollector, -⟩ := List.getElem?_eq_some_iff.mp hline
  have hscript := newline_not_mem_lines hlines h
  have hplain := Script.newline_not_mem_linesWithCollector hscript hnew hindent hline
  have hlength : (script.linesWithCollector new).length = script.lines.length := List.length_modify _ _ _
  have hne : script.linesWithCollector new ≠ [] := by
    rw [← List.length_pos_iff, hlength]
    exact List.length_pos_iff.mpr (lines_ne_nil h)
  have hplace : ∀ k < script.lines.length,
      (splitOn '\n' (front ++ script.textWithCollector new ++ back))[front.count '\n' + k]? =
        (script.linesWithCollector new)[k]? := by
    intro k hk
    rw [List.append_assoc, getElem?_splitOn_append hfront, Script.textWithCollector_eq hscript hcollector,
      Script.endedText_eq hne, splitOn_lines hplain, List.getElem?_append_left (by rw [hlength]; exact hk)]
  have hverbatim : ∀ k ≠ script.collectorLine, ∀ line, script.lines[k]? = some line →
      (splitOn '\n' (front ++ script.textWithCollector new ++ back))[front.count '\n' + k]? = some line := by
    intro k hk line hget
    obtain ⟨hlt, -⟩ := List.getElem?_eq_some_iff.mp hget
    rw [hplace k hlt, Script.getElem?_linesWithCollector hk, hget]
  refine ⟨hverbatim, ⟨indent, rest, hindent, hline, ?_⟩, fun k j hj ↦ ?_⟩
  · rw [hplace _ hcollector, Script.getElem?_collectorLine hindent hline]
  · by_cases hk : k = script.collectorLine
    · subst hk
      exact .inr (entry_of_collectorLine h hj)
    · refine (kept_of_transform h hj).imp_left fun hkept ↦ ?_
      obtain ⟨hlt, -⟩ := List.getElem?_eq_some_iff.mp (Option.join_eq_some_iff.mp hj)
      rw [hplace k (by simpa [Script.lines, Script.origins] using hlt), Script.getElem?_linesWithCollector hk, hkept]

theorem exists_source_eq (target : List Char) :
    ∃ rest, Launcher.source target = "import java.lang.reflect.Array;".toList ++ '\n' :: rest := by
  obtain ⟨rest, hrest⟩ : ∃ rest, (Launcher.template.flatMap fun line ↦ line.toList ++ ['\n']) =
      ("import java.lang.reflect.Array;".toList ++ ['\n']) ++ rest := ⟨_, rfl⟩
  have hnot : '_' ∉ "import java.lang.reflect.Array;".toList ++ ['\n'] := by decide
  rw [Launcher.source, hrest, Launcher.classPlace_eq, Launcher.sentinelPlace_eq, replace_append hnot,
    replace_append hnot, List.append_assoc]
  exact ⟨_, rfl⟩

theorem writeFile_of_ne {name other : String} {content written : List Char} (h : other ≠ name) :
    writeFile name content [(other, written)] = [(other, written), (name, content)] := by
  simp [writeFile, h]

theorem writeFile_self {name : String} {content written : List Char} :
    writeFile name content [(name, written)] = [(name, content)] := by
  simp [writeFile]

def launcherFile : String := Launcher.className ++ ".java"

variable {id directory : String} {dialect : Dialect} {text : List Char} {bindings : Bindings} {maxValues : Nat}
  {programs : Programs} {staging : Staging}

/-- Staging keeps the lines of a script at their places in the staged source. The one exception is a class with the
name of the launcher, whose source is overwritten. -/
theorem stage_lineMap (h : (ofText id dialect text).transform = .ok script)
    (hnames : ∀ binding ∈ bindings, '\n' ∉ binding.1.toList)
    (hstage : script.stage bindings maxValues programs directory = .ok staging) :
    ∃ name, script.sourceFile? = some name ∧
      (name ≠ launcherFile → ∃ staged, staging.files.lookup name = some staged ∧
        LineMap (ofText id dialect text) script (script.dialect.cappedCollector maxValues)
          (script.dialect.linesInFront bindings) staged) ∧
      (name = launcherFile → ∃ target, staging.files = [(launcherFile, Launcher.source target)]) := by
  have hmap {front : List Char} (hfront : EndsLine front) (back : List Char) :=
    lineMap_of_front (newline_not_mem_ofText id dialect text) h
      (script.dialect.newline_not_mem_cappedCollector maxValues)
      hfront back
  unfold Script.stage at hstage
  split at hstage
  · next hdialect =>
    obtain rfl := Except.ok.inj hstage
    refine ⟨"script.py", by simp [Script.sourceFile?, hdialect], fun _ ↦ ⟨_, rfl, ?_⟩,
      fun hname ↦ absurd hname (by decide)⟩
    have hpython := hmap (Script.endsLine_pythonHead bindings maxValues) (Script.pythonTail script.entrySymbol)
    rw [Script.count_pythonHead hnames, hdialect] at hpython
    rw [hdialect]
    exact hpython
  · next hdialect =>
    obtain rfl := Except.ok.inj hstage
    refine ⟨"script.js", by simp [Script.sourceFile?, hdialect], fun _ ↦ ⟨_, rfl, ?_⟩,
      fun hname ↦ absurd hname (by decide)⟩
    have hjavaScript := hmap (Script.endsLine_javaScriptBindings bindings) (Script.javaScriptTail script.entrySymbol)
    rw [Script.count_javaScriptBindings hnames, hdialect] at hjavaScript
    rw [hdialect]
    exact hjavaScript
  · next hdialect =>
    split at hstage
    · next target htarget =>
      split at hstage
      · cases hstage
      obtain rfl := Except.ok.inj hstage
      have hjava := hmap (.inl rfl) []
      rw [List.append_nil, List.nil_append, hdialect] at hjava
      refine ⟨.ofList target ++ ".java", by simp [Script.sourceFile?, hdialect, htarget],
        fun hname ↦ ⟨script.textWithCollector (Script.javaCollector maxValues), ?_, ?_⟩, fun hname ↦ ⟨target, ?_⟩⟩
      · exact (congrArg (List.lookup _) (writeFile_of_ne hname)).trans List.lookup_cons_self
      · rw [hdialect]
        exact hjava
      · exact (congrArg (fun name ↦ writeFile launcherFile _ [(name, _)]) hname).trans writeFile_self
    · cases hstage

def printsNumber : List Char := "function main() \x7b\n  console.log(1);\n\x7d\n".toList

theorem exists_transform_printsNumber : ∃ script, (ofText "number" .javaScript printsNumber).transform = .ok script ∧
    script.dialect = .javaScript := by
  have hdialect : (ofText "number" .javaScript printsNumber).transform.toOption.map (·.dialect) = some .javaScript := by
    decide +kernel
  exact exists_ok_of_toOption hdialect

theorem stage_lineMap_printsNumber : ∃ script staged,
    (ofText "number" .javaScript printsNumber).transform = .ok script ∧
      LineMap (ofText "number" .javaScript printsNumber) script (Script.javaScriptCollector 2) 1 staged := by
  obtain ⟨script, h, hdialect⟩ := exists_transform_printsNumber
  have hnames : ∀ binding ∈ [("n", Json.int 1)], '\n' ∉ binding.1.toList := by simp
  have hstage : script.stage [("n", .int 1)] 2 {} "run" = .ok (script.stageJavaScript [("n", .int 1)] 2 {} "run") := by
    rw [Script.stage, hdialect]
  obtain ⟨name, hname, hstaged, -⟩ := stage_lineMap h hnames hstage
  have hscript : script.sourceFile? = some "script.js" := by rw [Script.sourceFile?, hdialect]
  obtain rfl := Option.some.inj (hname.symm.trans hscript)
  obtain ⟨staged, -, hmap⟩ := hstaged (by decide)
  rw [hdialect] at hmap
  exact ⟨script, staged, h, hmap⟩

theorem stage_of_launchedClass? {name : Line} (hdialect : script.dialect = .java)
    (hclass : script.launchedClass? = some name)
    (hlength : byteLength (name ++ ".java".toList) ≤ Script.longestFileName)
    (bindings : Bindings) (maxValues : Nat) (programs : Programs) (directory : String) :
    script.stage bindings maxValues programs directory = .ok (script.stageJava name maxValues programs directory) := by
  simp only [Script.stage, hdialect, hclass]
  exact if_neg (Nat.not_lt.mpr hlength)

def printsJavaNumber : List Char :=
  ("public class Main \x7b\n    public static void main(String[] args) \x7b\n" ++
    "        System.out.println(1);\n    \x7d\n\x7d\n").toList

theorem exists_staging_printsJavaNumber (directory : String) :
    ∃ script, (ofText "number" .java printsJavaNumber).transform = .ok script ∧
      script.stage [] 10000 {} directory = .ok (script.stageJava "Main".toList 10000 {} directory) := by
  have hfacts : (ofText "number" .java printsJavaNumber).transform.toOption.map (·.launchedClass?) =
      some (some "Main".toList) := by decide +kernel
  obtain ⟨script, h, hclass⟩ := exists_ok_of_toOption hfacts
  exact ⟨script, h, stage_of_launchedClass? (dialect_of_transform h) hclass (by decide) _ _ _ _⟩

def launcherNamed : List Char :=
  "public class SnipcheckLauncher \x7b\n    public static void main(String[] args) \x7b\n    \x7d\n\x7d\n".toList

theorem launcherNamed_lost : ∃ script staging, (ofText "launcher" .java launcherNamed).transform = .ok script ∧
    script.stage [] 10000 {} "run" = .ok staging ∧ script.sourceFile? = some launcherFile ∧
    ∀ staged, staging.files.lookup launcherFile = some staged →
      ¬ LineMap (ofText "launcher" .java launcherNamed) script (Script.javaCollector 10000) 0 staged := by
  have hfacts : (ofText "launcher" .java launcherNamed).transform.toOption.map (fun script ↦
      (script.dialect, script.launchedClass?, script.lines[0]?, script.collectorLine)) =
        some (.java, some "SnipcheckLauncher".toList, some "public class SnipcheckLauncher \x7b".toList, 1) := by
    decide +kernel
  cases h : (ofText "launcher" .java launcherNamed).transform with
  | error fault => simp [h, Except.toOption] at hfacts
  | ok script =>
    simp only [h, Except.toOption, Option.map_some, Option.some.injEq, Prod.mk.injEq] at hfacts
    obtain ⟨hdialect, hclass, hfirst, hcollector⟩ := hfacts
    have hstage : script.stage [] 10000 {} "run" =
        .ok (script.stageJava "SnipcheckLauncher".toList 10000 {} "run") :=
      stage_of_launchedClass? hdialect hclass (by decide) _ _ _ _
    refine ⟨script, _, rfl, hstage, by rw [Script.sourceFile?, hdialect, hclass]; rfl, fun staged hstaged hmap ↦ ?_⟩
    have hline := hmap.verbatim 0 (by rw [hcollector]; decide) _ hfirst
    -- the launcher is all there is, and it begins with an import
    have hlauncher : Launcher.source "SnipcheckLauncher".toList = staged := Option.some.inj hstaged
    obtain ⟨rest, hrest⟩ := exists_source_eq "SnipcheckLauncher".toList
    rw [← hlauncher, hrest, splitOn_append_cons, splitOn_of_not_mem (by decide)] at hline
    exact absurd (Option.some.inj hline) (by decide)

end Snippet

end AnswerKey
