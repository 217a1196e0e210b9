import AnswerKey.Proofs.Dialect.ClassLine
import AnswerKey.Proofs.Execution.Staging
import AnswerKey.Proofs.Script.Newlines

namespace AnswerKey

open Text Code

/-- What the launcher calls for a class: in its name, too, the place of the sentinel is filled. -/
def Launcher.calledName (name : Line) : Line := replace "__SENTINEL__".toList sentinel.toList name

def Launcher.callLine (called : Line) : Line :=
  "        Object answers = ".toList ++ (called ++ ".main(args);".toList)

/-- The source is in a file with the name of one class, and the launcher calls another. -/
structure Staging.Launches (staging : Staging) (own called : Line) : Prop where
  file : staging.files.head?.map Prod.fst = some (.ofList own ++ ".java")
  call : ∃ launcher, staging.files.getLast? = some (Snippet.launcherFile, launcher) ∧
    (splitOn '\n' launcher)[5]? = some (Launcher.callLine called)

namespace Snippet

/-- The class that a line declares by its looks. -/
def classAt? (s : Snippet) (i : Nat) : Option Line := s.lines[i]?.bind Java.className?

def indentAt (s : Snippet) (i : Nat) : Nat := indentWidth (s.lines[i]?.getD [])

/-- A line declares a class, and none before it does. -/
structure DeclaresFirst (s : Snippet) (j : Nat) (name : Line) : Prop where
  declared : s.classAt? j = some name
  first : ∀ i < j, s.classAt? i = none

/-- Of the lines above line `k` that are indented less, a line is the nearest that declares a class. -/
structure Encloses (s : Snippet) (k j : Nat) (name : Line) : Prop where
  above : j < k
  declared : s.classAt? j = some name
  outside : s.indentAt j < s.indentAt k
  nearest : ∀ i < k, j < i → s.classAt? i ≠ none → s.indentAt k ≤ s.indentAt i

theorem encloses_iff {s : Snippet} {k j : Nat} {name : Line} : s.Encloses k j name ↔
    j < k ∧ s.classAt? j = some name ∧ s.indentAt j < s.indentAt k ∧
      ∀ i < k, j < i → s.classAt? i ≠ none → s.indentAt k ≤ s.indentAt i :=
  ⟨fun ⟨above, declared, outside, nearest⟩ ↦ ⟨above, declared, outside, nearest⟩,
    fun ⟨above, declared, outside, nearest⟩ ↦ ⟨above, declared, outside, nearest⟩⟩

instance (s : Snippet) (k j : Nat) (name : Line) : Decidable (s.Encloses k j name) :=
  decidable_of_iff _ encloses_iff.symm

end Snippet

namespace Machine

variable {m m' u : Machine} {commentary : Bool} {i : Nat} {line : Line} {lines : List Line} {step : Step}
  {passages : List Passage}

theorem Reads.className?_texts (hg : m.grammar = Java.grammar) (hm : m.Indents (isBlankLine · = true))
    (h : Reads m commentary i line (u, .ok step)) :
    (step.emitted.map (·.text)).findSome? Java.className? = Java.className? line := by
  have hindent : isBlankLine (indentation line) = true := List.all_takeWhile
  cases h with
  | passed | skipped | kept => exact List.findSome?_singleton
  | entered =>
    rw [Step.texts_entered, hg]
    exact List.findSome?_singleton.trans (Java.className?_instrumentEntry line)
  | @closed e n b hpos =>
    have hbody : isBlankLine (b.getD (indentation line ++ defaultBodyIndent)) = true :=
      hm.getD hpos ((isBlankLine_append hindent _).trans (by decide))
    have hnone := Java.className?_renderReturn? hbody rfl
    rw [hg]
    exact (List.findSome?_cons_of_isNone (by rw [hnone]; rfl)).trans List.findSome?_singleton
  | appended hpos hcode hclose hcall =>
    rw [hg] at hcall ⊢
    rw [Java.className?_of_outputCall? hcall]
    exact List.findSome?_singleton.trans (Java.className?_renderAppend hindent _)

theorem className?_of_run (hg : m.grammar = Java.grammar) (hm : m.Indents (isBlankLine · = true))
    (h : m.run i lines = (passages, .ok m')) :
    (passages.flatMap Passage.texts).findSome? Java.className? = lines.findSome? Java.className? := by
  induction lines generalizing m i passages with
  | nil =>
    cases h
    rfl
  | cons line lines ih =>
    obtain ⟨commentary, t, u, step, rest, -, hreads, hrest, rfl⟩ := run_cons_ok h
    have htexts := Reads.className?_texts (m := { m with tracker := t }) hg hm hreads
    have hu : u.Indents (isBlankLine · = true) :=
      Indents.of_reads (m := { m with tracker := t }) hm List.all_takeWhile hreads
    have hline : (Passage.mk i line step).texts.findSome? Java.className? = Java.className? line := htexts
    rw [List.flatMap_cons, List.findSome?_append, ih (hreads.frame.1.trans hg) hu hrest, hline, ← List.singleton_append,
      List.findSome?_append, List.findSome?_singleton]

end Machine

namespace Launcher

variable {name called : Line}

theorem callLine_injective : Function.Injective callLine :=
  fun _ _ h ↦ List.append_cancel_right (List.append_cancel_left h)

def filled (name line : Line) : Line :=
  replace "__SENTINEL__".toList sentinel.toList (replace "__CLASS__".toList name line)

theorem newline_not_mem_filled {line : Line} (hname : '\n' ∉ name) (hline : '\n' ∉ line) : '\n' ∉ filled name line := by
  have hsentinel : '\n' ∉ sentinel.toList := by decide
  intro hmem
  rcases List.mem_append.mp (replace_subset _ _ _ hmem) with hmem | hmem
  · exact hsentinel hmem
  rcases List.mem_append.mp (replace_subset _ _ _ hmem) with hmem | hmem
  · exact hname hmem
  · exact hline hmem

theorem newline_not_mem_template : ∀ line ∈ template.take 6, '\n' ∉ line.toList := by decide +kernel

theorem source_eq (name : Line) :
    source name = (template.map fun line ↦ filled name line.toList).flatMap (· ++ ['\n']) := by
  have hlines : (template.flatMap fun line ↦ line.toList ++ ['\n']) =
      (template.map String.toList).flatMap (· ++ ['\n']) := by rw [List.flatMap_map]
  rw [source, hlines, classPlace_eq, sentinelPlace_eq, replace_lines (by decide), replace_lines (by decide),
    List.map_map, List.map_map]
  simp only [filled, classPlace_eq, sentinelPlace_eq, Function.comp_def]

/-- A name with a place in it does not survive the filling. -/
theorem calledName_eq_self_iff : calledName name = name ↔ contains name "__SENTINEL__".toList = false := by
  refine replace_eq_self_iff (by decide) fun s t h ↦ ?_
  have hfourth := congrArg (fun text : List Char ↦ text[3]?) h
  exact absurd hfourth (by simp [sentinel])

theorem filled_between {front behind : Line} (hfront : '_' ∉ front) (hbehind : '_' ∉ behind) (name : Line) :
    filled name (front ++ ("__CLASS__".toList ++ '.' :: behind)) = front ++ (calledName name ++ '.' :: behind) := by
  rw [filled, calledName, classPlace_eq, sentinelPlace_eq, replace_between hfront (by decide) hbehind,
    replace_self (List.cons_ne_nil _ _), replace_between hfront (by decide) hbehind]

theorem filled_callLine (name : Line) :
    filled name "        Object answers = __CLASS__.main(args);".toList = callLine (calledName name) := by
  have hline : "        Object answers = __CLASS__.main(args);".toList =
      "        Object answers = ".toList ++ ("__CLASS__".toList ++ '.' :: "main(args);".toList) := by decide +kernel
  have hbehind : '.' :: "main(args);".toList = ".main(args);".toList := by decide
  rw [hline]
  -- the long texts are compared as they are, since rewriting would open them
  exact (filled_between (by decide) (by decide) name).trans
    (congrArg (fun behind ↦ "        Object answers = ".toList ++ (calledName name ++ behind)) hbehind)

theorem getElem?_source (hname : '\n' ∉ name) :
    (splitOn '\n' (source name))[5]? = some (callLine (calledName name)) := by
  have hfirst : ∀ line ∈ (template.take 6).map fun line ↦ filled name line.toList, '\n' ∉ line := by
    intro line hline
    obtain ⟨text, htext, rfl⟩ := List.mem_map.mp hline
    exact newline_not_mem_filled hname (newline_not_mem_template text htext)
  have hline : (template.take 6)[5]? = some "        Object answers = __CLASS__.main(args);" := rfl
  have hsixth : ((template.take 6).map fun line ↦ filled name line.toList)[5]? = some (callLine (calledName name)) := by
    rw [List.getElem?_map, hline, Option.map_some, filled_callLine]
  have hlength := (List.getElem?_eq_some_iff.mp hsixth).1
  rw [source_eq, ← List.take_append_drop 6 template, List.map_append, List.flatMap_append, splitOn_lines hfirst,
    List.getElem?_append_left hlength, hsixth]

end Launcher

namespace Staging.Launches

variable {staging : Staging} {own own' called called' : Line}

theorem unique (h : staging.Launches own called) (h' : staging.Launches own' called') :
    own = own' ∧ called = called' := by
  obtain ⟨launcher, hlast, hcall⟩ := h.call
  obtain ⟨launcher', hlast', hcall'⟩ := h'.call
  have hlauncher : launcher = launcher' := (Prod.mk.inj (Option.some.inj (hlast.symm.trans hlast'))).2
  have hfile : String.ofList own ++ ".java" = .ofList own' ++ ".java" := Option.some.inj (h.file.symm.trans h'.file)
  have hnames := congrArg String.toList hfile
  refine ⟨by simpa using hnames, Launcher.callLine_injective ?_⟩
  rw [hlauncher] at hcall
  exact Option.some.inj (hcall.symm.trans hcall')

end Staging.Launches

theorem Script.launches_stageJava {name : Line} (hname : '\n' ∉ name) (script : Script) (maxValues : Nat)
    (programs : Programs) (directory : String) :
    (script.stageJava name maxValues programs directory).Launches name (Launcher.calledName name) := by
  have hcall := Launcher.getElem?_source hname
  by_cases hown : String.ofList name ++ ".java" = Snippet.launcherFile
  · have hfiles : (script.stageJava name maxValues programs directory).files =
        [(Snippet.launcherFile, Launcher.source name)] := by
      rw [stageJava, hown]
      exact Snippet.writeFile_self
    exact ⟨by rw [hfiles, hown]; rfl, _, by rw [hfiles]; rfl, hcall⟩
  · have hfiles : (script.stageJava name maxValues programs directory).files =
        [(.ofList name ++ ".java", script.textWithCollector (javaCollector maxValues)),
          (Snippet.launcherFile, Launcher.source name)] := Snippet.writeFile_of_ne hown
    exact ⟨by rw [hfiles]; rfl, _, by rw [hfiles]; rfl, hcall⟩

namespace Snippet

variable {s : Snippet} {script : Script}

theorem launchedClass?_eq (hdialect : s.dialect = .java) (hlines : ∀ line ∈ s.lines, '\n' ∉ line)
    (h : s.transform = .ok script) : script.launchedClass? = s.lines.findSome? Java.className? := by
  have hplain := newline_not_mem_lines hlines h
  have hne := lines_ne_nil h
  obtain ⟨block, passages, m, -, hrun, -, rfl, -⟩ := transform_ok h
  have hgrammar : s.grammar = Java.grammar := by rw [grammar, hdialect]; rfl
  rw [Script.launchedClass?, Script.text, Script.endedText_eq hne,
    findSome?_linesOf Java.className?_append_return hplain, lines_scriptOf, List.findSome?_append,
    Machine.className?_of_run hgrammar (.of_outside rfl) hrun]
  exact Option.or_none

theorem exists_declaresFirst {name : Line} (h : s.lines.findSome? Java.className? = some name) :
    ∃ j, s.DeclaresFirst j name := by
  obtain ⟨front, line, back, hlines, hname, hnone⟩ := List.findSome?_eq_some_iff.mp h
  refine ⟨front.length, ?_, fun i hi ↦ ?_⟩
  · rw [classAt?, hlines, List.getElem?_append_right (Nat.le_refl _), Nat.sub_self]
    exact hname
  · rw [classAt?, hlines, List.getElem?_append_left hi, List.getElem?_eq_getElem hi]
    exact hnone _ (List.getElem_mem hi)

theorem DeclaresFirst.le {i j : Nat} {name target : Line} (h : s.DeclaresFirst j name)
    (hi : s.classAt? i = some target) : j ≤ i := by
  by_contra hlt
  rw [h.first i (Nat.lt_of_not_le hlt)] at hi
  cases hi

theorem DeclaresFirst.newline_not_mem {j : Nat} {name : Line} (h : s.DeclaresFirst j name) : '\n' ∉ name := by
  obtain ⟨line, -, hname⟩ := Option.bind_eq_some_iff.mp h.declared
  exact Java.newline_not_mem_className? hname

variable {id directory : String} {text : List Char} {bindings : Bindings} {maxValues : Nat} {programs : Programs}
  {staging : Staging}

/-- A Java script is run as the class that is named by the first line that declares one by its looks: its source is in a
file of that name, and the launcher calls it. It is run as the class around the entry line exactly if that has the same
name, as it has if its declaration is the first such line, and the launcher finds no place to fill in the name. -/
theorem stage_launches (h : (ofText id .java text).transform = .ok script)
    (hstage : script.stage bindings maxValues programs directory = .ok staging) :
    ∃ block j name, (ofText id .java text).entryBlock = .ok block ∧ (ofText id .java text).DeclaresFirst j name ∧
      staging.Launches name (Launcher.calledName name) ∧
      ∀ i target, (ofText id .java text).Encloses block.start i target → j ≤ i ∧ (j = i → target = name) ∧
        (staging.Launches target target ↔ target = name ∧ contains target "__SENTINEL__".toList = false) := by
  have hdialect : script.dialect = .java := dialect_of_transform h
  obtain ⟨block, -, -, hblock, -⟩ := transform_ok h
  have hclass := launchedClass?_eq rfl (newline_not_mem_ofText id .java text) h
  simp only [Script.stage, hdialect] at hstage
  split at hstage
  · next name hname =>
    obtain ⟨j, hfirst⟩ := exists_declaresFirst (hclass.symm.trans hname)
    split at hstage
    · cases hstage
    obtain rfl := Except.ok.inj hstage
    have hlaunches := Script.launches_stageJava hfirst.newline_not_mem script maxValues programs directory
    refine ⟨block, j, name, hblock, hfirst, hlaunches, fun i target htarget ↦ ⟨hfirst.le htarget.declared, ?_, ?_⟩⟩
    · rintro rfl
      exact Option.some.inj (htarget.declared.symm.trans hfirst.declared)
    · rw [← Launcher.calledName_eq_self_iff]
      constructor
      · intro htarget
        obtain ⟨rfl, hcalled⟩ := htarget.unique hlaunches
        exact ⟨rfl, hcalled.symm⟩
      · rintro ⟨rfl, hcalled⟩
        rwa [hcalled] at hlaunches
  · cases hstage

theorem stage_launches_number : ∃ script staging, (ofText "number" .java printsJavaNumber).transform = .ok script ∧
    script.stage [] 10000 {} "run" = .ok staging ∧ staging.Launches "Main".toList "Main".toList := by
  have hstart : (ofText "number" .java printsJavaNumber).entryBlock.toOption.map (·.start) = some 1 := by decide +kernel
  obtain ⟨block', hblock', hstart⟩ := exists_ok_of_toOption hstart
  have hencloses : (ofText "number" .java printsJavaNumber).Encloses 1 0 "Main".toList := by decide +kernel
  obtain ⟨script, h, hstage⟩ := exists_staging_printsJavaNumber "run"
  obtain ⟨block, j, name, hblock, -, -, hall⟩ := stage_launches h hstage
  obtain rfl := Except.ok.inj (hblock.symm.trans hblock')
  obtain ⟨hle, hname, hiff⟩ := hall 0 "Main".toList (hstart ▸ hencloses)
  exact ⟨script, _, h, hstage, hiff.mpr ⟨hname (Nat.le_zero.mp hle), by decide⟩⟩

/-- Behind the text the class of `printsJavaNumber` is still the one around the entry line, but not the one that is
run. -/
def HidesMain (front : List Char) : Prop :=
  ∃ script staging block, (ofText "number" .java (front ++ printsJavaNumber)).transform = .ok script ∧
    script.stage [] 10000 {} "run" = .ok staging ∧
    (ofText "number" .java (front ++ printsJavaNumber)).entryBlock = .ok block ∧
    (ofText "number" .java (front ++ printsJavaNumber)).Encloses block.start 3 "Main".toList ∧
    ¬ staging.Launches "Main".toList "Main".toList

theorem hidesMain_of_launchedClass? {front : List Char} {name : Line} (hplain : '\n' ∉ name)
    (hother : name ≠ "Main".toList) (hlength : byteLength (name ++ ".java".toList) ≤ Script.longestFileName)
    (h : (ofText "number" .java (front ++ printsJavaNumber)).transform.toOption.map (·.launchedClass?) =
        some (some name) ∧
      (ofText "number" .java (front ++ printsJavaNumber)).entryBlock.toOption.map (·.start) = some 4 ∧
      (ofText "number" .java (front ++ printsJavaNumber)).Encloses 4 3 "Main".toList) : HidesMain front := by
  obtain ⟨hscript, hblock, hencloses⟩ := h
  obtain ⟨script, h, hclass⟩ := exists_ok_of_toOption hscript
  obtain ⟨block, hblock, hstart⟩ := exists_ok_of_toOption hblock
  refine ⟨script, _, block, h, stage_of_launchedClass? (dialect_of_transform h) hclass hlength _ _ _ _, hblock,
    hstart ▸ hencloses, fun hmain ↦ ?_⟩
  obtain ⟨hown, -⟩ := hmain.unique (Script.launches_stageJava hplain script 10000 {} "run")
  exact hother hown.symm

def diagramNote : List Char := "/*\n class diagram of the sorter\n*/\n".toList

def helperClass : List Char := "class Helper \x7b\n\x7d\n\n".toList

theorem launched_apart : HidesMain diagramNote ∧ HidesMain helperClass :=
  ⟨hidesMain_of_launchedClass? (show '\n' ∉ "diagram".toList by decide) (by decide) (by decide) (by decide +kernel),
    hidesMain_of_launchedClass? (show '\n' ∉ "Helper".toList by decide) (by decide) (by decide) (by decide +kernel)⟩

end Snippet

end AnswerKey
