import AnswerKey.Proofs.Challenge.Stages

namespace AnswerKey

open Text Code

namespace Machine

variable {m v : Machine} {i j : Nat} {line : Line} {lines : List Line} {passages : List Passage}

theorem index_of_step?_error (h : m.step? i line = some (v, .error j)) : j = i := by
  obtain ⟨commentary, t, -, hact⟩ := step?_eq_some_iff.mp h
  have hreads := hact ▸ reads_act { m with tracker := t } commentary i line
  cases hreads
  rfl

theorem run_unclosedCall (h : m.run i lines = (passages, .error (.unclosedCall j))) :
    ∃ n u, j = i + n ∧ n < lines.length ∧ m.run i (lines.take n) = (passages, .ok u) := by
  induction lines generalizing m i passages with
  | nil => cases h
  | cons line lines ih =>
    cases hs : m.step? i line with
    | none => simp [run, hs] at h
    | some r =>
      rcases r with ⟨v, k | step⟩
      · rw [run_cons_of_error hs] at h
        cases h
        exact ⟨0, m, index_of_step?_error hs, Nat.succ_pos _, rfl⟩
      · rcases hrest : v.run (i + 1) lines with ⟨rest, outcome⟩
        rw [run_cons_of_step hs hrest] at h
        cases h
        obtain ⟨n, u, rfl, hn, hfront⟩ := ih hrest
        exact ⟨n + 1, u, by omega, Nat.succ_lt_succ hn, run_cons_of_step hs hfront⟩

end Machine

namespace Snippet

variable {s : Snippet} {script : Script} {fault : Fault} {n : Nat} {edits : List Edit}

def EditedUpTo (s : Snippet) (n : Nat) (edits : List Edit) : Prop :=
  ∃ block passages m, s.entryBlock = .ok block ∧ edits = passages.filterMap Passage.edit? ∧
    Machine.run { grammar := s.grammar, entryLine := block.start } 0 (s.lines.take n) = (passages, .ok m)

/-- How far a transformation that fails has come: nowhere without a proper block, else to the line with the open call,
or else to the end of the snippet. -/
inductive EditedUntil (s : Snippet) : Fault → List Edit → Prop
  | entryBlock {fault : Fault} (h : s.entryBlock = .error fault) : EditedUntil s fault []
  | unclosedCall {n : Nat} {edits : List Edit} (hn : n < s.lines.length) (h : s.EditedUpTo n edits) :
      EditedUntil s (.defect (.unclosedCall s.id n)) edits
  | unclosedBlock {i : Nat} {edits : List Edit} (h : s.EditedUpTo s.lines.length edits) :
      EditedUntil s (.defect (.unclosedBlock s.id i)) edits

theorem EditedUpTo.increasing (h : s.EditedUpTo n edits) : (edits.map (·.line)).Pairwise (· < ·) := by
  obtain ⟨block, passages, m, -, rfl, hrun⟩ := h
  refine Passage.edits_increasing ?_
  rw [Machine.indices_of_run hrun]
  exact List.pairwise_lt_range

theorem EditedUntil.increasing (h : s.EditedUntil fault edits) : (edits.map (·.line)).Pairwise (· < ·) := by
  cases h with
  | entryBlock => exact .nil
  | unclosedCall _ h => exact h.increasing
  | unclosedBlock h => exact h.increasing

theorem editedUpTo_of_transform (h : s.transform = .ok script) :
    s.EditedUpTo s.lines.length s.transformation.edits := by
  obtain ⟨block, passages, m, hblock, hrun, -, -, hedits⟩ := transform_ok h
  exact ⟨block, passages, m, hblock, hedits, by rwa [List.take_length]⟩

theorem editedUntil_of_transform (hscan : s.transform ≠ .error .unscannable) (h : s.transform = .error fault) :
    s.EditedUntil fault s.transformation.edits := by
  rw [transform] at h hscan
  unfold transformation at *
  cases hblock : s.entryBlock with
  | error fault' =>
    simp only [hblock] at h ⊢
    cases h
    exact .entryBlock hblock
  | ok block =>
    rcases hrun : Machine.run { grammar := s.grammar, entryLine := block.start } 0 s.lines with ⟨passages, outcome⟩
    simp only [hblock, hrun] at h hscan ⊢
    rcases outcome with (_ | j) | m
    · exact absurd rfl hscan
    · cases h
      obtain ⟨n, u, rfl, hn, hfront⟩ := Machine.run_unclosedCall hrun
      rw [Nat.zero_add]
      exact .unclosedCall hn ⟨block, passages, u, hblock, rfl, hfront⟩
    · cases hopen : m.unclosed? with
      | none => simp [hopen] at h
      | some i =>
        simp only [hopen] at h
        cases h
        exact .unclosedBlock ⟨block, passages, m, hblock, rfl, by rwa [List.take_length]⟩

theorem length_emitted_of_transform (h : s.transform = .ok script) : script.emitted.length = s.lines.length + 2 := by
  obtain ⟨block, passages, m, front, entry, body, ending, -, -, hrun, hout, hpassages, hlayout, rfl, -⟩ :=
    layout_of_transform h
  simpa [Script.origins] using length_origins_scriptOf hlayout hout hpassages hrun

theorem appendedCalls_of_transform (h : s.transform = .ok script) :
    script.appendedCalls = s.transformation.edits.countP (·.kind = .outputCall) := by
  obtain ⟨block, passages, m, -, -, -, rfl, hedits⟩ := transform_ok h
  rw [hedits, appendedCalls_scriptOf]

end Snippet

namespace Challenge

/-- The event that the script is ready: it has two lines more than the source, and a statement for every call. -/
def scriptReady (c : Challenge) : Event :=
  .transformFinished c.id c.snippet.digest c.dialect c.snippet.lines.length (c.snippet.lines.length + 2)
    (c.snippet.transformation.edits.countP (·.kind = .outputCall))

def edited (c : Challenge) : List Event :=
  c.snippet.transformation.edits.map fun e ↦ .lineEdited c.id e.line e.kind e.emitted.length

/-- The events of a verification, by how it goes. -/
structure Chronicle (c : Challenge) (adapter : Adapter) (limits : Limits) (events : List Logged) : Prop where
  unanswered : c.answers = [] → events = []
  increasing : (c.snippet.transformation.edits.map (·.line)).Pairwise (· < ·)
  faulty : ∀ fault, c.answers ≠ [] → c.snippet.transform = .error fault →
    c.snippet.EditedUntil fault c.snippet.transformation.edits ∧ events = c.inSpan c.edited
  transformed : ∀ script, c.snippet.transform = .ok script →
    c.snippet.EditedUpTo c.snippet.lines.length c.snippet.transformation.edits
  refused : ∀ script, c.answers ≠ [] → c.snippet.transform = .ok script →
    limits.validate ≠ .ok () ∨ adapter.dialect ≠ c.dialect → events = c.inSpan (c.edited ++ [c.scriptReady])
  late : ∀ run, c.Begins adapter limits → c.run? adapter = some run → limits.timeout < run.delay →
    events = c.inSpan (c.edited ++
      [c.scriptReady, .executionFailed c.id c.dialect (RunFailure.timedOut limits.timeout).message])
  broken : ∀ run, c.Begins adapter limits → c.run? adapter = some run → run.delay ≤ limits.timeout →
    run.outcome = none → events = c.inSpan (c.edited ++ [c.scriptReady])
  failed : ∀ run failure, c.Begins adapter limits → c.run? adapter = some run → run.delay ≤ limits.timeout →
    run.outcome = some (.error failure) →
      events = c.inSpan (c.edited ++ [c.scriptReady, .executionFailed c.id c.dialect failure.message])
  tooMany : ∀ run values, c.Begins adapter limits → c.run? adapter = some run → run.delay ≤ limits.timeout →
    run.outcome = some (.ok values) → limits.maxValues < values.length →
      events = c.inSpan (c.edited ++ [c.scriptReady,
        .executionFailed c.id c.dialect (RunFailure.tooManyValues values.length limits.maxValues).message])
  finished : ∀ run values, c.Begins adapter limits → c.run? adapter = some run → run.delay ≤ limits.timeout →
    run.outcome = some (.ok values) → values.length ≤ limits.maxValues → ∃ passed,
      events = c.inSpan (c.edited ++ [c.scriptReady, .executionFinished c.id c.dialect values.length]) ++
        [⟨.verificationFinished c.id c.answers.length values.length passed, none⟩] ∧
      (passed = true ↔ ∃ report, (c.verify adapter limits).2 = .ok report)

variable {c : Challenge} {adapter : Adapter} {limits : Limits} {script : Script} {values : List Json}

theorem scriptReady_eq (h : c.snippet.transform = .ok script) :
    c.snippet.transformFinishedEvent script = c.scriptReady := by
  rw [Snippet.transformFinishedEvent, Snippet.length_emitted_of_transform h, Snippet.appendedCalls_of_transform h]
  rfl

/-- A verification that begins, with a run that has no events of its own. -/
theorem verify_of_begins {run : Run} (hquiet : run.events = []) (h : c.Begins adapter limits)
    (hrun : c.run? adapter = some run) :
    c.verify adapter limits =
      match limits.outcomeOf run with
      | none => (c.inSpan (c.edited ++ [c.scriptReady]), .error .brokenOff)
      | some (.error failure) =>
        (c.inSpan (c.edited ++ [c.scriptReady, .executionFailed c.id c.dialect failure.message]),
          .error (.execution c.id failure))
      | some (.ok values) =>
        (c.inSpan (c.edited ++ [c.scriptReady, .executionFinished c.id c.dialect values.length]) ++
          [⟨c.verificationEvent values, none⟩], c.judge values) := by
  obtain ⟨hkey, ⟨script, hs⟩, hvalid, hdialect⟩ := h
  have hscript : script.dialect = c.dialect := Snippet.dialect_of_transform hs
  have hid : script.snippetId = c.id := Snippet.id_of_transform hs
  have hcheck := Adapter.check_eq_ok_iff.mpr ⟨hvalid, hdialect.trans hscript.symm⟩
  obtain rfl := Option.some.inj ((run?_of_script hs).symm.trans hrun)
  rw [verify_of_script hkey hs, Adapter.execute_of_checked hcheck, hquiet, scriptReady_eq hs]
  rcases limits.outcomeOf (adapter.run script c.bindings) with _ | failure | values
  · rfl
  · dsimp only [executionEvent, Option.map_some]
    rw [hscript, hid]
    rfl
  · dsimp only [executionEvent, Option.map_some]
    rw [hscript, hid]
    rfl

theorem exists_judge_ok : (∃ report, c.judge values = .ok report) ↔ (mismatch? c.expected values).isNone = true := by
  cases hm : mismatch? c.expected values <;> simp [judge, hm]

/-- Those who watch a verification see the edits of the source, up to the end of the script or to the line at which it
fails, and after that how the run and the comparison went. -/
theorem chronicle_verify (c : Challenge) (adapter : Adapter) (limits : Limits)
    (hscan : c.snippet.transform ≠ .error .unscannable)
    (hquiet : ∀ script bindings, (adapter.run script bindings).events = []) :
    c.Chronicle adapter limits (c.verify adapter limits).1 := by
  have hrun {run : Run} (h : c.run? adapter = some run) : run.events = [] := by
    obtain ⟨script, -, rfl⟩ := Option.map_eq_some_iff.mp h
    exact hquiet script c.bindings
  constructor
  case unanswered => exact fun h ↦ by rw [verify_of_no_answers h]
  case increasing =>
    cases hs : c.snippet.transform with
    | error fault => exact (Snippet.editedUntil_of_transform hscan hs).increasing
    | ok script => exact (Snippet.editedUpTo_of_transform hs).increasing
  case faulty =>
    intro fault hkey hs
    refine ⟨Snippet.editedUntil_of_transform hscan hs, ?_⟩
    rw [verify_of_fault hkey hs]
    rfl
  case transformed => exact fun script hs ↦ Snippet.editedUpTo_of_transform hs
  case refused =>
    intro script hkey hs hrefused
    cases hcheck : adapter.check limits script with
    | ok =>
      obtain ⟨-, -, hvalid, hdialect⟩ := begins_of_checked hkey hs hcheck
      exact absurd hrefused (by simp [hvalid, hdialect])
    | error failure =>
      rw [verify_of_script hkey hs, Adapter.execute_of_refused hcheck, scriptReady_eq hs]
      rfl
  case late =>
    intro run h hr htime
    rw [verify_of_begins (hrun hr) h hr, Limits.outcomeOf_of_late htime]
  case broken =>
    intro run h hr htime hbroken
    rw [verify_of_begins (hrun hr) h hr, Limits.outcomeOf_of_broken htime hbroken]
  case failed =>
    intro run failure h hr htime hfailure
    rw [verify_of_begins (hrun hr) h hr, Limits.outcomeOf_of_failure htime hfailure]
  case tooMany =>
    intro run values h hr htime hvalues hcount
    rw [verify_of_begins (hrun hr) h hr, Limits.outcomeOf_of_values htime hvalues, if_pos hcount]
  case finished =>
    intro run values h hr htime hvalues hcount
    refine ⟨(mismatch? c.expected values).isNone, ?_, ?_⟩
    · rw [verify_of_begins (hrun hr) h hr, Limits.outcomeOf_eq_ok_iff.mpr ⟨htime, hvalues, hcount⟩]
      rfl
    · rw [verify_of_begins (hrun hr) h hr, Limits.outcomeOf_eq_ok_iff.mpr ⟨htime, hvalues, hcount⟩]
      exact exists_judge_ok.symm

def leavesOpen : Challenge where
  id := "open"
  dialect := .javaScript
  source := "function main() \x7b\n  console.log(1);\n  console.log(2;\n\x7d\n".toList
  answers := ["1", "2"]

theorem chronicle_verify_open : leavesOpen.snippet.transform ≠ .error .unscannable ∧
    (∀ script bindings, (lateAdapter.run script bindings).events = []) ∧
    (leavesOpen.verify lateAdapter {}).1 =
      leavesOpen.inSpan [.lineEdited "open" 0 .entryPoint 1, .lineEdited "open" 1 .outputCall 1] := by
  have hfault : leavesOpen.snippet.fault? = some (.defect (.unclosedCall "open" 2)) := by decide +kernel
  cases hs : leavesOpen.snippet.transform with
  | ok script => simp [Snippet.fault?, hs] at hfault
  | error fault =>
    obtain rfl : fault = .defect (.unclosedCall "open" 2) := by simpa [Snippet.fault?, hs] using hfault
    have hscan : leavesOpen.snippet.transform ≠ .error .unscannable := by simp [hs]
    have hquiet : ∀ script bindings, (lateAdapter.run script bindings).events = [] := fun _ _ ↦ rfl
    have hedited : leavesOpen.edited = [.lineEdited "open" 0 .entryPoint 1, .lineEdited "open" 1 .outputCall 1] := by
      decide +kernel
    refine ⟨by simp, hquiet, ?_⟩
    rw [((chronicle_verify leavesOpen lateAdapter {} hscan hquiet).faulty _ (by decide) hs).2, hedited]

end Challenge
end AnswerKey
