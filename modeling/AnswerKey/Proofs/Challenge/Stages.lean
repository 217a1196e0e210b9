import AnswerKey.Proofs.Script.Record
import AnswerKey.Challenge.Verification

namespace AnswerKey

open Text Code

namespace Limits

variable {limits : Limits} {run : Run} {values : List Json}

theorem outcomeOf_of_late (h : limits.timeout < run.delay) :
    limits.outcomeOf run = some (.error (.timedOut limits.timeout)) :=
  if_pos h

theorem outcomeOf_of_broken (h : run.delay ≤ limits.timeout) (hrun : run.outcome = none) :
    limits.outcomeOf run = none := by
  simp [outcomeOf, Nat.not_lt.mpr h, hrun]

theorem outcomeOf_of_failure {failure : RunFailure} (h : run.delay ≤ limits.timeout)
    (hrun : run.outcome = some (.error failure)) : limits.outcomeOf run = some (.error failure) := by
  simp [outcomeOf, Nat.not_lt.mpr h, hrun]

theorem outcomeOf_of_values (h : run.delay ≤ limits.timeout) (hrun : run.outcome = some (.ok values)) :
    limits.outcomeOf run =
      if limits.maxValues < values.length then some (.error (.tooManyValues values.length limits.maxValues))
      else some (.ok values) := by
  simp [outcomeOf, Nat.not_lt.mpr h, hrun]

theorem outcomeOf_eq_ok_iff : limits.outcomeOf run = some (.ok values) ↔
    run.delay ≤ limits.timeout ∧ run.outcome = some (.ok values) ∧ values.length ≤ limits.maxValues := by
  rcases Nat.lt_or_ge limits.timeout run.delay with htime | htime
  · simp [outcomeOf_of_late htime, Nat.not_le.mpr htime]
  · rcases houtcome : run.outcome with _ | failure | found
    · simp [outcomeOf_of_broken htime houtcome]
    · simp [outcomeOf_of_failure htime houtcome]
    · rw [outcomeOf_of_values htime houtcome]
      rcases Nat.lt_or_ge limits.maxValues found.length with hcount | hcount
      · simp only [hcount, if_true, reduceCtorEq, htime, true_and, Option.some.injEq, Except.ok.injEq, false_iff]
        rintro ⟨rfl, hle⟩
        omega
      · simp only [Nat.not_lt.mpr hcount, if_false, htime, true_and, Option.some.injEq, Except.ok.injEq]
        exact ⟨fun h ↦ ⟨h, h ▸ hcount⟩, And.left⟩

theorem outcomeOf_eq_none_iff :
    limits.outcomeOf run = none ↔ run.delay ≤ limits.timeout ∧ run.outcome = none := by
  rcases Nat.lt_or_ge limits.timeout run.delay with htime | htime
  · simp [outcomeOf_of_late htime, Nat.not_le.mpr htime]
  · rcases houtcome : run.outcome with _ | failure | found
    · simp [outcomeOf_of_broken htime houtcome, htime]
    · simp [outcomeOf_of_failure htime houtcome]
    · rw [outcomeOf_of_values htime houtcome]
      split <;> simp

end Limits

namespace Adapter

variable {adapter : Adapter} {limits : Limits} {script : Script} {bindings : Bindings} {failure : RunFailure}

/-- The adapter with a mark at the beginning of each of its runs. -/
def marked (adapter : Adapter) (mark : Event) : Adapter where
  dialect := adapter.dialect
  run script bindings := { adapter.run script bindings with events := mark :: (adapter.run script bindings).events }

theorem check_of_invalid (h : limits.validate = .error failure) : adapter.check limits script = .error failure := by
  simp [check, h, bind, Except.bind]

theorem check_of_valid (h : limits.validate = .ok ()) : adapter.check limits script =
    if adapter.dialect = script.dialect then .ok () else .error (.noAdapter script.dialect) := by
  by_cases hd : adapter.dialect = script.dialect
  · simp [check, h, hd, bind, Except.bind]
    rfl
  · simp [check, h, hd, bind, Except.bind]
    rfl

theorem check_eq_ok_iff :
    adapter.check limits script = .ok () ↔ limits.validate = .ok () ∧ adapter.dialect = script.dialect := by
  cases hlimits : limits.validate with
  | error failure => simp [check_of_invalid hlimits]
  | ok => simp [check_of_valid hlimits]

theorem execute_of_refused (h : adapter.check limits script = .error failure) :
    adapter.execute limits bindings script = ⟨[], some (.error failure)⟩ := by
  simp [execute, h]

theorem execute_of_checked (h : adapter.check limits script = .ok ()) :
    adapter.execute limits bindings script =
      ⟨(adapter.run script bindings).events ++
          ((limits.outcomeOf (adapter.run script bindings)).map (executionEvent script)).toList,
        limits.outcomeOf (adapter.run script bindings)⟩ := by
  simp [execute, h]

end Adapter

namespace Snippet

variable {s : Snippet} {adapter : Adapter} {limits : Limits} {bindings : Bindings}

theorem id_of_transform {script : Script} (h : s.transform = .ok script) : script.snippetId = s.id := by
  obtain ⟨-, passages, -, -, -, -, rfl, -⟩ := transform_ok h
  rfl

/-- What is wrong with the source, if no script can be made of it. -/
def fault? (s : Snippet) : Option Fault :=
  match s.transform with
  | .error fault => some fault
  | .ok _ => none

theorem evaluate_of_fault {fault : Fault} (h : s.transform = .error fault) :
    s.evaluate adapter limits bindings = ⟨s.editEvents, .error (.fault fault)⟩ := by
  simp [evaluate, transformWatched, transformTraced, h, Traced.bind, Traced.pure]

theorem evaluate_of_script {script : Script} (h : s.transform = .ok script) :
    s.evaluate adapter limits bindings =
      ⟨s.editEvents ++ s.transformFinishedEvent script :: (adapter.execute limits bindings script).events,
        match (adapter.execute limits bindings script).value with
        | none => .error .brokenOff
        | some outcome => outcome.mapError (.execution s.id)⟩ := by
  simp only [evaluate, transformWatched, transformTraced, h, Traced.bind]
  rcases (adapter.execute limits bindings script).value with _ | failure | values <;> simp [Traced.pure] <;> rfl

end Snippet

namespace Challenge

section

variable (c : Challenge) (adapter : Adapter) (limits : Limits)

def run? : Option Run := c.snippet.transform.toOption.map (adapter.run · c.bindings)

/-- The values that the run ends with, however long it takes and however many they are. -/
def produced? : Option (List Json) := ((c.run? adapter).bind (·.outcome)).bind Except.toOption

def keyObjection? : Option VerifyFailure :=
  if c.answers = [] then some (.fault (.defect (.missingKey c.id))) else none

def sourceObjection? : Option VerifyFailure := c.snippet.fault?.map .fault

def limitsObjection? : Option VerifyFailure :=
  match limits.validate with
  | .error failure => some (.execution c.id failure)
  | .ok () => none

def dialectObjection? : Option VerifyFailure :=
  if adapter.dialect = c.dialect then none else some (.execution c.id (.noAdapter c.dialect))

/-- A run that takes too long has timed out, whatever it would have come to. -/
def runObjection? : Option VerifyFailure :=
  (c.run? adapter).bind fun run ↦
    if limits.timeout < run.delay then some (.execution c.id (.timedOut limits.timeout))
    else
      match run.outcome with
      | none => some .brokenOff
      | some (.error failure) => some (.execution c.id failure)
      | some (.ok _) => none

def countObjection? : Option VerifyFailure :=
  (c.produced? adapter).bind fun values ↦
    if limits.maxValues < values.length then
      some (.execution c.id (.tooManyValues values.length limits.maxValues))
    else none

def answerObjection? : Option VerifyFailure :=
  (c.produced? adapter).bind fun values ↦ (mismatch? c.expected values).map (.mismatch c.id)

/-- What the stages have against a verification, in their order, each by itself. -/
def objections : List (Option VerifyFailure) :=
  [c.keyObjection?, c.sourceObjection?, c.limitsObjection? limits, c.dialectObjection? adapter,
    c.runObjection? adapter limits, c.countObjection? adapter limits, c.answerObjection? adapter]

def firstObjection? : Option VerifyFailure := (c.objections adapter limits).reduceOption.head?

def report (values : List Json) : Report := ⟨c.id, c.dialect, c.snippet.digest, c.expected, values⟩

def inSpan (events : List Event) : List Logged := events.map (⟨·, some (c.id, c.dialect)⟩)

end

variable {c : Challenge} {adapter : Adapter} {limits : Limits} {script : Script} {values : List Json}

theorem verify_of_no_answers (h : c.answers = []) :
    c.verify adapter limits = ([], .error (.fault (.defect (.missingKey c.id)))) := by
  simp [verify, key, h]

theorem verify_of_answers (h : c.answers ≠ []) :
    c.verify adapter limits =
      match (c.snippet.evaluate adapter limits c.bindings).value with
      | .error failure => (c.inSpan (c.snippet.evaluate adapter limits c.bindings).events, .error failure)
      | .ok actual =>
        (c.inSpan (c.snippet.evaluate adapter limits c.bindings).events ++ [⟨c.verificationEvent actual, none⟩],
          c.judge actual) := by
  simp only [verify, key, List.isEmpty_iff, h, if_false]
  rfl

theorem verify_of_fault {fault : Fault} (h : c.answers ≠ []) (hs : c.snippet.transform = .error fault) :
    c.verify adapter limits = (c.inSpan c.snippet.editEvents, .error (.fault fault)) := by
  rw [verify_of_answers h, Snippet.evaluate_of_fault hs]

theorem verify_of_script (h : c.answers ≠ []) (hs : c.snippet.transform = .ok script) :
    c.verify adapter limits =
      match (adapter.execute limits c.bindings script).value with
      | none =>
        (c.inSpan (c.snippet.editEvents ++ c.snippet.transformFinishedEvent script ::
            (adapter.execute limits c.bindings script).events), .error .brokenOff)
      | some (.error failure) =>
        (c.inSpan (c.snippet.editEvents ++ c.snippet.transformFinishedEvent script ::
            (adapter.execute limits c.bindings script).events), .error (.execution c.id failure))
      | some (.ok actual) =>
        (c.inSpan (c.snippet.editEvents ++ c.snippet.transformFinishedEvent script ::
            (adapter.execute limits c.bindings script).events) ++ [⟨c.verificationEvent actual, none⟩],
          c.judge actual) := by
  rw [verify_of_answers h, Snippet.evaluate_of_script hs]
  rcases (adapter.execute limits c.bindings script).value with _ | failure | values <;> rfl

theorem run?_of_script (hs : c.snippet.transform = .ok script) :
    c.run? adapter = some (adapter.run script c.bindings) := by
  simp [run?, hs, Except.toOption]

theorem produced?_of_run {run : Run} (hrun : c.run? adapter = some run) :
    c.produced? adapter = run.outcome.bind Except.toOption := by
  rw [produced?, hrun]
  rfl

theorem refusal_eq (hscript : script.dialect = c.dialect) :
    (c.limitsObjection? limits).or (c.dialectObjection? adapter) =
      match adapter.check limits script with
      | .error failure => some (.execution c.id failure)
      | .ok () => none := by
  cases hlimits : limits.validate with
  | error failure => simp [limitsObjection?, hlimits, Adapter.check_of_invalid hlimits]
  | ok =>
    rw [Adapter.check_of_valid hlimits, hscript]
    by_cases hd : adapter.dialect = c.dialect
    · simp [limitsObjection?, hlimits, dialectObjection?, hd]
    · simp [limitsObjection?, hlimits, dialectObjection?, hd]

theorem stop_eq {run : Run} (hrun : c.run? adapter = some run) :
    (c.runObjection? adapter limits).or (c.countObjection? adapter limits) =
      match limits.outcomeOf run with
      | none => some .brokenOff
      | some (.error failure) => some (.execution c.id failure)
      | some (.ok _) => none := by
  rw [runObjection?, countObjection?, produced?, hrun, Option.bind_some, Option.bind_some]
  by_cases htime : limits.timeout < run.delay
  · simp [Limits.outcomeOf_of_late htime, htime]
  · have hdelay := Nat.not_lt.mp htime
    rcases houtcome : run.outcome with _ | failure | values
    · simp [Limits.outcomeOf_of_broken hdelay houtcome, htime]
    · simp [Limits.outcomeOf_of_failure hdelay houtcome, htime, Except.toOption]
    · rw [Limits.outcomeOf_of_values hdelay houtcome]
      by_cases hcount : limits.maxValues < values.length
      · simp [hcount, htime, Except.toOption]
      · simp [hcount, htime, Except.toOption]

theorem produced?_of_outcomeOf {run : Run} (hrun : c.run? adapter = some run)
    (h : limits.outcomeOf run = some (.ok values)) : c.produced? adapter = some values := by
  rw [produced?_of_run hrun, (Limits.outcomeOf_eq_ok_iff.mp h).2.1]
  rfl

theorem head?_reduceOption_cons {α : Type} (a : Option α) (l : List (Option α)) :
    (a :: l).reduceOption.head? = a.or l.reduceOption.head? := by
  cases a <;> rfl

theorem firstObjection?_eq (c : Challenge) (adapter : Adapter) (limits : Limits) :
    c.firstObjection? adapter limits =
      c.keyObjection?.or (c.sourceObjection?.or (((c.limitsObjection? limits).or (c.dialectObjection? adapter)).or
        (((c.runObjection? adapter limits).or (c.countObjection? adapter limits)).or
          (c.answerObjection? adapter)))) := by
  simp only [firstObjection?, objections, head?_reduceOption_cons, List.reduceOption_nil, List.head?_nil,
    Option.or_none,
    Option.or_assoc]

theorem firstObjection?_of_no_answers (h : c.answers = []) :
    c.firstObjection? adapter limits = some (.fault (.defect (.missingKey c.id))) := by
  simp [firstObjection?_eq, keyObjection?, h]

theorem firstObjection?_of_fault {fault : Fault} (h : c.answers ≠ []) (hs : c.snippet.transform = .error fault) :
    c.firstObjection? adapter limits = some (.fault fault) := by
  simp [firstObjection?_eq, keyObjection?, h, sourceObjection?, Snippet.fault?, hs]

theorem firstObjection?_of_script (h : c.answers ≠ []) (hs : c.snippet.transform = .ok script) :
    c.firstObjection? adapter limits =
      match adapter.check limits script with
      | .error failure => some (.execution c.id failure)
      | .ok () =>
        match limits.outcomeOf (adapter.run script c.bindings) with
        | none => some .brokenOff
        | some (.error failure) => some (.execution c.id failure)
        | some (.ok values) => (mismatch? c.expected values).map (.mismatch c.id) := by
  have hkey : c.keyObjection? = none := if_neg h
  have hsource : c.sourceObjection? = none := by simp [sourceObjection?, Snippet.fault?, hs]
  have hrun : c.run? adapter = some (adapter.run script c.bindings) := run?_of_script hs
  rw [firstObjection?_eq, hkey, hsource, refusal_eq (Snippet.dialect_of_transform hs), stop_eq hrun]
  cases adapter.check limits script with
  | error failure => rfl
  | ok =>
    rcases houtcome : limits.outcomeOf (adapter.run script c.bindings) with _ | failure | values
    · rfl
    · rfl
    · simp [answerObjection?, produced?_of_outcomeOf hrun houtcome]

/-- A verification fails with the first objection. -/
theorem verify_value (c : Challenge) (adapter : Adapter) (limits : Limits) :
    (c.verify adapter limits).2 =
      match c.firstObjection? adapter limits with
      | some failure => .error failure
      | none => .ok (c.report ((c.produced? adapter).getD [])) := by
  by_cases hkey : c.answers = []
  · rw [verify_of_no_answers hkey, firstObjection?_of_no_answers hkey]
  cases hs : c.snippet.transform with
  | error fault => rw [verify_of_fault hkey hs, firstObjection?_of_fault hkey hs]
  | ok script =>
    rw [verify_of_script hkey hs, firstObjection?_of_script hkey hs]
    cases hcheck : adapter.check limits script with
    | error failure => rw [Adapter.execute_of_refused hcheck]
    | ok =>
      rw [Adapter.execute_of_checked hcheck]
      rcases houtcome : limits.outcomeOf (adapter.run script c.bindings) with _ | failure | values
      · rfl
      · rfl
      · have hvalues := produced?_of_outcomeOf (run?_of_script hs) houtcome
        cases hm : mismatch? c.expected values with
        | none => simp [judge, hm, report, hvalues]
        | some difference => simp [judge, hm]

theorem firstObjection?_eq_none_iff : c.firstObjection? adapter limits = none ↔
    c.answers ≠ [] ∧ ∃ script values, c.snippet.transform = .ok script ∧ limits.validate = .ok () ∧
      adapter.dialect = c.dialect ∧ (adapter.run script c.bindings).delay ≤ limits.timeout ∧
      (adapter.run script c.bindings).outcome = some (.ok values) ∧ values.length ≤ limits.maxValues ∧
      mismatch? c.expected values = none := by
  by_cases hkey : c.answers = []
  · simp [firstObjection?_of_no_answers hkey, hkey]
  cases hs : c.snippet.transform with
  | error fault => simp [firstObjection?_of_fault hkey hs]
  | ok script =>
    have hscript : script.dialect = c.dialect := Snippet.dialect_of_transform hs
    rw [firstObjection?_of_script hkey hs]
    constructor
    · intro h
      split at h
      · cases h
      · next hcheck =>
        obtain ⟨hvalid, hdialect⟩ := Adapter.check_eq_ok_iff.mp hcheck
        split at h
        · cases h
        · cases h
        · next values houtcome =>
          obtain ⟨htime, hrun, hcount⟩ := Limits.outcomeOf_eq_ok_iff.mp houtcome
          exact ⟨hkey, script, values, rfl, hvalid, hdialect.trans hscript, htime, hrun, hcount,
            Option.map_eq_none_iff.mp h⟩
    · rintro ⟨-, script, values, h, hvalid, hdialect, htime, hrun, hcount, hequal⟩
      cases h
      rw [Adapter.check_eq_ok_iff.mpr ⟨hvalid, hdialect.trans hscript.symm⟩]
      dsimp only
      rw [Limits.outcomeOf_eq_ok_iff.mpr ⟨htime, hrun, hcount⟩]
      exact Option.map_eq_none_iff.mpr hequal

theorem isDefect_of_firstObjection? {failure : VerifyFailure} (hscan : c.snippet.transform ≠ .error .unscannable)
    (h : c.firstObjection? adapter limits = some failure) :
    failure.isDefect = true ↔ c.answers = [] ∨ ∃ fault, c.snippet.transform = .error fault := by
  by_cases hkey : c.answers = []
  · obtain rfl := Option.some.inj ((firstObjection?_of_no_answers hkey).symm.trans h)
    simp [VerifyFailure.isDefect, hkey]
  cases hs : c.snippet.transform with
  | error fault =>
    obtain rfl := Option.some.inj ((firstObjection?_of_fault hkey hs).symm.trans h)
    cases fault with
    | unscannable => exact absurd hs hscan
    | defect defect => simp [VerifyFailure.isDefect]
  | ok script =>
    have hlater : failure.isDefect = false := by
      rw [firstObjection?_of_script hkey hs] at h
      split at h
      · obtain rfl := Option.some.inj h
        rfl
      · split at h
        · obtain rfl := Option.some.inj h
          rfl
        · obtain rfl := Option.some.inj h
          rfl
        · obtain ⟨difference, -, rfl⟩ := Option.map_eq_some_iff.mp h
          rfl
    simp [hlater, hkey]

/-- The stages before the run let the challenge pass. -/
def Begins (c : Challenge) (adapter : Adapter) (limits : Limits) : Prop :=
  c.answers ≠ [] ∧ (∃ script, c.snippet.transform = .ok script) ∧ limits.validate = .ok () ∧
    adapter.dialect = c.dialect

theorem begins_of_checked (hkey : c.answers ≠ []) (hs : c.snippet.transform = .ok script)
    (h : adapter.check limits script = .ok ()) : c.Begins adapter limits := by
  obtain ⟨hvalid, hdialect⟩ := Adapter.check_eq_ok_iff.mp h
  exact ⟨hkey, ⟨script, hs⟩, hvalid, hdialect.trans (Snippet.dialect_of_transform hs)⟩

theorem verify_marked_of_not_begins (mark : Event) (h : ¬ c.Begins adapter limits) :
    c.verify (adapter.marked mark) limits = c.verify adapter limits := by
  by_cases hkey : c.answers = []
  · rw [verify_of_no_answers hkey, verify_of_no_answers hkey]
  cases hs : c.snippet.transform with
  | error fault => rw [verify_of_fault hkey hs, verify_of_fault hkey hs]
  | ok script =>
    cases hcheck : adapter.check limits script with
    | ok => exact absurd (begins_of_checked hkey hs hcheck) h
    | error failure =>
      have hmarked : Adapter.check (adapter.marked mark) limits script = .error failure := hcheck
      rw [verify_of_script hkey hs, verify_of_script hkey hs, Adapter.execute_of_refused hcheck,
        Adapter.execute_of_refused hmarked]

theorem verify_marked_of_begins (mark : Event) (h : c.Begins adapter limits) :
    ∃ before after, (c.verify adapter limits).1 = before ++ after ∧
      c.verify (adapter.marked mark) limits =
        (before ++ ⟨mark, some (c.id, c.dialect)⟩ :: after, (c.verify adapter limits).2) := by
  obtain ⟨hkey, ⟨script, hs⟩, hvalid, hdialect⟩ := h
  have hcheck : adapter.check limits script = .ok () :=
    Adapter.check_eq_ok_iff.mpr ⟨hvalid, hdialect.trans (Snippet.dialect_of_transform hs).symm⟩
  have hmarked : Adapter.check (adapter.marked mark) limits script = .ok () := hcheck
  obtain ⟨outcome, houtcome⟩ : ∃ outcome, limits.outcomeOf (adapter.run script c.bindings) = outcome := ⟨_, rfl⟩
  have hsame : limits.outcomeOf ((adapter.marked mark).run script c.bindings) = outcome := houtcome
  rw [verify_of_script hkey hs, verify_of_script hkey hs, Adapter.execute_of_checked hcheck,
    Adapter.execute_of_checked hmarked, houtcome, hsame]
  refine ⟨c.inSpan (c.snippet.editEvents ++ [c.snippet.transformFinishedEvent script]), ?_⟩
  rcases outcome with _ | failure | values
  · refine ⟨c.inSpan (adapter.run script c.bindings).events, ?_, ?_⟩
    · simp [inSpan]
    · simp [inSpan, Adapter.marked]
  · refine ⟨c.inSpan ((adapter.run script c.bindings).events ++ [executionEvent script (.error failure)]), ?_, ?_⟩
    · simp [inSpan]
    · simp [inSpan, Adapter.marked]
  · refine ⟨c.inSpan ((adapter.run script c.bindings).events ++ [executionEvent script (.ok values)]) ++
      [⟨c.verificationEvent values, none⟩], ?_, ?_⟩
    · simp [inSpan]
    · simp [inSpan, Adapter.marked]

/-- A verification succeeds where no stage objects to it, and otherwise fails with the objection of the first stage
that has one. The adapter makes one run where the stages before it let the challenge pass, and none where they do
not. -/
theorem verify_staged (c : Challenge) (adapter : Adapter) (limits : Limits)
    (hscan : c.snippet.transform ≠ .error .unscannable) :
    (∀ report, (c.verify adapter limits).2 = .ok report ↔
      c.answers ≠ [] ∧ ∃ script values, c.snippet.transform = .ok script ∧ limits.validate = .ok () ∧
        adapter.dialect = c.dialect ∧ (adapter.run script c.bindings).delay ≤ limits.timeout ∧
        (adapter.run script c.bindings).outcome = some (.ok values) ∧ values.length ≤ limits.maxValues ∧
        mismatch? c.expected values = none ∧ report = c.report values) ∧
    (∀ failure, (c.verify adapter limits).2 = .error failure ↔ c.firstObjection? adapter limits = some failure) ∧
    (∀ failure, (c.verify adapter limits).2 = .error failure →
      (failure.isDefect = true ↔ c.answers = [] ∨ ∃ fault, c.snippet.transform = .error fault)) ∧
    ∀ mark, (¬ c.Begins adapter limits → c.verify (adapter.marked mark) limits = c.verify adapter limits) ∧
      (c.Begins adapter limits → ∃ before after, (c.verify adapter limits).1 = before ++ after ∧
        c.verify (adapter.marked mark) limits =
          (before ++ ⟨mark, some (c.id, c.dialect)⟩ :: after, (c.verify adapter limits).2)) := by
  have hfails {failure : VerifyFailure} :
      (c.verify adapter limits).2 = .error failure ↔ c.firstObjection? adapter limits = some failure := by
    rw [verify_value]
    cases c.firstObjection? adapter limits <;> simp
  refine ⟨fun report ↦ ?_, fun failure ↦ hfails, fun failure h ↦ isDefect_of_firstObjection? hscan (hfails.mp h),
    fun mark ↦ ⟨verify_marked_of_not_begins mark, verify_marked_of_begins mark⟩⟩
  constructor
  · intro h
    have hnone : c.firstObjection? adapter limits = none := by
      rw [verify_value] at h
      cases hfirst : c.firstObjection? adapter limits with
      | none => rfl
      | some failure => simp [hfirst] at h
    obtain ⟨hkey, script, values, hs, hvalid, hdialect, htime, hrun, hcount, hequal⟩ :=
      firstObjection?_eq_none_iff.mp hnone
    refine ⟨hkey, script, values, hs, hvalid, hdialect, htime, hrun, hcount, hequal, ?_⟩
    rw [verify_value, hnone, produced?_of_run (run?_of_script hs), hrun] at h
    exact (Except.ok.inj h).symm
  · rintro ⟨hkey, script, values, hs, hvalid, hdialect, htime, hrun, hcount, hequal, rfl⟩
    have hnone := firstObjection?_eq_none_iff.mpr
      ⟨hkey, script, values, hs, hvalid, hdialect, htime, hrun, hcount, hequal⟩
    rw [verify_value, hnone, produced?_of_run (run?_of_script hs), hrun]
    rfl

def printsTwo : Challenge where
  id := "two"
  dialect := .javaScript
  source := "function main() \x7b\n  console.log(2);\n\x7d\n".toList
  answers := ["2.0"]

def lateAdapter : Adapter := ⟨.javaScript, fun _ _ ↦ { delay := 20, outcome := some (.ok [.int 2, .int 3]) }⟩

theorem verify_staged_two : printsTwo.snippet.transform ≠ .error .unscannable ∧
    (printsTwo.verify ⟨.javaScript, fun _ _ ↦ { outcome := some (.ok [.int 2]) }⟩ {}).2 =
      .ok (printsTwo.report [.int 2]) ∧
    (printsTwo.verify lateAdapter { timeout := 10, maxValues := 1 }).2 = .error (.execution "two" (.timedOut 10)) := by
  have hdialect : printsTwo.snippet.transform.toOption.map (·.dialect) = some .javaScript := by decide +kernel
  cases hs : printsTwo.snippet.transform with
  | error fault => simp [hs, Except.toOption] at hdialect
  | ok script =>
    have hscan : printsTwo.snippet.transform ≠ .error .unscannable := by simp [hs]
    have hequal : (mismatch? printsTwo.expected [.int 2]).isNone = true := by decide +kernel
    refine ⟨by simp, ?_, ?_⟩
    · refine ((verify_staged printsTwo _ {} hscan).1 _).mpr ⟨by decide, script, _, hs, rfl, rfl, Nat.zero_le _, rfl, ?_⟩
      exact ⟨by decide, Option.isNone_iff_eq_none.mp hequal, rfl⟩
    · refine ((verify_staged printsTwo lateAdapter _ hscan).2.1 _).mpr ?_
      have hcheck : lateAdapter.check { timeout := 10, maxValues := 1 } script = .ok () :=
        Adapter.check_eq_ok_iff.mpr ⟨rfl, (Snippet.dialect_of_transform hs).symm⟩
      rw [firstObjection?_of_script (by decide) hs, hcheck]
      dsimp only
      rw [Limits.outcomeOf_of_late (show 10 < 20 by decide)]
      rfl

end Challenge
end AnswerKey
