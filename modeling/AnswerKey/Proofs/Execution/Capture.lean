import AnswerKey.Proofs.Execution.Marker
import AnswerKey.Proofs.Execution.Result
import AnswerKey.Proofs.Execution.Staging

namespace AnswerKey

open Text

namespace Start

def delay (host : Host) (start : Start) : Nat :=
  match host start with
  | .ended _ _ _ delay => delay
  | .notFound | .refused _ => 0

/-- The command ends well, with all of this output. -/
structure Succeeds (limits : Limits) (host : Host) (start : Start) (stdout : List UInt8) : Prop where
  ends : ∃ stderr delay, host start = .ended stdout stderr (some 0) delay
  fits : stdout.length ≤ limits.maxOutput

/-- The failures of a command; one that comes later counts only if none before it does. The number of values that a full
collector reports may be one at which the program breaks off. -/
inductive Fails (overflow : Overflow) (limits : Limits) (host : Host) (start : Start) : Option RunFailure → Prop
  | missing (h : host start = .notFound) :
      Fails overflow limits host start (some (.missingProgram start.command.program))
  | refused {reason : String} (h : host start = .refused reason) :
      Fails overflow limits host start (some (.system reason))
  | tooMuch {stdout stderr : List UInt8} {code : Option Int} {delay : Nat}
      (h : host start = .ended stdout stderr code delay)
      (hlong : limits.maxOutput < stdout.length) :
      Fails overflow limits host start (some (.tooMuchOutput limits.maxOutput))
  | full {stdout stderr : List UInt8} {code : Option Int} {delay : Nat}
      (h : host start = .ended stdout stderr code delay)
      (hshort : stdout.length ≤ limits.maxOutput) (hcode : code ≠ some 0) (hmarker : MarkerKept stderr) :
      Fails overflow limits host start ((overflow.next? limits.maxValues).map (.tooManyValues · limits.maxValues))
  | exited {stdout stderr : List UInt8} {code : Option Int} {delay : Nat}
      (h : host start = .ended stdout stderr code delay)
      (hshort : stdout.length ≤ limits.maxOutput) (hcode : code ≠ some 0) (hmarker : ¬ MarkerKept stderr) :
      Fails overflow limits host start (some (.exited code (.ofList (keptStderr stderr))))

def failure? (host : Host) (start : Start) : Option RunFailure :=
  match host start with
  | .notFound => some (.missingProgram start.command.program)
  | .refused reason => some (.system reason)
  | .ended .. => none

end Start

/-- Milliseconds that commands take one after another. -/
def Host.totalDelay (host : Host) : List Start → Nat
  | [] => 0
  | start :: starts => start.delay host + host.totalDelay starts

/-- Commands that ran in order, either up to one that fails or up to the last one, whose output is the result. -/
inductive Ran (overflow : Overflow) (limits : Limits) (host : Host) : List Start → ChildRun → Prop
  | failed {done later : List Start} {start : Start} {failure : Option RunFailure}
      (hdone : ∀ earlier ∈ done, ∃ stdout, earlier.Succeeds limits host stdout)
      (h : start.Fails overflow limits host failure) :
      Ran overflow limits host (done ++ start :: later)
        ⟨done ++ [start], host.totalDelay (done ++ [start]), failure.map .error⟩
  | succeeded {done : List Start} {last : Start} {stdout : List UInt8}
      (hdone : ∀ earlier ∈ done, ∃ stdout, earlier.Succeeds limits host stdout)
      (h : last.Succeeds limits host stdout) :
      Ran overflow limits host (done ++ [last])
        ⟨done ++ [last], host.totalDelay (done ++ [last]), some (collectedValues stdout)⟩

/-- The machine as it appears to a program that reads so many bytes of an output at most. -/
def Host.reading (most : Nat) (host : Host) : Host := fun start ↦
  match host start with
  | .ended stdout stderr code delay => .ended (stdout.take most) stderr code delay
  | launch => launch

variable {overflow : Overflow} {limits : Limits} {host : Host} {start : Start} {starts : List Start}
  {stdout stderr output : List UInt8} {code : Option Int} {failure : Option RunFailure} {run : ChildRun}
  {n most delay : Nat}

namespace Overflow

theorem next?_of_lt (h : n + 1 < wordSize) : overflow.next? n = some (n + 1) := if_pos h

theorem next?_breaks (h : n + 1 = wordSize) : Overflow.breaks.next? n = none :=
  if_neg (Nat.not_lt.mpr h.ge)

theorem next?_wraps (h : n + 1 = wordSize) : Overflow.wraps.next? n = some 0 := by
  have hzero : (n + 1) % wordSize = 0 := by rw [h, Nat.mod_self]
  rw [next?, if_neg (Nat.not_lt.mpr h.ge), hzero]

end Overflow

namespace Host

theorem exists_of_reading (h : host.reading most start = .ended output stderr code delay) :
    ∃ stdout, host start = .ended stdout stderr code delay ∧ output = stdout.take most := by
  unfold reading at h
  cases hlaunch : host start with
  | notFound => simp [hlaunch] at h
  | refused reason => simp [hlaunch] at h
  | ended stdout stderr' code' delay' =>
    simp only [hlaunch, Launch.ended.injEq] at h
    obtain ⟨rfl, rfl, rfl, rfl⟩ := h
    exact ⟨stdout, rfl, rfl⟩

theorem eq_notFound_of_reading (h : host.reading most start = .notFound) : host start = .notFound := by
  unfold reading at h
  cases hlaunch : host start <;> simp_all

theorem eq_refused_of_reading {reason : String} (h : host.reading most start = .refused reason) :
    host start = .refused reason := by
  unfold reading at h
  cases hlaunch : host start <;> simp_all

theorem delay_reading : start.delay (host.reading most) = start.delay host := by
  unfold Start.delay reading
  cases host start <;> rfl

theorem totalDelay_reading : (host.reading most).totalDelay starts = host.totalDelay starts := by
  induction starts with
  | nil => rfl
  | cons start starts ih => rw [totalDelay, totalDelay, delay_reading, ih]

end Host

namespace Start

theorem succeeds_or_fails (overflow : Overflow) (limits : Limits) (host : Host) (start : Start) :
    (∃ stdout, start.Succeeds limits host stdout) ∨ ∃ failure, start.Fails overflow limits host failure := by
  cases h : host start with
  | notFound => exact .inr ⟨_, .missing h⟩
  | refused reason => exact .inr ⟨_, .refused h⟩
  | ended stdout stderr code delay =>
    rcases Nat.lt_or_ge limits.maxOutput stdout.length with hlong | hshort
    · exact .inr ⟨_, .tooMuch h hlong⟩
    · by_cases hcode : code = some 0
      · exact .inl ⟨stdout, ⟨stderr, delay, hcode ▸ h⟩, hshort⟩
      · by_cases hmarker : MarkerKept stderr
        · exact .inr ⟨_, .full h hshort hcode hmarker⟩
        · exact .inr ⟨_, .exited h hshort hcode hmarker⟩

theorem Succeeds.unique (h : start.Succeeds limits host stdout) (h' : start.Succeeds limits host output) :
    stdout = output := by
  obtain ⟨stderr, delay, hends⟩ := h.ends
  obtain ⟨stderr', delay', hends'⟩ := h'.ends
  exact (Launch.ended.inj (hends.symm.trans hends')).1

theorem Succeeds.not_fails (h : start.Succeeds limits host stdout) : ¬ start.Fails overflow limits host failure := by
  obtain ⟨⟨stderr, delay, hends⟩, hfits⟩ := h
  intro hfails
  cases hfails with
  | missing h => cases hends.symm.trans h
  | refused h => cases hends.symm.trans h
  | tooMuch h hlong =>
    cases hends.symm.trans h
    exact Nat.not_lt.mpr hfits hlong
  | full h hshort hcode =>
    cases hends.symm.trans h
    exact hcode rfl
  | exited h hshort hcode =>
    cases hends.symm.trans h
    exact hcode rfl

theorem Fails.unique {other : Option RunFailure} (h : start.Fails overflow limits host failure)
    (h' : start.Fails overflow limits host other) : failure = other := by
  cases h <;> cases h' <;> simp_all <;> omega

theorem capture_of_succeeds (hnext : overflow.next? limits.maxOutput = some most)
    (h : start.Succeeds limits (host.reading most) output) :
    start.capture overflow limits host = ⟨start.delay host, some (.ok output)⟩ := by
  obtain ⟨⟨stderr, delay, hends⟩, hfits⟩ := h
  obtain ⟨stdout, hended, rfl⟩ := Host.exists_of_reading hends
  simp only [capture, Start.delay, hended, hnext, if_neg (Nat.not_lt.mpr hfits), if_true]

theorem capture_of_fails (hnext : overflow.next? limits.maxOutput = some most)
    (h : start.Fails overflow limits (host.reading most) failure) :
    start.capture overflow limits host = ⟨start.delay host, failure.map .error⟩ := by
  cases h with
  | missing h => simp only [capture, Start.delay, Host.eq_notFound_of_reading h, Option.map_some]
  | refused h => simp only [capture, Start.delay, Host.eq_refused_of_reading h, Option.map_some]
  | tooMuch h hlong =>
    obtain ⟨stdout, hended, rfl⟩ := Host.exists_of_reading h
    simp only [capture, Start.delay, hended, hnext, if_pos hlong, Option.map_some]
  | full h hshort hcode hmarker =>
    obtain ⟨stdout, hended, rfl⟩ := Host.exists_of_reading h
    simp only [capture, Start.delay, hended, hnext, if_neg (Nat.not_lt.mpr hshort), if_neg hcode,
      exitFailure?_of_markerKept hmarker]
  | exited h hshort hcode hmarker =>
    obtain ⟨stdout, hended, rfl⟩ := Host.exists_of_reading h
    simp only [capture, Start.delay, hended, hnext, if_neg (Nat.not_lt.mpr hshort), if_neg hcode,
      exitFailure?_of_not_markerKept hmarker, Option.map_some]

theorem capture_of_none (hnext : overflow.next? limits.maxOutput = none) :
    start.capture overflow limits host = ⟨0, (start.failure? host).map .error⟩ := by
  unfold capture failure?
  cases host start with
  | notFound => rfl
  | refused reason => rfl
  | ended stdout stderr code delay =>
    dsimp only
    rw [hnext]
    rfl

theorem Succeeds.reading (h : start.Succeeds limits host stdout) (most : Nat) :
    start.Succeeds limits (host.reading most) (stdout.take most) := by
  obtain ⟨⟨stderr, delay, hends⟩, hfits⟩ := h
  refine ⟨⟨stderr, delay, ?_⟩, (List.length_take_le' _ _).trans hfits⟩
  rw [Host.reading, hends]

/-- One byte more than the limit is enough to tell that there is too much. -/
theorem Succeeds.of_reading (h : start.Succeeds limits (host.reading (limits.maxOutput + 1)) output) :
    start.Succeeds limits host output := by
  obtain ⟨⟨stderr, delay, hends⟩, hfits⟩ := h
  obtain ⟨stdout, hended, rfl⟩ := Host.exists_of_reading hends
  have hlength : stdout.length ≤ limits.maxOutput := by
    rw [List.length_take] at hfits
    omega
  rw [List.take_of_length_le (Nat.le_succ_of_le hlength)]
  exact ⟨⟨stderr, delay, hended⟩, hlength⟩

theorem Fails.of_reading (h : start.Fails overflow limits (host.reading (limits.maxOutput + 1)) failure) :
    start.Fails overflow limits host failure := by
  cases h with
  | missing h => exact .missing (Host.eq_notFound_of_reading h)
  | refused h => exact .refused (Host.eq_refused_of_reading h)
  | tooMuch h hlong =>
    obtain ⟨stdout, hended, rfl⟩ := Host.exists_of_reading h
    exact .tooMuch hended (hlong.trans_le (List.length_take_le' _ _))
  | full h hshort hcode hmarker =>
    obtain ⟨stdout, hended, rfl⟩ := Host.exists_of_reading h
    exact .full hended (by rw [List.length_take] at hshort; omega) hcode hmarker
  | exited h hshort hcode hmarker =>
    obtain ⟨stdout, hended, rfl⟩ := Host.exists_of_reading h
    exact .exited hended (by rw [List.length_take] at hshort; omega) hcode hmarker

end Start

namespace Ran

theorem cons (h : start.Succeeds limits host stdout) (hran : Ran overflow limits host starts run) :
    Ran overflow limits host (start :: starts) ⟨start :: run.started, start.delay host + run.delay, run.outcome⟩ := by
  cases hran with
  | failed hdone hfails =>
    exact .failed (List.forall_mem_cons.mpr ⟨⟨stdout, h⟩, hdone⟩) hfails
  | succeeded hdone hlast =>
    exact .succeeded (List.forall_mem_cons.mpr ⟨⟨stdout, h⟩, hdone⟩) hlast

theorem of_reading (h : Ran overflow limits (host.reading (limits.maxOutput + 1)) starts run) :
    Ran overflow limits host starts run := by
  cases h with
  | failed hdone hfails =>
    rw [Host.totalDelay_reading]
    exact .failed (fun c hc ↦ (hdone c hc).imp fun _ h ↦ h.of_reading) hfails.of_reading
  | succeeded hdone hlast =>
    rw [Host.totalDelay_reading]
    exact .succeeded (fun c hc ↦ (hdone c hc).imp fun _ h ↦ h.of_reading) hlast.of_reading

theorem cons_cases (h : Ran overflow limits host (start :: starts) run) :
    (∃ failure, start.Fails overflow limits host failure ∧ run = ⟨[start], start.delay host, failure.map .error⟩) ∨
      ∃ stdout, start.Succeeds limits host stdout ∧
        (starts = [] ∧ run = ⟨[start], start.delay host, some (collectedValues stdout)⟩ ∨
          ∃ rest, Ran overflow limits host starts rest ∧
            run = ⟨start :: rest.started, start.delay host + rest.delay, rest.outcome⟩) := by
  generalize hstarts : start :: starts = all at h
  cases h with
  | @failed done later other failure hdone hfails =>
    cases done with
    | nil =>
      obtain ⟨rfl, rfl⟩ := List.cons.inj hstarts
      exact .inl ⟨failure, hfails, rfl⟩
    | cons first done =>
      obtain ⟨rfl, rfl⟩ := List.cons.inj hstarts
      obtain ⟨⟨stdout, hfirst⟩, hdone⟩ := List.forall_mem_cons.mp hdone
      exact .inr ⟨stdout, hfirst, .inr ⟨_, .failed hdone hfails, rfl⟩⟩
  | @succeeded done last stdout hdone hlast =>
    cases done with
    | nil =>
      obtain ⟨rfl, rfl⟩ := List.cons.inj hstarts
      exact .inr ⟨stdout, hlast, .inl ⟨rfl, rfl⟩⟩
    | cons first done =>
      obtain ⟨rfl, rfl⟩ := List.cons.inj hstarts
      obtain ⟨⟨stdout, hfirst⟩, hdone⟩ := List.forall_mem_cons.mp hdone
      exact .inr ⟨stdout, hfirst, .inr ⟨_, .succeeded hdone hlast, rfl⟩⟩

theorem ne_nil (h : Ran overflow limits host starts run) : starts ≠ [] := by
  cases h <;> simp

theorem outcome_of_succeeds (hran : Ran overflow limits host starts run)
    (h : ∀ start ∈ starts, start.Succeeds limits host output) : run.outcome = some (collectedValues output) := by
  cases hran with
  | failed hdone hfails =>
    have hlast := h _ (List.mem_append_right _ List.mem_cons_self)
    exact absurd hfails hlast.not_fails
  | succeeded hdone hlast => rw [hlast.unique (h _ (List.mem_append_right _ List.mem_cons_self))]

theorem unique {other : ChildRun} (h : Ran overflow limits host starts run)
    (h' : Ran overflow limits host starts other) : run = other := by
  induction starts generalizing run other with
  | nil => exact absurd rfl h.ne_nil
  | cons start starts ih =>
    rcases h.cons_cases with ⟨failure, hfails, rfl⟩ | ⟨stdout, hfirst, hrest⟩
    · rcases h'.cons_cases with ⟨failure', hfails', rfl⟩ | ⟨stdout', hfirst', -⟩
      · rw [hfails.unique hfails']
      · exact absurd hfails hfirst'.not_fails
    · rcases h'.cons_cases with ⟨failure', hfails', -⟩ | ⟨stdout', hfirst', hrest'⟩
      · exact absurd hfails' hfirst.not_fails
      · obtain rfl := hfirst.unique hfirst'
        rcases hrest with ⟨rfl, rfl⟩ | ⟨rest, hran, rfl⟩
        · rcases hrest' with ⟨-, rfl⟩ | ⟨rest', hran', -⟩
          · rfl
          · exact absurd rfl hran'.ne_nil
        · rcases hrest' with ⟨rfl, -⟩ | ⟨rest', hran', rfl⟩
          · exact absurd rfl hran.ne_nil
          · rw [ih hran hran']

theorem outcome_ne_none (hvalues : limits.maxValues + 1 < wordSize) (h : Ran overflow limits host starts run) :
    run.outcome ≠ none := by
  cases h with
  | succeeded => exact Option.some_ne_none _
  | failed hdone hfails =>
    cases hfails with
    | full =>
      rw [Overflow.next?_of_lt hvalues]
      exact Option.some_ne_none _
    | missing | refused | tooMuch | exited => exact Option.some_ne_none _

end Ran

def Session.toRun (session : Session) : ChildRun :=
  ⟨session.started, session.delay, session.result.map fun result ↦ result.bind collectedValues⟩

theorem runStarts_of_failure (h : start.capture overflow limits host = ⟨delay, failure.map .error⟩)
    (output : List UInt8) (starts : List Start) :
    runStarts overflow limits host output (start :: starts) = ⟨[start], delay, failure.map .error⟩ := by
  rw [runStarts, h]
  cases failure <;> rfl

/-- What the commands give is what they give to a program that reads so much of every output. -/
theorem ran_runStarts (hnext : overflow.next? limits.maxOutput = some most) (hne : starts ≠ [])
    (output : List UInt8) :
    Ran overflow limits (host.reading most) starts (runStarts overflow limits host output starts).toRun := by
  induction starts generalizing output with
  | nil => exact absurd rfl hne
  | cons start starts ih =>
    have hdelay : start.delay host = start.delay (host.reading most) := Host.delay_reading.symm
    rcases start.succeeds_or_fails overflow limits (host.reading most) with ⟨stdout, h⟩ | ⟨failure, h⟩
    · simp only [runStarts, Start.capture_of_succeeds hnext h, Session.toRun]
      rw [hdelay]
      cases starts with
      | nil => exact .succeeded (List.forall_mem_nil _) h
      | cons next starts => exact (ih (List.cons_ne_nil _ _) stdout).cons h
    · have hran : Ran overflow limits (host.reading most) (start :: starts)
          ⟨[start], start.delay (host.reading most), failure.map .error⟩ :=
        .failed (List.forall_mem_nil _) h
      rw [runStarts_of_failure (Start.capture_of_fails hnext h), hdelay]
      cases failure <;> exact hran

namespace Script

variable {script : Script} {bindings : Bindings} {programs : Programs} {directory : String} {staging : Staging}

theorem starts_ne_nil (h : script.stage bindings n programs directory = .ok staging) : staging.starts ≠ [] := by
  rw [Staging.starts, ne_eq, List.map_eq_nil_iff]
  unfold stage at h
  split at h
  · obtain rfl := Except.ok.inj h
    exact List.cons_ne_nil _ _
  · obtain rfl := Except.ok.inj h
    exact List.cons_ne_nil _ _
  · split at h
    · split at h
      · cases h
      · obtain rfl := Except.ok.inj h
        exact List.cons_ne_nil _ _
    · cases h

section Staged

variable (hstage : script.stage bindings limits.maxValues programs runDirectory = .ok staging)

include hstage

theorem runChildren_of_stage : script.runChildren overflow programs limits host bindings =
    (runStarts overflow limits host [] staging.starts).toRun := by
  simp only [runChildren, hstage, Session.toRun]

theorem ran_of_next (hnext : overflow.next? limits.maxOutput = some most) :
    Ran overflow limits (host.reading most) staging.starts
      (script.runChildren overflow programs limits host bindings) := by
  rw [runChildren_of_stage hstage]
  exact ran_runStarts hnext (starts_ne_nil hstage) []

theorem ran_of_lt (h : limits.maxOutput + 1 < wordSize) :
    Ran overflow limits host staging.starts (script.runChildren overflow programs limits host bindings) :=
  (ran_of_next hstage (Overflow.next?_of_lt h)).of_reading

theorem ran_of_wraps (h : limits.maxOutput + 1 = wordSize) :
    Ran .wraps limits (host.reading 0) staging.starts (script.runChildren .wraps programs limits host bindings) :=
  ran_of_next hstage (Overflow.next?_wraps h)

theorem runChildren_of_breaks (h : limits.maxOutput + 1 = wordSize) :
    ∃ start later, staging.starts = start :: later ∧
      script.runChildren .breaks programs limits host bindings = ⟨[start], 0, (start.failure? host).map .error⟩ := by
  obtain ⟨start, later, hstarts⟩ := List.exists_cons_of_ne_nil (starts_ne_nil hstage)
  refine ⟨start, later, hstarts, ?_⟩
  rw [runChildren_of_stage hstage, hstarts, runStarts_of_failure (Start.capture_of_none (Overflow.next?_breaks h))]
  cases start.failure? host <;> rfl

/-- With the greatest limit on output, the result of commands that end well is lost. -/
theorem outcome_of_greatest (h : limits.maxOutput + 1 = wordSize)
    (hends : ∀ start ∈ staging.starts, ∃ stdout, start.Succeeds limits host stdout) (overflow : Overflow) :
    (script.runChildren overflow programs limits host bindings).outcome =
      match overflow with
      | .breaks => none
      | .wraps => some (collectedValues []) := by
  cases overflow with
  | breaks =>
    obtain ⟨start, later, hstarts, hrun⟩ := runChildren_of_breaks hstage h
    obtain ⟨stdout, ⟨stderr, delay, hended⟩, -⟩ := hends start (hstarts ▸ List.mem_cons_self)
    rw [hrun, Start.failure?, hended]
    rfl
  | wraps =>
    refine (ran_of_wraps hstage h).outcome_of_succeeds fun start hmem ↦ ?_
    obtain ⟨stdout, hsucceeds⟩ := hends start hmem
    exact hsucceeds.reading 0

end Staged

theorem runChildren_outcome_ne_none (hmost : limits.maxOutput + 1 < wordSize)
    (hvalues : limits.maxValues + 1 < wordSize) :
    (script.runChildren overflow programs limits host bindings).outcome ≠ none := by
  cases hstage : script.stage bindings limits.maxValues programs runDirectory with
  | error failure =>
    rw [runChildren, hstage]
    exact Option.some_ne_none _
  | ok staging => exact (ran_of_lt hstage hmost).outcome_ne_none hvalues

/-- The commands of a staged script run in order up to the first that fails, and the result is that of all that the last
one prints, if one byte more than the limit is a count that a word holds. With the greatest limit, a program that breaks
off does so when the first command has started; one that goes on takes every output to be empty. -/
theorem runChildren_ran (hstage : script.stage bindings limits.maxValues programs runDirectory = .ok staging) :
    (limits.maxOutput + 1 < wordSize → ∀ overflow,
        Ran overflow limits host staging.starts (script.runChildren overflow programs limits host bindings)) ∧
      (limits.maxOutput + 1 = wordSize →
        (∃ start later, staging.starts = start :: later ∧
          script.runChildren .breaks programs limits host bindings = ⟨[start], 0, (start.failure? host).map .error⟩) ∧
        Ran .wraps limits (host.reading 0) staging.starts
          (script.runChildren .wraps programs limits host bindings)) :=
  ⟨fun h _ ↦ ran_of_lt hstage h, fun h ↦ ⟨runChildren_of_breaks hstage h, ran_of_wraps hstage h⟩⟩

end Script

namespace Snippet

def talkativeHost : Host := fun start ↦
  if start.command.program = "javac" then .ended (printed "[1]".toList) [] (some 0) 400
  else .ended (printed "[2]".toList) thrownStderr (some 0) 100

def greatestLimits : Limits := { maxOutput := wordSize - 1 }

theorem runChildren_ran_talkative : ∃ script, (ofText "number" .java printsJavaNumber).transform = .ok script ∧
    (script.runChildren .wraps {} {} talkativeHost []).delay = 500 ∧
    (script.runChildren .wraps {} {} talkativeHost []).outcome = some (.ok [.int 2]) ∧
    ∃ compile, script.runChildren .breaks {} greatestLimits talkativeHost [] = ⟨[compile], 0, none⟩ := by
  obtain ⟨script, h, hstage⟩ := exists_staging_printsJavaNumber runDirectory
  have hcompile (classes : List String) (files : List (String × List Char)) :
      Start.Succeeds {} talkativeHost ⟨⟨"javac", classes⟩, files⟩ (printed "[1]".toList) :=
    ⟨⟨[], 400, if_pos rfl⟩, by decide⟩
  have hrun (classes : List String) (files : List (String × List Char)) :
      Start.Succeeds {} talkativeHost ⟨⟨"java", classes⟩, files⟩ (printed "[2]".toList) :=
    ⟨⟨thrownStderr, 100, if_neg (show "java" ≠ "javac" by decide)⟩, by decide⟩
  have hstaged (limits : Limits) (h : limits.maxValues = 10000) : script.stage [] limits.maxValues {} runDirectory =
      .ok (script.stageJava "Main".toList 10000 {} runDirectory) := h ▸ hstage
  have hran : Ran .wraps {} talkativeHost (script.stageJava "Main".toList 10000 {} runDirectory).starts
      (script.runChildren .wraps {} {} talkativeHost []) :=
    (Script.runChildren_ran (hstaged {} rfl)).1 (by decide) .wraps
  have hexpected : Ran .wraps {} talkativeHost (script.stageJava "Main".toList 10000 {} runDirectory).starts
      ⟨_, 500, some (collectedValues (printed "[2]".toList))⟩ :=
    Ran.succeeded (List.forall_mem_singleton.mpr ⟨_, hcompile _ _⟩) (hrun _ _)
  have hvalues : collectedValues (printed "[2]".toList) = .ok [.int 2] := collectedValues_alone rfl (by decide)
  refine ⟨script, h, ?_, ?_, ?_⟩
  · rw [hran.unique hexpected]
  · rw [hran.unique hexpected, hvalues]
  · have hbroken : ∃ start later, (script.stageJava "Main".toList 10000 {} runDirectory).starts = start :: later ∧
        script.runChildren .breaks {} greatestLimits talkativeHost [] =
          ⟨[start], 0, (start.failure? talkativeHost).map .error⟩ :=
      ((Script.runChildren_ran (hstaged greatestLimits rfl)).2 (by decide)).1
    obtain ⟨compile, later, hstarts, hrun⟩ := hbroken
    obtain ⟨rfl, -⟩ := List.cons.inj hstarts
    exact ⟨_, hrun⟩

theorem exists_staging_printsNumber : ∃ script, (ofText "number" .javaScript printsNumber).transform = .ok script ∧
    script.stage [] ({} : Limits).maxValues {} runDirectory =
      .ok (script.stageJavaScript [] 10000 {} runDirectory) := by
  obtain ⟨script, h, hdialect⟩ := exists_transform_printsNumber
  exact ⟨script, h, by rw [Script.stage, hdialect]⟩

def printingHost (stdout : List UInt8) : Host := fun _ ↦ .ended stdout [] (some 0) 0

theorem greatestLimits_lost : ∃ script staging, (ofText "number" .javaScript printsNumber).transform = .ok script ∧
    greatestLimits.validate = .ok () ∧ script.stage [] greatestLimits.maxValues {} runDirectory = .ok staging ∧
    (∀ start ∈ staging.starts,
      start.Succeeds greatestLimits (printingHost (printed "[1]".toList)) (printed "[1]".toList)) ∧
    collectedValues (printed "[1]".toList) = .ok [.int 1] ∧
    ∀ overflow, (script.runChildren overflow {} greatestLimits (printingHost (printed "[1]".toList)) []).outcome ≠
      some (.ok [.int 1]) := by
  obtain ⟨script, h, hstage⟩ := exists_staging_printsNumber
  generalize script.stageJavaScript [] 10000 {} runDirectory = staging at hstage
  have hstaged : script.stage [] greatestLimits.maxValues {} runDirectory = .ok staging := hstage
  have hsucceeds (start : Start) :
      start.Succeeds greatestLimits (printingHost (printed "[1]".toList)) (printed "[1]".toList) :=
    ⟨⟨[], 0, rfl⟩, by decide⟩
  have hvalues : collectedValues (printed "[1]".toList) = .ok [.int 1] := collectedValues_alone rfl (by decide)
  refine ⟨script, staging, h, rfl, hstaged, fun start _ ↦ hsucceeds start, hvalues, fun overflow ↦ ?_⟩
  rw [Script.outcome_of_greatest hstaged (by decide) (fun start _ ↦ ⟨_, hsucceeds start⟩) overflow]
  intro hlost
  cases overflow <;> cases hlost

end Snippet

end AnswerKey
