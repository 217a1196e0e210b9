import AnswerKey.Proofs.Execution.Capture

namespace AnswerKey

open Text

/-- The commands in front of one succeed, and that one fails with this error output and exit code. -/
def Stops (limits : Limits) (host : Host) (starts : List Start) (stderr : List UInt8) (code : Option Int) : Prop :=
  ∃ done start later stdout delay, starts = done ++ start :: later ∧
    (∀ earlier ∈ done, ∃ output, earlier.Succeeds limits host output) ∧
    host start = .ended stdout stderr code delay ∧ stdout.length ≤ limits.maxOutput ∧ code ≠ some 0

/-- What the failure of a run is if the marker counts as far as the error output is kept. -/
structure FailedOutcome (overflow : Overflow) (limits : Limits) (stderr : List UInt8) (code : Option Int)
    (outcome : Option (Except RunFailure (List Json))) : Prop where
  full : MarkerKept stderr → limits.maxValues + 1 < wordSize →
    outcome = some (.error (.tooManyValues (limits.maxValues + 1) limits.maxValues))
  greatest : MarkerKept stderr → limits.maxValues + 1 = wordSize →
    outcome = match overflow with
      | .breaks => none
      | .wraps => some (.error (.tooManyValues 0 limits.maxValues))
  exited : ¬ MarkerKept stderr → outcome = some (.error (.exited code (.ofList (keptStderr stderr))))

variable {overflow : Overflow} {limits : Limits} {host : Host} {starts : List Start} {run : ChildRun}
  {stderr : List UInt8} {code : Option Int}

theorem Stops.reading (h : Stops limits host starts stderr code) (most : Nat) :
    Stops limits (host.reading most) starts stderr code := by
  obtain ⟨done, start, later, stdout, delay, hstarts, hdone, hended, hshort, hcode⟩ := h
  refine ⟨done, start, later, stdout.take most, delay, hstarts, fun earlier hmem ↦ ?_, ?_,
    (List.length_take_le' _ _).trans hshort, hcode⟩
  · obtain ⟨output, hsucceeds⟩ := hdone earlier hmem
    exact ⟨_, hsucceeds.reading most⟩
  · rw [Host.reading, hended]

theorem Stops.failedOutcome (h : Stops limits host starts stderr code) (hran : Ran overflow limits host starts run) :
    FailedOutcome overflow limits stderr code run.outcome := by
  obtain ⟨done, start, later, stdout, delay, rfl, hdone, hended, hshort, hcode⟩ := h
  have hfull (hkept : MarkerKept stderr) : run.outcome =
      ((overflow.next? limits.maxValues).map (RunFailure.tooManyValues · limits.maxValues)).map .error := by
    rw [hran.unique (.failed hdone (.full hended hshort hcode hkept))]
  refine ⟨fun hkept hvalues ↦ ?_, fun hkept hvalues ↦ ?_, fun hlost ↦ ?_⟩
  · rw [hfull hkept, Overflow.next?_of_lt hvalues]
    rfl
  · rw [hfull hkept]
    cases overflow with
    | breaks => rw [Overflow.next?_breaks hvalues]; rfl
    | wraps => rw [Overflow.next?_wraps hvalues]; rfl
  · rw [hran.unique (.failed hdone (.exited hended hshort hcode hlost))]
    rfl

theorem Stops.exists_ended (h : Stops limits host starts stderr code) :
    ∃ start later, starts = start :: later ∧ start.failure? host = none := by
  obtain ⟨done, start, later, stdout, delay, rfl, hdone, hended, -, -⟩ := h
  cases done with
  | nil => exact ⟨start, later, rfl, by rw [Start.failure?, hended]⟩
  | cons first done =>
    obtain ⟨output, ⟨stderr, delay, hends⟩, -⟩ := hdone first List.mem_cons_self
    exact ⟨first, done ++ start :: later, rfl, by rw [Start.failure?, hends]⟩

/-- A failed command means too many values if the marker is among the bytes of its error output that are kept, and an
exit otherwise. With the greatest limit on output, a program that breaks off has done so before. -/
theorem failed_outcome {programs : Programs} {script : Script} {bindings : Bindings} {staging : Staging}
    (hstage : script.stage bindings limits.maxValues programs runDirectory = .ok staging)
    (h : Stops limits host staging.starts stderr code) :
    (limits.maxOutput + 1 < wordSize → ∀ overflow,
      FailedOutcome overflow limits stderr code (script.runChildren overflow programs limits host bindings).outcome) ∧
    (limits.maxOutput + 1 = wordSize →
      (script.runChildren .breaks programs limits host bindings).outcome = none ∧
      FailedOutcome .wraps limits stderr code (script.runChildren .wraps programs limits host bindings).outcome) := by
  refine ⟨fun hmost overflow ↦ h.failedOutcome (Script.ran_of_lt hstage hmost), fun hmost ↦ ⟨?_, ?_⟩⟩
  · obtain ⟨first, others, hstarts, hended⟩ := h.exists_ended
    obtain ⟨start, later, hcons, hrun⟩ := Script.runChildren_of_breaks hstage hmost
    obtain ⟨rfl, -⟩ := List.cons.inj (hstarts.symm.trans hcons)
    rw [hrun, hended]
    rfl
  · exact (h.reading 0).failedOutcome (Script.ran_of_wraps hstage hmost)

namespace Snippet

def failingHost (stderr : List UInt8) : Host := fun _ ↦ .ended [] stderr (some 1) 0

theorem stops_failingHost {start : Start} (limits : Limits) (stderr : List UInt8) :
    Stops limits (failingHost stderr) [start] stderr (some 1) :=
  ⟨[], start, [], [], 0, rfl, List.forall_mem_nil _, rfl, Nat.zero_le _, by decide⟩

theorem failed_outcome_thrown : ∃ script, (ofText "number" .javaScript printsNumber).transform = .ok script ∧
    MarkerKept thrownStderr ∧ ∀ overflow, (script.runChildren overflow {} {} (failingHost thrownStderr) []).outcome =
      some (.error (.tooManyValues 10001 10000)) := by
  obtain ⟨script, h, hstage⟩ := exists_staging_printsNumber
  refine ⟨script, h, markerKept_thrownStderr, fun overflow ↦ ?_⟩
  have hfailed := (failed_outcome hstage (stops_failingHost {} thrownStderr)).1 (by decide) overflow
  exact hfailed.full markerKept_thrownStderr (by decide)

theorem crowdedStderr_exited : ∃ script, (ofText "number" .javaScript printsNumber).transform = .ok script ∧
    utf8 limitMarker <:+: crowdedStderr ∧
    ∀ overflow, (script.runChildren overflow {} {} (failingHost crowdedStderr) []).outcome =
      some (.error (.exited (some 1) (.ofList (keptStderr crowdedStderr)))) := by
  obtain ⟨script, h, hstage⟩ := exists_staging_printsNumber
  refine ⟨script, h, (List.suffix_append _ _).isInfix, fun overflow ↦ ?_⟩
  have hran : Ran overflow {} (failingHost crowdedStderr) (script.stageJavaScript [] 10000 {} runDirectory).starts
      (script.runChildren overflow {} {} (failingHost crowdedStderr) []) := Script.ran_of_lt hstage (by decide)
  exact ((stops_failingHost {} crowdedStderr).failedOutcome hran).exited not_markerKept_crowdedStderr

end Snippet

end AnswerKey
