import AnswerKey.Execution.Child
import AnswerKey.Proofs.Text.Pieces
import AnswerKey.Proofs.Text.Utf8

namespace AnswerKey

open Text

def limitMarker : List Char := Launcher.valueLimitMarker.toList

/-- The marker stands among the bytes of the error output that are kept. -/
def MarkerKept (stderr : List UInt8) : Prop :=
  ∃ front rest, stderr = front ++ utf8 limitMarker ++ rest ∧ front.length + (utf8 limitMarker).length ≤ stderrLimit

variable {stderr : List UInt8}

theorem isAscii_marker : ∀ c ∈ limitMarker, IsAscii c := by
  have hall : (limitMarker.all fun c ↦ decide (IsAscii c)) = true := by decide
  simpa using hall

theorem isBlank_marker : ∀ c ∈ limitMarker, isBlank c = false := by
  have hall : (limitMarker.all fun c ↦ !isBlank c) = true := by decide
  simpa using hall

theorem markerKept_iff : MarkerKept stderr ↔ utf8 limitMarker <:+: stderr.take stderrLimit := by
  constructor
  · rintro ⟨front, rest, rfl, hlength⟩
    rw [← List.length_append] at hlength
    rw [List.take_append, List.take_of_length_le hlength]
    exact ⟨front, _, rfl⟩
  · rintro ⟨front, rest, hkept⟩
    refine ⟨front, rest ++ stderr.drop stderrLimit, ?_, ?_⟩
    · rw [← List.append_assoc, hkept, List.take_append_drop]
    · calc front.length + (utf8 limitMarker).length ≤ (front ++ utf8 limitMarker ++ rest).length := by
            simp only [List.length_append]; omega
        _ ≤ stderrLimit := hkept ▸ List.length_take_le _ _

theorem contains_keptStderr : contains (keptStderr stderr) limitMarker = true ↔ MarkerKept stderr := by
  rw [contains_iff, keptStderr, isInfix_trimEnd_iff isBlank_marker, isInfix_decode_iff isAscii_marker, markerKept_iff]

variable {overflow : Overflow} {n : Nat}

theorem exitFailure?_of_markerKept (h : MarkerKept stderr) (code : Option Int) :
    exitFailure? overflow n code (keptStderr stderr) = (overflow.next? n).map (.tooManyValues · n) :=
  if_pos (contains_keptStderr.mpr h)

theorem exitFailure?_of_not_markerKept (h : ¬ MarkerKept stderr) (code : Option Int) :
    exitFailure? overflow n code (keptStderr stderr) = some (.exited code (.ofList (keptStderr stderr))) :=
  if_neg (mt contains_keptStderr.mp h)

/-- A warning, then what the runtime prints of the error that the collector throws. -/
def thrownStderr : List UInt8 := utf8 "warning\nError: ".toList ++ utf8 limitMarker ++ utf8 "\n    at push\n".toList

theorem markerKept_thrownStderr : MarkerKept thrownStderr := ⟨_, _, rfl, by decide⟩

/-- As many other bytes as are kept, and the marker behind them. -/
def crowdedStderr : List UInt8 := List.replicate stderrLimit 0x78 ++ utf8 limitMarker

theorem not_markerKept_crowdedStderr : ¬ MarkerKept crowdedStderr := by
  rw [markerKept_iff, crowdedStderr, List.take_left' List.length_replicate]
  intro h
  have hfirst : asciiByte '_' ∈ utf8 limitMarker := by decide
  exact absurd (List.eq_of_mem_replicate (h.subset hfirst)) (by decide)

end AnswerKey
