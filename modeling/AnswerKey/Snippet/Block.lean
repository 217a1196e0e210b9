import AnswerKey.Snippet.Basic

namespace AnswerKey

open Text Code

def firstIndex? (marker : Marker) (lines : List Line) : Option Nat := lines.findIdx? marker.accepts

def lastIndex? (marker : Marker) : List Line → Option Nat
  | [] => none
  | line :: lines =>
    match lastIndex? marker lines with
    | some i => some (i + 1)
    | none => if marker.accepts line then some 0 else none

/-- Start and end of the lines strictly between the first line that `opening` accepts and the first one after
it that `closing` accepts. -/
def between? (opening closing : Marker) (lines : List Line) : Option (Nat × Nat) :=
  (firstIndex? opening lines).bind fun i ↦
    (firstIndex? closing (lines.drop (i + 1))).map fun n ↦ (i + 1, i + 1 + n)

/-- The entry line, and the line that closes its block or else the number of lines. -/
structure Block where
  start : Nat
  stop : Nat
  closedByLine : Bool
deriving DecidableEq

/-- The first line of code that closes a block whose first line has the given indentation, numbered from `i`;
no answer where the comment scan has none. -/
def closingIndex? (g : Grammar) (indent : Nat) : Tracker → Nat → List Line → Option (Option Nat)
  | _, _, [] => some none
  | tracker, i, line :: lines =>
    match tracker.feed? g.comments line with
    | none => none
    | some (commentary, tracker) =>
      if !commentary && g.closesBlock line indent then some (some i)
      else closingIndex? g indent tracker (i + 1) lines

namespace Snippet

def entryLine (s : Snippet) : Except Fault Nat :=
  match lastIndex? s.grammar.entryPoint s.lines with
  | some i => .ok i
  | none => .error (.defect (.missingBoundary s.id .entryPoint))

def entryBlock (s : Snippet) : Except Fault Block := do
  let start ← s.entryLine
  let indent := indentWidth (s.lines[start]?.getD [])
  match closingIndex? s.grammar indent {} (start + 1) (s.lines.drop (start + 1)) with
  | none => .error .unscannable
  | some (some stop) => .ok ⟨start, stop, true⟩
  | some none =>
    if s.grammar.runsToEnd then .ok ⟨start, s.lines.length, false⟩
    else .error (.defect (.unclosedBlock s.id start))

end Snippet
end AnswerKey
