import AnswerKey.Snippet.Block

namespace AnswerKey

open Text Code

structure Output where
  line : Nat
  opening : Line
  expression : Line
deriving DecidableEq

/-- The output calls on lines numbered from `i`; the first call that does not end on its line is a defect. -/
def outputsOf (g : Grammar) (id : String) : Tracker → Nat → List Line → Except Fault (List Output)
  | _, _, [] => .ok []
  | tracker, i, line :: lines =>
    match tracker.feed? g.comments line with
    | none => .error .unscannable
    | some (true, tracker) => outputsOf g id tracker (i + 1) lines
    | some (false, tracker) =>
      match g.outputCall? line with
      | none => outputsOf g id tracker (i + 1) lines
      | some call =>
        match call.argument? line with
        | none => .error (.defect (.unclosedCall id i))
        | some expression => (outputsOf g id tracker (i + 1) lines).map (⟨i, call.opening, expression⟩ :: ·)

namespace Snippet

def outputsIn (s : Snippet) (start stop : Nat) : Except Fault (List Output) :=
  outputsOf s.grammar s.id {} start ((s.lines.drop start).take (stop - start))

def outputs (s : Snippet) : Except Fault (List Output) := do
  let block ← s.entryBlock
  s.outputsIn (block.start + 1) block.stop

def outputsBetween (s : Snippet) (opening closing : Marker) : Except Fault (List Output) :=
  match between? opening closing s.lines with
  | some (start, stop) => s.outputsIn start stop
  | none =>
    let missing := if (firstIndex? opening s.lines).isNone then opening else closing
    .error (.defect (.missingBoundary s.id missing.role))

def expressions (s : Snippet) : Except Fault (List Line) := s.outputs.map fun outputs ↦ outputs.map (·.expression)

end Snippet
end AnswerKey
