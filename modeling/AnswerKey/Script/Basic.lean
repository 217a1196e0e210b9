import AnswerKey.Script.Machine

namespace AnswerKey

open Text Code

structure Script where
  snippetId : String
  dialect : Dialect
  emitted : List Emitted
  collectorLine : Nat
  /-- Number of output calls that became append statements. -/
  appendedCalls : Nat

namespace Script

def lines (s : Script) : List Line := s.emitted.map (·.text)

def origins (s : Script) : List (Option Nat) := s.emitted.map (·.origin)

def endedText (lines : List Line) : List Char := joinLines lines ++ ['\n']

def text (s : Script) : List Char := endedText s.lines

def entrySymbol (s : Script) : String := s.dialect.grammar.collector.entrySymbol

def snippetLine? (s : Script) (i : Nat) : Option Nat := (s.origins[i]?).join

/-- The text with the collector declared by another expression, on the line of that index only. -/
def textWithCollector (s : Script) (expression : Line) : List Char :=
  joinLines <| (splitOn '\n' s.text).modify s.collectorLine <|
    replaceFirst s.dialect.grammar.collector.initializer expression

end Script

structure Passage where
  index : Nat
  line : Line
  step : Step

structure Edit where
  line : Nat
  kind : EditKind
  source : Line
  emitted : List Line
deriving DecidableEq

def Passage.edit? (p : Passage) : Option Edit :=
  p.step.edit.map fun kind ↦ ⟨p.index, kind, p.line, p.step.emitted.map (·.text)⟩

inductive Machine.Stop where
  | unscannable
  | unclosedCall (line : Nat)

/-- Feeds lines numbered from `i`: the passages up to the first failure, and the machine after all lines. -/
def Machine.run (m : Machine) (i : Nat) : List Line → List Passage × Except Machine.Stop Machine
  | [] => ([], .ok m)
  | line :: lines =>
    match m.step? i line with
    | none => ([], .error .unscannable)
    | some (_, .error i) => ([], .error (.unclosedCall i))
    | some (m, .ok step) =>
      let (passages, outcome) := m.run (i + 1) lines
      (⟨i, line, step⟩ :: passages, outcome)

structure Transformation where
  edits : List Edit
  result : Except Fault Script

def linesBeforeEntry (passages : List Passage) : Nat :=
  ((passages.takeWhile fun p ↦ p.step.edit ≠ some .entryPoint).flatMap (·.step.emitted)).length

namespace Snippet

def scriptOf (s : Snippet) (passages : List Passage) : Script where
  snippetId := s.id
  dialect := s.dialect
  emitted := passages.flatMap (·.step.emitted) ++ [⟨[], none⟩]
  collectorLine := linesBeforeEntry passages
  appendedCalls := passages.countP fun p ↦ p.step.edit = some .outputCall

/-- Instruments the snippet. Nothing is edited unless it has an entry point with a proper block. -/
def transformation (s : Snippet) : Transformation :=
  match s.entryBlock with
  | .error fault => ⟨[], .error fault⟩
  | .ok block =>
    let (passages, outcome) := Machine.run { grammar := s.grammar, entryLine := block.start } 0 s.lines
    { edits := passages.filterMap Passage.edit?
      result :=
        match outcome with
        | .error .unscannable => .error .unscannable
        | .error (.unclosedCall i) => .error (.defect (.unclosedCall s.id i))
        | .ok machine =>
          match machine.unclosed? with
          | some i => .error (.defect (.unclosedBlock s.id i))
          | none => .ok (s.scriptOf passages) }

def transform (s : Snippet) : Except Fault Script := s.transformation.result

end Snippet
end AnswerKey
