import AnswerKey.Snippet.Block

namespace AnswerKey

open Text Code

structure Emitted where
  text : Line
  origin : Option Nat
deriving DecidableEq

inductive EditKind where
  | entryPoint
  | outputCall
  | blockEnd
deriving DecidableEq

structure Step where
  emitted : List Emitted
  edit : Option EditKind
deriving DecidableEq

namespace Step

def copied (line : Line) (i : Nat) : Step := ⟨[⟨line, some i⟩], none⟩

/-- Only the last of the lines stands for the entry line; those before it are new. -/
def entered (lines : List Line) (i : Nat) : Step :=
  ⟨lines.dropLast.map (⟨·, none⟩) ++ lines.getLast?.toList.map (⟨·, some i⟩), some .entryPoint⟩

def closed (returning : Option Line) (line : Line) (i : Nat) : Step :=
  match returning with
  | some text => ⟨[⟨text, none⟩, ⟨line, some i⟩], some .blockEnd⟩
  | none => copied line i

def appended (statement : Line) (i : Nat) : Step := ⟨[⟨statement, some i⟩], some .outputCall⟩

end Step

inductive Position where
  | outside
  /-- The indentation of the first line of the body is known once that line has come. -/
  | inside (entryLine entryIndent : Nat) (bodyIndent : Option Line)
deriving DecidableEq

structure Machine where
  grammar : Grammar
  entryLine : Nat
  position : Position := .outside
  tracker : Tracker := {}

def defaultBodyIndent : Line := "    ".toList

namespace Machine

/-- Reads a line of code or commentary, the tracker being done with it. An output call that does not end on
its line makes the step fail with the line's number. -/
def act (m : Machine) (commentary : Bool) (i : Nat) (line : Line) : Machine × Except Nat Step :=
  match m.position with
  | .outside =>
    if i = m.entryLine then
      ({ m with position := .inside i (indentWidth line) none },
        .ok (.entered (m.grammar.collector.instrumentEntry line) i))
    else (m, .ok (.copied line i))
  | .inside entryLine entryIndent bodyIndent =>
    if commentary || isBlankLine line then (m, .ok (.copied line i))
    else if m.grammar.closesBlock line entryIndent then
      let indent := bodyIndent.getD (indentation line ++ defaultBodyIndent)
      ({ m with position := .outside }, .ok (.closed (m.grammar.renderReturn? indent) line i))
    else
      let m := { m with position := .inside entryLine entryIndent (bodyIndent.or (some (indentation line))) }
      match m.grammar.outputCall? line with
      | none => (m, .ok (.copied line i))
      | some call =>
        match call.argument? line with
        | none => (m, .error i)
        | some args => (m, .ok (.appended (m.grammar.renderAppend (indentation line) args) i))

/-- Reads the line with number `i`; no answer where the comment scan has none. -/
def step? (m : Machine) (i : Nat) (line : Line) : Option (Machine × Except Nat Step) :=
  (m.tracker.feed? m.grammar.comments line).map fun (commentary, tracker) ↦
    act { m with tracker } commentary i line

def unclosed? (m : Machine) : Option Nat :=
  match m.position with
  | .outside => none
  | .inside entryLine _ _ => if m.grammar.runsToEnd then none else some entryLine

end Machine

structure Feeding where
  before : Machine
  index : Nat
  line : Line
  outcome : Except Nat Step
  after : Machine

/-- Feeds numbered lines, going on after steps that fail; at a line for which the comment scan has no answer, feeding
stops and no machine is left. -/
def Machine.feed (m : Machine) : List (Nat × Line) → List Feeding × Option Machine
  | [] => ([], some m)
  | (i, line) :: items =>
    match m.step? i line with
    | none => ([], none)
    | some (after, outcome) =>
      let (feedings, last) := after.feed items
      (⟨m, i, line, outcome, after⟩ :: feedings, last)

end AnswerKey
