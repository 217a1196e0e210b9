import AnswerKey.Code.Arguments
import AnswerKey.Code.Comment
import AnswerKey.Dialect.Basic
import AnswerKey.Dialect.Marker
import AnswerKey.Dialect.Template

namespace AnswerKey

open Text Code

inductive BlockEnd where
  /-- At a line that the marker accepts, at the entry line's indentation. -/
  | aligned (marker : Marker)
  /-- At the first code line indented no further than the entry line, or with the text. -/
  | dedent

structure CollectorStyle where
  initializer : Line
  /-- The lines in place of the entry line, the last of which stands for it. -/
  instrumentEntry : Line → List Line
  append : Template
  /-- The one expression that an output call's argument text comes down to. -/
  value : Line → Line
  returning : Option Template
  /-- What a runtime evaluates to get at the collector. -/
  entrySymbol : String

structure Grammar where
  dialect : Dialect
  functionStart : Marker
  entryPoint : Marker
  blockEnd : BlockEnd
  outputCalls : List Line
  comments : CommentStyle
  collector : CollectorStyle

structure OutputCall where
  opening : Line
  position : Nat
deriving DecidableEq

/-- The trimmed argument text; there is none if the call does not end on the line. -/
def OutputCall.argument? (call : OutputCall) (line : Line) : Option Line :=
  (balancedArgument? line call.position).map trim

namespace Grammar

def outputCall? (g : Grammar) (line : Line) : Option OutputCall :=
  (g.outputCalls.find? fun opening ↦ startsWith (trimStart line) opening).map fun opening ↦
    ⟨opening, byteLength (indentation line) + byteLength opening - 1⟩

def closesBlock (g : Grammar) (line : Line) (entryIndent : Nat) : Bool :=
  match g.blockEnd with
  | .aligned marker => marker.accepts line && indentWidth line == entryIndent
  | .dedent => !isBlankLine line && indentWidth line ≤ entryIndent

def runsToEnd (g : Grammar) : Bool :=
  match g.blockEnd with
  | .aligned _ => false
  | .dedent => true

def renderAppend (g : Grammar) (indent args : Line) : Line :=
  indent ++ g.collector.append.fill g.collector.initializer (g.collector.value args)

def renderReturn? (g : Grammar) (indent : Line) : Option Line :=
  g.collector.returning.map fun template ↦ indent ++ template.fill g.collector.initializer []

end Grammar
end AnswerKey
