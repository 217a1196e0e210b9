import AnswerKey.Dialect.Grammars
import AnswerKey.Text.Digest
import AnswerKey.Text.Lines

namespace AnswerKey

open Text

structure Snippet where
  id : String
  dialect : Dialect
  lines : List Line

namespace Snippet

def ofText (id : String) (dialect : Dialect) (text : List Char) : Snippet := ⟨id, dialect, linesOf text⟩

def grammar (s : Snippet) : Grammar := s.dialect.grammar

/-- Identifies the content: the digest of the lines, whatever their ends were. -/
def digest (s : Snippet) : String := Digest.ofText (joinLines s.lines)

end Snippet

inductive Defect where
  | missingBoundary (snippet : String) (role : Role)
  | unknownReturnType (snippet : String) (type : Line) (line : Nat)
  | unclosedCall (snippet : String) (line : Nat)
  | unclosedBlock (snippet : String) (line : Nat)
  | missingKey (snippet : String)
  | unsupportedLanguage (name : String)
deriving DecidableEq

namespace Defect

def message : Defect → String
  | missingBoundary snippet role => s!"snippet {snippet}: {role.label} marker not found"
  | unknownReturnType snippet type line =>
    s!"snippet {snippet}: unrecognized return type " ++ "\x60" ++ .ofList type ++ "\x60" ++ s!" at line {line}"
  | unclosedCall snippet line => s!"snippet {snippet}: unbalanced parentheses in output call at line {line}"
  | unclosedBlock snippet line => s!"snippet {snippet}: entry-point block opened at line {line} is never closed"
  | missingKey snippet => s!"snippet {snippet}: challenge has no answer key"
  | unsupportedLanguage name => s!"unsupported language: {name}"

def snippet? : Defect → Option String
  | missingBoundary snippet _ | unknownReturnType snippet _ _ | unclosedCall snippet _
  | unclosedBlock snippet _ | missingKey snippet => some snippet
  | unsupportedLanguage _ => none

def line? : Defect → Option Nat
  | unknownReturnType _ _ line | unclosedCall _ line | unclosedBlock _ line => some line
  | missingBoundary .. | missingKey _ | unsupportedLanguage _ => none

end Defect

/-- Why an operation on a snippet has no result: a defect, or a line of code that the comment scan has no
answer for. -/
inductive Fault where
  | defect (defect : Defect)
  | unscannable
deriving DecidableEq

def Dialect.read (text : String) : Except Defect Dialect :=
  let tag := normalizeTag text
  match ofTag? tag with
  | some dialect => .ok dialect
  | none => .error (.unsupportedLanguage tag)

end AnswerKey
