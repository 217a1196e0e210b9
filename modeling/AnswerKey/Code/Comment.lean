import AnswerKey.Code.Literal

namespace AnswerKey.Code

open Text

structure CommentStyle where
  line : List Char
  block : Option (List Char × List Char)

/-- Whether code leaves a block comment open at its end. Literals are skipped and a line comment ends the
scan; the scan has no answer for code with a character beyond ASCII outside literals and comments. -/
def leavesOpen? (line opener closer : List Char) (mode : Mode) (text : List Char) : Option Bool :=
  match text with
  | [] => some false
  | c :: rest =>
    if mode ≠ .code then leavesOpen? line opener closer (mode.next c) rest
    else if startsWith (c :: rest) line then some false
    else
      match _ : after? opener (c :: rest) with
      | some inner =>
        match _ : cut? closer inner with
        | some (_, outer) => if opener.isEmpty then none else leavesOpen? line opener closer .code outer
        | none => some true
      | none => if c.toNat < 0x80 then leavesOpen? line opener closer (mode.next c) rest else none
termination_by text.length
decreasing_by
  · simp
  · have h := length_of_after? ‹_›
    have := length_of_cut? ‹_›
    have : opener.length ≠ 0 := by simpa using ‹¬ opener.isEmpty = true›
    simp only [List.length_cons] at h ⊢
    omega
  · simp

structure Tracker where
  inBlock : Bool := false
deriving DecidableEq

/-- Reads the next line and says whether it is commentary; there is no answer where the scan of its code has
none. -/
def Tracker.feed? (style : CommentStyle) (tracker : Tracker) (line : Line) : Option (Bool × Tracker) :=
  let text := trimStart line
  match style.block with
  | none => some (startsWith text style.line, tracker)
  | some (opener, closer) =>
    let scan := leavesOpen? style.line opener closer .code
    if tracker.inBlock then
      match cut? closer text with
      | some (_, rest) => (scan rest).map fun inBlock ↦ (true, ⟨inBlock⟩)
      | none => some (true, tracker)
    else
      match after? opener text with
      | some inner =>
        match cut? closer inner with
        | some (_, rest) => (scan rest).map fun inBlock ↦ (true, ⟨inBlock⟩)
        | none => some (true, ⟨true⟩)
      | none =>
        if startsWith text style.line then some (true, tracker)
        else (scan text).map fun inBlock ↦ (false, ⟨inBlock⟩)

end AnswerKey.Code
