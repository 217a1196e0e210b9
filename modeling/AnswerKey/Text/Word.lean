import AnswerKey.Text.CharacterRanges

namespace AnswerKey.Text

open CharacterRanges

def inRanges (ranges : List (Nat × Nat)) (c : Char) : Bool :=
  ranges.any fun (first, last) ↦ first ≤ c.toNat && c.toNat ≤ last

/-- Alphabetic characters, marks, decimal digits, connectors and joiners. -/
def isWord (c : Char) : Bool :=
  if c.toNat < 0x80 then c.isAlphanum || c == '_'
  else inRanges alphabetic c || inRanges decimal c || inRanges joining c

def isAlphanumeric (c : Char) : Bool :=
  if c.toNat < 0x80 then c.isAlphanum
  else inRanges alphabetic c || inRanges decimal c || inRanges otherNumber c

end AnswerKey.Text
