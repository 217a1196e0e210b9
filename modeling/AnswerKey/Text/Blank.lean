namespace AnswerKey.Text

/-- The characters with the property White_Space. -/
def isBlank (c : Char) : Bool :=
  let n := c.val
  (0x09 ≤ n && n ≤ 0x0D) || n == 0x20 || n == 0x85 || n == 0xA0 || n == 0x1680 ||
    (0x2000 ≤ n && n ≤ 0x200A) || n == 0x2028 || n == 0x2029 || n == 0x202F || n == 0x205F || n == 0x3000

/-- A line of source text; a line feed never occurs inside one that was cut out of a text. -/
abbrev Line := List Char

def trimStart (line : Line) : Line := line.dropWhile isBlank

def trimEnd (line : Line) : Line := (line.reverse.dropWhile isBlank).reverse

def trim (line : Line) : Line := trimEnd (trimStart line)

def indentation (line : Line) : Line := line.takeWhile isBlank

def isBlankLine (line : Line) : Bool := line.all isBlank

def tabWidth : Nat := 4

def columns (blanks : Line) : Nat :=
  blanks.foldr (fun c n ↦ (if c = '\t' then tabWidth else 1) + n) 0

def indentWidth (line : Line) : Nat := columns (indentation line)

theorem indentation_append_trimStart (line : Line) : indentation line ++ trimStart line = line :=
  List.takeWhile_append_dropWhile

end AnswerKey.Text
