import Introspect.Text.Runs

/-! Blank characters: those with the Unicode property White_Space. -/
namespace Introspect.Text

/-- The blanks are TAB to CR, SPACE, NEL, NO-BREAK SPACE and the spaces and separators beyond. -/
def blankBounds : List Nat :=
  [0x9, 0xe, 0x20, 0x21, 0x85, 0x86, 0xa0, 0xa1, 0x1680, 0x1681, 0x2000, 0x200b, 0x2028, 0x202a,
   0x202f, 0x2030, 0x205f, 0x2060, 0x3000, 0x3001]

def isBlank (c : Char) : Bool :=
  inRuns blankBounds c

/-- A text without the blanks it starts with. -/
def dropBlanks (cs : List Char) : List Char :=
  cs.dropWhile isBlank

end Introspect.Text
