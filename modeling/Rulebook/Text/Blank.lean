import Rulebook.Text.Span

/-!
# Blank space

The blank characters are those with the Unicode property White_Space: the
ASCII blanks, the no-break space, the spaces of typography and the line and
paragraph separators.  A zero width space is not one of them.  `trim` takes the
blanks off both ends and `words` cuts a text at its blanks.
-/

namespace Rulebook.Text

/-- The code points with the Unicode property White_Space. -/
def blankSpans : List Span :=
  [(0x9, 0xD), (0x20, 0x20), (0x85, 0x85), (0xA0, 0xA0), (0x1680, 0x1680), (0x2000, 0x200A),
    (0x2028, 0x2029), (0x202F, 0x202F), (0x205F, 0x205F), (0x3000, 0x3000)]

/-- Whether a character is blank. -/
def isBlank (c : Char) : Bool := inSpans blankSpans c.toNat

/-- What follows the blanks that a text begins with. -/
def skipBlanks (cs : List Char) : List Char := cs.dropWhile isBlank

/-- The text without the blanks it begins and ends with. -/
def trim (cs : List Char) : List Char :=
  ((cs.dropWhile isBlank).reverse.dropWhile isBlank).reverse

/-- The maximal runs of characters that are not blank, in order. -/
def words (cs : List Char) : List (List Char) :=
  (cs.splitOnP isBlank).filter (!·.isEmpty)

/-- A text without the blanks it begins and ends with. -/
def trimmed (s : String) : String := String.ofList (trim s.toList)

/-- Whether a text holds nothing but blanks. -/
def isAllBlank (s : String) : Bool := s.toList.all isBlank

@[simp] theorem toList_trimmed (s : String) : (trimmed s).toList = trim s.toList :=
  String.toList_ofList

example : Ascending blankSpans = true := by decide
example : trim [' ', 'a', ' ', 'b', '\t'] = ['a', ' ', 'b'] := by decide
example : words [' ', 'a', 'b', ' ', '\n', 'c'] = [['a', 'b'], ['c']] := by decide
example : isBlank '\u00a0' = true ∧ isBlank '\u200b' = false := by decide

end Rulebook.Text
