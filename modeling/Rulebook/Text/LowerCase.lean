import Rulebook.Text.Case

/-!
# Lower case

The full lower-casing of Unicode that does not depend on a language.  Most
characters have a lower case of one character and no context matters.  Two do
not.  The capital `İ` becomes a small `i` and a combining dot.  The capital
sigma becomes the final form `ς` at the end of a word, that is after a cased
letter and before none, where case-ignorable characters are passed over on both
sides; elsewhere it becomes `σ`.

`lower` therefore walks a text with the characters already passed at hand,
nearest first.
-/

namespace Rulebook.Text

/-- The lower case of a character away from any context. -/
def lowerChar (c : Char) : Char := Char.ofNat (lowerIn caseRuns c.toNat)

/-- Whether the next character that is not case-ignorable is a cased letter. -/
def casedNext (cs : List Char) : Bool :=
  match cs.dropWhile isCaseIgnorable with
  | [] => false
  | c :: _ => isCased c

/-- The lower case of a character between the characters before it, nearest first, and those
after it. -/
def lowerBetween (before : List Char) (c : Char) (after : List Char) : List Char :=
  if c = 'Σ' then [if casedNext before && !casedNext after then 'ς' else 'σ']
  else if c = 'İ' then ['i', '\u0307']
  else [lowerChar c]

/-- The lower case of a text that follows some characters, nearest first. -/
def lowerAfter : List Char → List Char → List Char
  | _, [] => []
  | before, c :: cs => lowerBetween before c cs ++ lowerAfter (c :: before) cs

/-- The lower case of a text. -/
def lower (cs : List Char) : List Char := lowerAfter [] cs

/-- The lower case of a text. -/
def lowered (s : String) : String := String.ofList (lower s.toList)

@[simp] theorem toList_lowered (s : String) : (lowered s).toList = lower s.toList :=
  String.toList_ofList

/-- A character becomes at least one character. -/
theorem lowerBetween_ne_nil (before : List Char) (c : Char) (after : List Char) :
    lowerBetween before c after ≠ [] := by
  unfold lowerBetween
  split
  · simp
  · split <;> simp

/-- Whether two texts are equal up to the case of ASCII letters. -/
def sameIgnoringAsciiCase (s t : String) : Bool :=
  s.toList.map Char.toLower == t.toList.map Char.toLower

example : lower ['A', 'É', 'z'] = ['a', 'é', 'z'] := by decide +kernel
example : lower ['Ο', 'Δ', 'Ο', 'Σ'] = ['ο', 'δ', 'ο', 'ς'] := by decide +kernel
example : lower ['Σ', 'Α'] = ['σ', 'α'] := by decide +kernel
example : lower ['İ'] = ['i', '\u0307'] := by decide +kernel

end Rulebook.Text
