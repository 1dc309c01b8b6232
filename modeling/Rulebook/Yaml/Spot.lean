import Rulebook.Yaml.Edition

/-!
# Spots

A *spot* is a place in a text: what comes next, and where it stands.  Lines and
columns count from zero, and an end of a line of two characters is one end.  The
spot is *fresh* as long as nothing but spaces and tabs was passed on its line, so
that a column of a fresh spot is an indentation.
-/

namespace Rulebook

namespace Yaml

/-- A place in a text. -/
structure Spot where
  /-- What comes next. -/
  rest : List Char
  /-- The number of characters before. -/
  index : Nat := 0
  /-- The number of lines before. -/
  line : Nat := 0
  /-- The number of characters before on the line. -/
  column : Nat := 0
  /-- Whether these are spaces and tabs. -/
  fresh : Bool := true

namespace Spot

/-- The spot after some characters of the line. -/
def pass (n : Nat) (s : Spot) : Spot :=
  ⟨s.rest.drop n, s.index + n, s.line, s.column + n, false⟩

/-- The spot after some spaces and tabs. -/
def passGap (n : Nat) (s : Spot) : Spot :=
  ⟨s.rest.drop n, s.index + n, s.line, s.column + n, s.fresh⟩

/-- The spot after the spaces that come next. -/
def passSpaces (s : Spot) : Spot := s.passGap (s.rest.takeWhile (· == ' ')).length

/-- The spot after the spaces and tabs that come next. -/
def passGaps (s : Spot) : Spot := s.passGap (s.rest.takeWhile isGap).length

/-- The spot at the end of the line. -/
def passLine (e : Edition) (s : Spot) : Spot :=
  s.pass (s.rest.takeWhile fun c => !isBreak e c).length

/-- The spot after the end of the line, if that comes next. -/
def passLineEnd (e : Edition) (s : Spot) : Spot :=
  match lineEnd? e s.rest with
  | none => s
  | some (_, n) => ⟨s.rest.drop n, s.index + n, s.line + 1, 0, true⟩

/-- The character that comes next. -/
def next? (s : Spot) : Option Char := s.rest.head?

/-- Whether nothing comes next. -/
def atEnd (s : Spot) : Bool := s.rest.isEmpty

/-- Whether the line is three equal characters and more only after a space or tab. -/
def atMark (e : Edition) (c : Char) (s : Spot) : Bool :=
  s.column == 0 && s.rest.take 3 == [c, c, c] && atGap e (s.rest.drop 3)

/-- Whether a document begins or ends here. -/
def atDocumentMark (e : Edition) (s : Spot) : Bool := s.atMark e '-' || s.atMark e '.'

/-- The spot after spaces, tabs and a comment.  In the second edition a comment must not follow
other things without a space or tab. -/
def passComment? (e : Edition) (s : Spot) : Option Spot :=
  let t := s.passGaps
  if t.next? = some '#' then
    if e = .second ∧ t.index = s.index then none else some (t.passLine e)
  else some t

/-- The spot after the rest of a line that must be empty but for a comment. -/
def endLine? (e : Edition) (s : Spot) : Option Spot :=
  (s.passComment? e).bind fun s => if atLineEnd e s.rest then some (s.passLineEnd e) else none

end Spot

end Yaml

end Rulebook
