import Rulebook.Yaml.Spot

/-!
# Folding

A plain or quoted scalar may go on in the lines below.  What stands between two
parts of it is a *gap*: spaces and tabs, and maybe ends of lines.  Without an end of
a line the gap stands for itself.  With one, the spaces and tabs around it are
dropped, a single end of a line reads as a space, and of more ends the first is
dropped and the others stay.  Only a first end that is no newline stays as well.
-/

namespace Rulebook

namespace Yaml

/-- What stands between two parts of a scalar. -/
structure Gap where
  /-- The spaces and tabs, as long as no line has ended. -/
  blanks : List Char := []
  /-- The first end of a line. -/
  first : List Char := []
  /-- The other ends of lines. -/
  more : List Char := []

namespace Gap

/-- The text that a gap stands for. -/
def text (folded : Bool) (g : Gap) : List Char :=
  if !folded then g.blanks
  else if g.first.head? = some '\n' then (if g.more.isEmpty then [' '] else g.more)
  else g.first ++ g.more

/-- The gap with a space or tab at its end. -/
def addBlank (c : Char) (g : Gap) : Gap := { g with blanks := g.blanks ++ [c] }

/-- The gap with an end of a line at its end, on a line that is empty or not. -/
def addLineEnd (empty : Bool) (c : Char) (g : Gap) : Gap :=
  if empty then { g with more := g.more ++ [c] }
  else { g with blanks := [], first := g.first ++ [c] }

end Gap

/-- The gap that comes next and the spot after it, where `passTab?` says what becomes of a tab that
indents a line.  A gap has no more parts than characters. -/
def gap? (e : Edition) (passTab? : Spot → Option Spot) : Nat → Gap → Spot → Option (Gap × Spot)
  | 0, g, s => some (g, s)
  | fuel + 1, g, s =>
    match s.rest with
    | [] => some (g, s)
    | c :: _ =>
      if isGap c then
        if !s.fresh then gap? e passTab? fuel (g.addBlank c) (s.passGap 1)
        else if c = '\t' then
          match passTab? s with
          | none => none
          | some s => gap? e passTab? fuel g s
        else gap? e passTab? fuel g (s.passGap 1)
      else
        match lineEnd? e s.rest with
        | none => some (g, s)
        | some (c, _) => gap? e passTab? fuel (g.addLineEnd s.fresh c) (s.passLineEnd e)

example : ({ first := ['\n'] } : Gap).text true = [' '] := rfl
example : ({ first := ['\n'], more := ['\n'] } : Gap).text true = ['\n'] := rfl

end Yaml

end Rulebook
