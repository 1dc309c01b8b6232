import Rulebook.Yaml.Spot

/-!
# Block scalars

A block scalar has its text in the lines below its header.  The header is a bar, if
the ends of lines stay, or an angle bracket, if they are folded.  It may tell how
far the lines are indented and what becomes of the ends of lines at the end: all
stay (`keep`), none stays (`strip`) or one stays (`clip`).

If the header does not tell, the first line that is not empty tells how far the
lines are indented.  Folding leaves lines alone that begin with a space or tab.
-/

namespace Rulebook

namespace Yaml

/-- What becomes of the ends of lines at the end of a block scalar. -/
inductive Chomping where
  /-- None stays. -/
  | strip
  /-- One stays. -/
  | clip
  /-- All stay. -/
  | keep
  deriving DecidableEq

/-- What the header of a block scalar tells. -/
structure Header where
  /-- What becomes of the ends of lines at the end. -/
  chomping : Chomping
  /-- How much further the lines are indented than the block. -/
  further : Option Nat

namespace Header

/-- The sign for ends of lines that are not clipped. -/
def chomping? : List Char → Option Chomping
  | '+' :: _ => some .keep
  | '-' :: _ => some .strip
  | _ => none

/-- The digit of an indentation. -/
def digit? : List Char → Option Nat
  | c :: _ => if '0' ≤ c ∧ c ≤ '9' then some (c.toNat - 48) else none
  | [] => none

/-- What follows the first character of a header, and how many characters it has.  The sign and the
digit come in either order. -/
def parts (cs : List Char) : Header × Nat :=
  match chomping? cs, digit? cs with
  | some chomping, _ =>
    match digit? (cs.drop 1) with
    | some d => (⟨chomping, some d⟩, 2)
    | none => (⟨chomping, none⟩, 1)
  | none, some d =>
    match chomping? (cs.drop 1) with
    | some chomping => (⟨chomping, some d⟩, 2)
    | none => (⟨.clip, some d⟩, 1)
  | none, none => (⟨.clip, none⟩, 0)

/-- What follows the first character of a header, and how many characters it has: `none` if the
digit is zero. -/
def read? (cs : List Char) : Option (Header × Nat) :=
  if (parts cs).1.further = some 0 then none else some (parts cs)

end Header

/-! ## Lines -/

/-- Whether a tab stands in the indentation of a line, where the first edition does not take it. -/
def isStrayTab (e : Edition) (limit : Option Nat) (s : Spot) : Bool :=
  e == .first && s.next? == some '\t' && limit.all (s.column < ·)

/-- The spaces before a limit that come next. -/
def indentation (limit : Option Nat) (s : Spot) : Nat :=
  let spaces := (s.rest.takeWhile (· == ' ')).length
  match limit with
  | none => spaces
  | some column => min spaces (column - s.column)

/-- Empty lines and the indentation of the line after them, after empty lines that were read before.
The results are the ends of the lines, how far the lines reach at most, and the spot. -/
def emptyLines? (e : Edition) (limit : Option Nat) :
    Nat → List Char → Nat → Spot → Option (List Char × Nat × Spot)
  | 0, breaks, reach, s => some (breaks, reach, s)
  | fuel + 1, breaks, reach, s =>
    let s := s.passGap (indentation limit s)
    let reach := max reach s.column
    if isStrayTab e limit s then none
    else
      match lineEnd? e s.rest with
      | none => some (breaks, reach, s)
      | some (c, _) => emptyLines? e limit fuel (breaks ++ [c]) reach (s.passLineEnd e)

/-- A block scalar that is being read. -/
structure Lines where
  /-- The text so far, reversed. -/
  before : List Char := []
  /-- The end of the last line. -/
  last : List Char := []
  /-- The ends of the empty lines after it. -/
  breaks : List Char
  /-- Whether the last line begins with a space or tab. -/
  gap : Bool := false
  /-- The spot after all these. -/
  spot : Spot

/-- What stands between two lines. -/
def Lines.between (literal : Bool) (l : Lines) : List Char :=
  if !literal && l.last.head? == some '\n' && !l.gap && !(l.spot.next?).any isGap then
    if l.breaks.isEmpty then [' '] else l.breaks
  else l.last ++ l.breaks

/-- The lines with one line more, and the empty lines after it. -/
def Lines.step? (e : Edition) (literal : Bool) (indent : Nat) (l : Lines) : Option Lines := do
  let line := l.spot.rest.takeWhile fun c => !isBreak e c
  let before := line.reverseAux ((l.between literal).reverseAux l.before)
  let gap := (l.spot.next?).any isGap
  let s := l.spot.pass line.length
  match lineEnd? e s.rest with
  | none => pure ⟨before, [], [], gap, s⟩
  | some (c, _) =>
    let (breaks, _, s) ← emptyLines? e (some indent) s.rest.length [] 0 (s.passLineEnd e)
    pure ⟨before, [c], breaks, gap, s⟩

/-- The lines with all that follow at the same column. -/
def Lines.run? (e : Edition) (literal : Bool) (indent : Nat) : Nat → Lines → Option Lines
  | 0, l => some l
  | fuel + 1, l =>
    if l.spot.column = indent ∧ ¬ l.spot.atEnd ∧ ¬ (indent = 0 ∧ l.spot.atMark e '.') then
      (l.step? e literal indent).bind (Lines.run? e literal indent fuel)
    else some l

/-- The text of the lines of a block scalar.  In the second edition a last line without an end has
one nevertheless. -/
def Lines.text (e : Edition) (chomping : Chomping) (indent : Nat) (l : Lines) : List Char :=
  let ends :=
    l.last ++
      (if e = .second ∧ l.spot.atEnd ∧ max indent 1 ≤ l.spot.column then ['\n'] else [])
  l.before.reverse ++
    match chomping with
    | .strip => []
    | .clip => ends
    | .keep => ends ++ l.breaks

/-! ## Scalars -/

/-- How far the lines are indented if the header does not tell, where empty lines before them reach
some columns. -/
def foundIndent (e : Edition) (indent : Int) (reach : Nat) : Nat :=
  max (max reach (indent + 1).toNat) (if e = .first then 1 else 0)

/-- What a block scalar stands for that has no lines but empty ones, in the second edition. -/
def emptyText (chomping : Chomping) (ended : Bool) (breaks : List Char) : List Char :=
  if chomping = .strip ∨ !ended then []
  else if chomping = .clip ∨ breaks.isEmpty then ['\n']
  else breaks

/-- The lines of a block scalar that begin at a spot, in a block at a column. -/
def blockLines? (e : Edition) (literal : Bool) (indent : Int) (header : Header) (ended : Bool)
    (s : Spot) : Option (List Char × Spot) := do
  let told := header.further.map (indent.toNat + ·)
  let (breaks, reach, s) ← emptyLines? e told s.rest.length [] 0 s
  let column := told.getD (foundIndent e indent reach)
  if e = .second ∧ s.atEnd then pure (emptyText header.chomping ended breaks, s)
  else if e = .second ∧ s.column < column ∧ indent < s.column then none
  else
    let l ← Lines.run? e literal column s.rest.length { breaks, spot := s }
    pure (l.text e header.chomping column, l.spot)

/-- The block scalar whose header comes next in a block at a column, and the spot after it.  In the
second edition the line after the header must not begin with a tab. -/
def block? (e : Edition) (literal : Bool) (indent : Int) (s : Spot) :
    Option (List Char × Spot) := do
  let (header, n) ← Header.read? (s.rest.drop 1)
  let t ← (s.pass (n + 1)).endLine? e
  if e = .second ∧ t.next? = some '\t' then none
  else blockLines? e literal indent header (s.line < t.line) t

example : (block? .second true 0 ⟨"|\n  a\n   b\n\nc".toList, 0, 0, 4, false⟩).map (·.1) =
    some "a\n b\n".toList := by decide +kernel
example : (block? .first false 0 ⟨">-\n  a\n  b\n\n  c\n".toList, 0, 0, 4, false⟩).map (·.1) =
    some "a b\nc".toList := by decide +kernel
example : (block? .second true 0 ⟨"|+2\n    a\n\n".toList, 0, 0, 4, false⟩).map (·.1) =
    some "  a\n\n".toList := by decide +kernel

end Yaml

end Rulebook
