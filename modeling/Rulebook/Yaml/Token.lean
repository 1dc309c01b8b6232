import Rulebook.Yaml.Quoted

/-!
# Tokens

A YAML text is a list of tokens.  Some are written, such as brackets and scalars,
and some are only seen in the columns of a text: where a block begins and ends, and
that a scalar is a key.  A *property* of a value is its tag or its anchor.

This module has the tokens, and reads those of properties and directives.
-/

namespace Rulebook

namespace Yaml

/-- A tag with its handle, which is empty if the tag is written out. -/
structure Tag where
  /-- The handle, with its exclamation marks. -/
  handle : String
  /-- What follows the handle. -/
  suffix : String
  deriving DecidableEq

/-- What is said to those who read a document. -/
inductive Directive where
  /-- The version of YAML. -/
  | version (major minor : Nat)
  /-- What a handle stands for. -/
  | tag (handle meaning : String)

/-- A token. -/
inductive Token where
  /-- A directive. -/
  | directive (d : Directive)
  /-- The mark before a document. -/
  | documentStart
  /-- The mark after a document. -/
  | documentEnd
  /-- The beginning of a sequence in a block. -/
  | blockSequence
  /-- The beginning of a mapping in a block. -/
  | blockMapping
  /-- The end of a block. -/
  | blockEnd
  /-- The bracket before a sequence. -/
  | flowSequence
  /-- The bracket after a sequence. -/
  | flowSequenceEnd
  /-- The brace before a mapping. -/
  | flowMapping
  /-- The brace after a mapping. -/
  | flowMappingEnd
  /-- The dash before an item of a block. -/
  | item
  /-- The comma between parts of a flow. -/
  | comma
  /-- What comes before a key. -/
  | key
  /-- What comes before the value of a key. -/
  | value
  /-- A value that stands elsewhere under a name. -/
  | alias (name : String)
  /-- A name for the value that follows. -/
  | anchor (name : String)
  /-- The tag of the value that follows. -/
  | tag (t : Tag)
  /-- A scalar, and whether it is plain. -/
  | scalar (plain : Bool) (text : String)
  deriving Inhabited

/-! ## Anchors -/

/-- Whether a character may be in the name of an anchor. -/
def isAnchorChar (e : Edition) (c : Char) : Bool :=
  match e with
  | .first => isNameChar c
  | .second => !isGap c && !isBreak .second c && !isFlowMark c && c != '\ufeff'

/-- Whether the name of an anchor may end here. -/
def anchorEnds (e : Edition) (cs : List Char) : Bool :=
  e == .second || atGap e cs ||
    (cs.head?).any fun c => ['?', ':', ',', ']', '\x7d', '%', '@', '\x60'].contains c

/-- The name of an anchor whose sign comes next, and the spot after it. -/
def anchor? (e : Edition) (s : Spot) : Option (String × Spot) :=
  let name := (s.rest.drop 1).takeWhile (isAnchorChar e)
  let t := s.pass (name.length + 1)
  if name.isEmpty || !anchorEnds e t.rest then none else some (String.ofList name, t)

/-! ## Tags -/

/-- Whether a character may be in a tag.  Only a tag that is written out may have marks of a
flow. -/
def isTagChar (e : Edition) (whole : Bool) (c : Char) : Bool :=
  isNameChar c ||
    [';', '/', '?', ':', '@', '&', '=', '+', '$', '.', '%', '~', '*', '\'', '(', ')'].contains c ||
    (c == '!' && (whole || e == .first)) || (c == '#' && e == .second) ||
    (whole && (c == ',' || c == '[' || c == ']'))

/-- How many bytes follow the first byte of a character: `none` if no character begins with it.  The
second edition has no characters beyond those of two bytes. -/
def following? (e : Edition) (byte : Nat) : Option Nat :=
  if byte < 0x80 then some 0
  else if 0xC0 ≤ byte ∧ byte < 0xE0 then
    if e = .second ∧ 0xD8 ≤ byte then none else some 1
  else if e = .second then none
  else if 0xE0 ≤ byte ∧ byte < 0xF0 then some 2
  else if 0xF0 ≤ byte ∧ byte < 0xF8 then some 3
  else none

/-- The characters of a tag and how many characters they are written with, where some bytes of a
character are yet to come.  A percent sign and two digits write a byte, which stands here as the
character of its number. -/
def tagPart? (e : Edition) (whole : Bool) : Nat → List Char → Option (List Char × Nat)
  | due, [] => if due = 0 then some ([], 0) else none
  | due, '%' :: a :: b :: cs => do
    let byte ← hexNumber? [a, b]
    let due ←
      if due = 0 then following? e byte
      else if 0x80 ≤ byte ∧ byte < 0xC0 then some (due - 1)
      else none
    let (text, n) ← tagPart? e whole due cs
    pure (Char.ofNat byte :: text, n + 3)
  | due, c :: cs =>
    if c = '%' ∨ due ≠ 0 then none
    else if isTagChar e whole c then
      (tagPart? e whole 0 cs).map fun (text, n) => (c :: text, n + 1)
    else some ([], 0)

/-- Whether a tag may end here. -/
def tagEnds (e : Edition) (flow : Bool) (cs : List Char) : Bool :=
  atGap e cs || (flow && (cs.head?).any fun c => if e = .first then c == ',' else isFlowMark c)

/-- The tag that comes next, and the number of its characters. -/
def tagText? (e : Edition) : List Char → Option (Tag × Nat)
  | '!' :: '<' :: cs => do
    let (text, n) ← tagPart? e true 0 cs
    if (cs.drop n).head? = some '>' ∧ (e = .second ∨ n ≠ 0) then
      pure (⟨"", String.ofList text⟩, n + 3)
    else none
  | '!' :: cs => do
    let name := cs.takeWhile isNameChar
    match cs.drop name.length with
    | '!' :: cs =>
      let (text, n) ← tagPart? e false 0 cs
      if n = 0 then none
      else pure (⟨String.ofList ('!' :: name ++ ['!']), String.ofList text⟩, name.length + n + 2)
    | cs =>
      let (text, n) ← tagPart? e false 0 cs
      if name.length + n = 0 then pure (⟨"", "!"⟩, 1)
      else pure (⟨"!", String.ofList (name ++ text)⟩, name.length + n + 1)
  | _ => none

/-- The tag that comes next, and the spot after it. -/
def tag? (e : Edition) (flow : Bool) (s : Spot) : Option (Tag × Spot) := do
  let (tag, n) ← tagText? e s.rest
  let t := s.pass n
  if tagEnds e flow t.rest then pure (tag, t) else none

/-! ## Directives -/

/-- A number of at most nine digits, and the spot after it. -/
def versionNumber? (s : Spot) : Option (Nat × Spot) :=
  let digits := s.rest.takeWhile Char.isDigit
  if digits.isEmpty ∨ 9 < digits.length then none
  else some (digits.foldl (fun n c => 10 * n + (c.toNat - 48)) 0, s.pass digits.length)

/-- The version that comes next, and the spot after it. -/
def version? (s : Spot) : Option (Directive × Spot) := do
  let (major, s) ← versionNumber? s
  if s.next? = some '.' then
    let (minor, s) ← versionNumber? (s.pass 1)
    pure (.version major minor, s)
  else none

/-- The handle that comes next, and the spot after it.  A handle has an exclamation mark at either
end, which may be the same. -/
def handle? (s : Spot) : Option (String × Spot) :=
  match s.rest with
  | '!' :: cs =>
    let name := cs.takeWhile isNameChar
    if (cs.drop name.length).head? = some '!' then
      some (String.ofList ('!' :: name ++ ['!']), s.pass (name.length + 2))
    else if name.isEmpty then some ("!", s.pass 1)
    else none
  | _ => none

/-- What a handle stands for, and the spot after it.  In the second edition it must not begin with a
mark of a flow. -/
def meaning? (e : Edition) (s : Spot) : Option (String × Spot) := do
  let (text, n) ← tagPart? e true 0 s.rest
  if n = 0 ∨ (e = .second ∧ atFlowMark s.rest) then none
  else
    let t := s.pass n
    if atGap e t.rest then pure (String.ofList text, t) else none

/-- The handle that comes next and what it stands for, and the spot after both. -/
def tagDirective? (e : Edition) (s : Spot) : Option (Directive × Spot) := do
  let (handle, t) ← handle? s
  if e = .first ∧ ¬ (t.next?).any isGap then none
  else
    let (meaning, t) ← meaning? e t.passGaps
    pure (.tag handle meaning, t)

/-- The directive whose sign comes next, and the spot in the line after it.  The second edition
passes over directives that it does not know, and has an empty handle in their place. -/
def directive? (e : Edition) (s : Spot) : Option (Directive × Spot) := do
  let name := (s.rest.drop 1).takeWhile isNameChar
  let s := s.pass (name.length + 1)
  if name.isEmpty ∨ ¬ atGap e s.rest then none
  else
    let (d, s) ←
      if name = "YAML".toList then version? s.passGaps
      else if name = "TAG".toList then tagDirective? e s.passGaps
      else if e = .first then none
      else pure (.tag "" "", s.passLine e)
    pure (d, ← s.endLine? e)

end Yaml

end Rulebook
