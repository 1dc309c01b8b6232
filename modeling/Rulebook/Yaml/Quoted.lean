import Rulebook.Yaml.Fold

/-!
# Quoted scalars

Between single quotes a doubled quote is one quote, and every other character is
itself.  Between double quotes a backslash begins an escape, and before the end of
a line it glues the next line to this one.

A quoted scalar may go on in the lines below, but not beyond its document.  In the
second edition these lines must be indented like the block around them.
-/

namespace Rulebook

namespace Yaml

/-! ## Escapes -/

/-- The value of a hexadecimal digit. -/
def hexValue? (c : Char) : Option Nat :=
  if '0' ≤ c ∧ c ≤ '9' then some (c.toNat - 48)
  else if 'a' ≤ c ∧ c ≤ 'f' then some (c.toNat - 87)
  else if 'A' ≤ c ∧ c ≤ 'F' then some (c.toNat - 55)
  else none

/-- The number that hexadecimal digits make. -/
def hexNumber? (ds : List Char) : Option Nat :=
  (ds.mapM hexValue?).map fun vs => vs.foldl (fun n v => 16 * n + v) 0

/-- The character of a number in hexadecimal digits. -/
def hexChar? (ds : List Char) : Option Char :=
  match hexNumber? ds with
  | none => none
  | some n => if n.isValidChar then some (Char.ofNat n) else none

/-- The character of an escape of one letter. -/
def escape? : Char → Option Char
  | '0' => some '\x00'
  | 'a' => some '\x07'
  | 'b' => some '\x08'
  | 't' | '\t' => some '\t'
  | 'n' => some '\n'
  | 'v' => some '\x0b'
  | 'f' => some '\x0c'
  | 'r' => some '\r'
  | 'e' => some '\x1b'
  | ' ' => some ' '
  | '"' => some '"'
  | '/' => some '/'
  | '\\' => some '\\'
  | 'N' => some '\x85'
  | '_' => some (Char.ofNat 0xA0)
  | 'L' => some (Char.ofNat 0x2028)
  | 'P' => some (Char.ofNat 0x2029)
  | _ => none

/-! ## Parts -/

/-- A part of a scalar, and how many characters it is written with. -/
abbrev Part := List Char × Nat

/-- A part with a character before it that is written with some characters. -/
def Part.cons (c : Char) (n : Nat) (p : Part) : Part := (c :: p.1, n + p.2)

/-- The part of a scalar in single quotes up to a gap or the quote that ends it. -/
def singlePart (e : Edition) : List Char → Part
  | [] => ([], 0)
  | '\'' :: '\'' :: cs => (singlePart e cs).cons '\'' 2
  | c :: cs =>
    if c = '\'' ∨ isGap c ∨ isBreak e c then ([], 0) else (singlePart e cs).cons c 1

/-- The part of a scalar in double quotes up to a gap, the quote that ends it or a glued end of the
line: `none` if an escape has no meaning. -/
def doublePart? (e : Edition) : List Char → Option Part
  | [] => some ([], 0)
  | '\\' :: 'x' :: a :: b :: cs => do
    pure ((← doublePart? e cs).cons (← hexChar? [a, b]) 4)
  | '\\' :: 'u' :: a :: b :: c :: d :: cs => do
    pure ((← doublePart? e cs).cons (← hexChar? [a, b, c, d]) 6)
  | '\\' :: 'U' :: a :: b :: c :: d :: f :: g :: h :: i :: cs => do
    pure ((← doublePart? e cs).cons (← hexChar? [a, b, c, d, f, g, h, i]) 10)
  | '\\' :: c :: cs =>
    if isBreak e c then some ([], 0)
    else do pure ((← doublePart? e cs).cons (← escape? c) 2)
  | ['\\'] => none
  | c :: cs =>
    if c = '"' ∨ isGap c ∨ isBreak e c then some ([], 0)
    else (doublePart? e cs).map (·.cons c 1)

/-- The part of a scalar in quotes of a kind. -/
def quotedPart? (e : Edition) (quote : Char) (cs : List Char) : Option Part :=
  if quote = '\'' then some (singlePart e cs) else doublePart? e cs

/-! ## Scalars -/

/-- The spot after a tab that indents a line of a scalar. -/
def passQuotedTab? (e : Edition) (indent : Int) (s : Spot) : Option Spot :=
  if e = .second ∧ s.column < indent then none else some (s.passGap 1)

/-- Whether a quoted scalar may not go on here. -/
def quotedStops (e : Edition) (indent : Int) (s : Spot) : Bool :=
  s.atDocumentMark e || s.atEnd || (e == .second && s.column < indent)

/-- What is left of a quoted scalar, after the reversed text before it, and the spot after the quote
that ends it.  Every part but the last has a gap after it, which is a character or more. -/
def quotedRest? (e : Edition) (quote : Char) (indent : Int) :
    Nat → List Char → Spot → Option (List Char × Spot)
  | 0, _, _ => none
  | fuel + 1, before, s =>
    if quotedStops e indent s then none
    else
      match quotedPart? e quote s.rest with
      | none => none
      | some (part, n) =>
        let before := part.reverseAux before
        let s := s.pass n
        if s.next? = some quote then some (before.reverse, s.pass 1)
        else
          let s := if s.next? = some '\\' then (s.pass 1).passLineEnd e else s
          match gap? e (passQuotedTab? e indent) s.rest.length {} s with
          | none => none
          | some (g, s) => quotedRest? e quote indent fuel ((g.text s.fresh).reverseAux before) s

/-- The quoted scalar whose opening quote comes next, and the spot after it. -/
def quoted? (e : Edition) (quote : Char) (indent : Int) (s : Spot) : Option (List Char × Spot) :=
  quotedRest? e quote indent s.rest.length [] (s.pass 1)

example : (quoted? .first '"' (-1) ⟨"\"a \\u00e9\\\n  b\" x".toList, 0, 0, 0, true⟩).map (·.1) =
    some "a éb".toList := by decide +kernel
example : (quoted? .second '\'' 0 ⟨"'it''s \n\n one'".toList, 0, 0, 2, true⟩).map (·.1) =
    some "it's\none".toList := by decide +kernel
example : (quoted? .second '\'' 2 ⟨"'a\n b'".toList, 0, 0, 2, true⟩).isNone := by decide +kernel

end Yaml

end Rulebook
