import Rulebook.Yaml.Fold

/-!
# Plain scalars

A plain scalar has no quotes.  It begins with a character that means nothing else
where it stands, and ends before a colon with a gap after it, before a comment and,
in a flow, before a mark of the flow.  In a block it goes on in the lines below as
long as they are indented further than the block.
-/

namespace Rulebook

namespace Yaml

/-- The characters with a meaning at the front of a scalar. -/
def isIndicator (c : Char) : Bool :=
  isFlowMark c || c == '#' || c == '&' || c == '*' || c == '!' || c == '|' || c == '>' ||
    c == '\'' || c == '"' || c == '%' || c == '@' || c == '\x60'

/-- Whether a plain scalar of the first edition may begin here. -/
def plainStarts (flow : Bool) : List Char → Bool
  | [] => false
  | c :: cs =>
    if isGap c || isBreak .first c then false
    else if c = '-' then !(cs.head?).any isGap
    else if c = '?' ∨ c = ':' then !flow && !atGap .first cs
    else !isIndicator c

/-- Whether a plain scalar ends before the first of these characters, which is not in a gap. -/
def plainEnds (e : Edition) (flow : Bool) (c : Char) (cs : List Char) : Bool :=
  (c == ':' && (atGap e cs || (e == .second && flow && atFlowMark cs))) || (flow && isFlowMark c)

/-- Whether a colon stands where the first edition has no meaning for it. -/
def isStray (e : Edition) (flow : Bool) (c : Char) (cs : List Char) : Bool :=
  e == .first && flow && c == ':' && (cs.head?).any fun d => isFlowMark d || d == '?'

/-- The part of a plain scalar up to a gap or its end, and its length: `none` if a colon in it has
no meaning. -/
def plainPart? (e : Edition) (flow : Bool) : List Char → Option (List Char × Nat)
  | [] => some ([], 0)
  | c :: cs =>
    if isGap c || isBreak e c then some ([], 0)
    else if isStray e flow c cs then none
    else if plainEnds e flow c cs then some ([], 0)
    else (plainPart? e flow cs).map fun (part, n) => (c :: part, n + 1)

/-- The spot after a tab that indents a line of a scalar.  The second edition takes it on a line
that is empty but for a comment. -/
def passPlainTab? (e : Edition) (least : Int) (s : Spot) : Option Spot :=
  if least ≤ s.column then some (s.passGap 1)
  else
    match e with
    | .first => none
    | .second => (s.passComment? e).bind fun s => if atLineEnd e s.rest then some s else none

/-- Whether a dash has no meaning here, because a mark of the flow follows it. -/
def isStrayDash (e : Edition) (flow : Bool) (s : Spot) : Bool :=
  e == .second && flow && s.next? == some '-' && atFlowMark (s.rest.drop 1)

/-- What is left of a plain scalar whose lines begin at a column or after it, after the reversed
text before it and a gap, and the spot after it.  The gap counts if a part follows. -/
def plainRest? (e : Edition) (flow : Bool) (least : Int) :
    Nat → List Char → List Char → Spot → Option (List Char × Spot)
  | 0, before, _, s => some (before.reverse, s)
  | fuel + 1, before, gap, s =>
    if s.atDocumentMark e || s.next? == some '#' then some (before.reverse, s)
    else if isStrayDash e flow s then none
    else
      match plainPart? e flow s.rest with
      | none => none
      | some (_, 0) => some (before.reverse, s)
      | some (part, n) =>
        let before := part.reverseAux (gap.reverseAux before)
        let s := s.pass n
        match gap? e (passPlainTab? e least) s.rest.length {} s with
        | none => none
        | some (g, t) =>
          if t.index = s.index ∨ (!flow ∧ t.column < least) then some (before.reverse, t)
          else plainRest? e flow least fuel before (g.text t.fresh) t

/-- The plain scalar that comes next in a block at a column or in a flow, and the spot after it. -/
def plain? (e : Edition) (flow : Bool) (indent : Int) (s : Spot) : Option (List Char × Spot) :=
  if e = .second ∧ flow ∧ s.column < indent + 1 then none
  else plainRest? e flow (indent + 1) s.rest.length [] [] s

example : (plain? .first false 0 ⟨"a b  # c\n  d".toList, 0, 0, 4, false⟩).map (·.1) =
    some "a b".toList := by decide +kernel
example : (plain? .second false 0 ⟨"a\n b\n\n c\nd".toList, 0, 0, 4, false⟩).map (·.1) =
    some "a b\nc".toList := by decide +kernel
example : (plain? .first true 0 ⟨"a:,b".toList, 0, 0, 4, false⟩).isNone := by decide +kernel

end Yaml

end Rulebook
