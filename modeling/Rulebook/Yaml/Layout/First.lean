import Rulebook.Yaml.Block
import Rulebook.Yaml.Layout
import Rulebook.Yaml.Plain

/-!
# Layout of the first edition

The tokens of the first edition, each from the layout before it.  Tabs may stand
before a token only where no key may begin, so that no block is indented by tabs.
A comment may follow another token without a gap.
-/

namespace Rulebook

namespace Yaml

namespace Layout

namespace First

/-- The layout at the next token, after blanks, comments and ends of lines, of which there are no
more than characters.  A byte order mark at the front of the text is passed over, but has a
column. -/
def toToken : Nat → Layout → Layout
  | 0, l => l
  | fuel + 1, l =>
    let s := if l.spot.index = 0 ∧ l.spot.next? = some '\ufeff' then l.spot.pass 1 else l.spot
    let s := if l.inFlow ∨ ¬ l.keyAllowed then s.passGaps else s.passSpaces
    let s := if s.next? = some '#' then s.passLine .first else s
    if (s.next?).any (isBreak .first) then
      toToken fuel ((l.moveTo (s.passLineEnd .first)).allowKey (l.keyAllowed || !l.inFlow))
    else l.moveTo s

/-! ## Flows -/

/-- The layout after the beginning of a flow. -/
def openFlow (t : Token) (l : Layout) : Layout := (l.saveKey.openFlow.push t).pass 1

/-- The layout after the end of a flow. -/
def closeFlow? (t : Token) (l : Layout) : Option Layout :=
  l.closeFlow?.map fun l => (l.push t).pass 1

/-- The layout after a comma. -/
def comma? (l : Layout) : Option Layout :=
  l.dropKey?.map fun l => ((l.allowKey true).push .comma).pass 1

/-! ## Blocks -/

/-- The layout after the dash of an item. -/
def item? (l : Layout) : Option Layout :=
  if !l.inFlow && !l.keyAllowed then none
  else
    (l.beginBlock l.spot.column l.tokens.length .blockSequence).dropKey?.map fun l =>
      ((l.allowKey true).push .item).pass 1

/-- The layout after the question mark of a key. -/
def key? (l : Layout) : Option Layout :=
  if !l.inFlow && !l.keyAllowed then none
  else
    (l.beginBlock l.spot.column l.tokens.length .blockMapping).dropKey?.map fun l =>
      ((l.allowKey (!l.inFlow)).push .key).pass 1

/-- The layout after the colon of a value.  The candidate is its key. -/
def value? (l : Layout) : Option Layout :=
  match l.candidate with
  | some k =>
    let l := (l.insert k.count .key).beginBlock k.spot.column k.count .blockMapping
    some (((({ l with candidate := none }).allowKey false).push .value).pass 1)
  | none =>
    if !l.inFlow && !l.keyAllowed then none
    else
      let l := l.beginBlock l.spot.column l.tokens.length .blockMapping
      some (((l.allowKey (!l.inFlow)).push .value).pass 1)

/-! ## Properties and scalars -/

/-- The layout after a token that may be the beginning of a key. -/
def leaf? (found : Option (Token × Spot)) (l : Layout) : Option Layout :=
  found.map fun (t, s) => ((l.saveKey.allowKey false).push t).moveTo s

/-- The layout after a plain scalar.  A key may begin after it if it ends with the end of a line. -/
def plain? (l : Layout) : Option Layout := do
  let (text, s) ← Yaml.plain? .first l.inFlow l.indent l.spot
  let l := l.saveKey.allowKey s.fresh
  pure ((l.push (.scalar true (String.ofList text))).moveTo s)

/-- The layout after a quoted scalar. -/
def quoted? (quote : Char) (l : Layout) : Option Layout :=
  l |> leaf? ((Yaml.quoted? .first quote l.indent l.spot).map fun (text, s) =>
    (.scalar false (String.ofList text), s))

/-- The layout after a block scalar. -/
def block? (literal : Bool) (l : Layout) : Option Layout := do
  let l ← l.dropKey?
  let (text, s) ← Yaml.block? .first literal l.indent l.spot
  pure (((l.allowKey true).push (.scalar false (String.ofList text))).moveTo s)

/-! ## Tokens -/

/-- The layout after the next token, which begins with a character that others follow: `none` if no
token begins so. -/
def next? (l : Layout) (c : Char) (cs : List Char) : Option Layout :=
  if l.spot.column = 0 ∧ c = '%' then l.directiveMark? .first
  else if l.spot.atMark .first '-' then l.documentMark? .documentStart
  else if l.spot.atMark .first '.' then l.documentMark? .documentEnd
  else if c = '[' then some (openFlow .flowSequence l)
  else if c = '{' then some (openFlow .flowMapping l)
  else if c = ']' then closeFlow? .flowSequenceEnd l
  else if c = '}' then closeFlow? .flowMappingEnd l
  else if c = ',' then comma? l
  else if c = '-' ∧ atGap .first cs then item? l
  else if c = '?' ∧ (l.inFlow ∨ atGap .first cs) then key? l
  else if c = ':' ∧ (l.inFlow ∨ atGap .first cs) then value? l
  else if c = '*' then leaf? ((anchor? .first l.spot).map fun (name, s) => (.alias name, s)) l
  else if c = '&' then leaf? ((anchor? .first l.spot).map fun (name, s) => (.anchor name, s)) l
  else if c = '!' then leaf? ((tag? .first l.inFlow l.spot).map fun (t, s) => (.tag t, s)) l
  else if (c = '|' ∨ c = '>') ∧ ¬ l.inFlow then block? (c = '|') l
  else if c = '\'' ∨ c = '"' then quoted? c l
  else if plainStarts l.inFlow (c :: cs) then plain? l
  else none

end First

end Layout

end Yaml

end Rulebook
