import Rulebook.Yaml.Block
import Rulebook.Yaml.Layout
import Rulebook.Yaml.Plain

/-!
# Layout of the second edition

The tokens of the second edition, each from the layout before it.  No token may
stand further left than the value of the key before it begins, also in a flow.
Tabs may stand between tokens, but not where they would indent a block.

A pair in a sequence of a flow is a mapping of its own.  As long as no mapping has
begun in a flow, the pair has the tokens of one (`Layout.inPair`).
-/

namespace Rulebook

namespace Yaml

namespace Layout

namespace Second

/-- The layout at the next token, after blanks, comments and ends of lines, of which there are no
more than characters: `none` if a tab stands where it would indent a block. -/
def toToken? : Nat → Layout → Option Layout
  | 0, l => some l
  | fuel + 1, l =>
    let s := l.spot
    match s.next? with
    | none => some l
    | some c =>
      if c = '\t' ∧ ¬ l.margins.isEmpty ∧ s.fresh ∧ s.column < l.indent then
        match s.passComment? .second with
        | none => none
        | some s => if atLineEnd .second s.rest then toToken? fuel (l.moveTo s) else none
      else if isGap c then toToken? fuel (l.moveTo (s.passGap 1))
      else if isBreak .second c then
        toToken? fuel ((l.moveTo (s.passLineEnd .second)).allowKey (l.keyAllowed || !l.inFlow))
      else if c = '#' then toToken? fuel (l.moveTo (s.passLine .second))
      else some l

/-- The layout after some characters, blanks and a comment. -/
def passOn? (n : Nat) (l : Layout) : Option Layout :=
  ((l.spot.pass n).passComment? .second).map l.moveTo

/-! ## Flows -/

/-- The number of flows that may be inside one another. -/
def maxFlows : Nat := 255

/-- The layout after the end of a pair with a mapping of its own. -/
def endPair (l : Layout) : Layout :=
  if l.inPair then { l.push .flowMappingEnd with inPair := false, inMapping := false } else l

/-- The layout after the beginning of a flow. -/
def openFlow? (t : Token) (inMapping : Bool) (l : Layout) : Option Layout :=
  let l := l.saveKey.addMargin.openFlow
  if maxFlows < l.outer.length then none
  else (passOn? 1 { l with inMapping }).map (push t)

/-- The layout after the end of a flow.  In a flow the colon of a value may follow at once. -/
def closeFlow? (t : Token) (l : Layout) : Option Layout := do
  let l ← passOn? 1 (endPair (← l.closeFlow?))
  pure (push t { l with adjacent := if l.inFlow then l.spot.index else l.adjacent })

/-- The layout after a comma. -/
def comma? (l : Layout) : Option Layout := do
  let l ← passOn? 1 (endPair ((← l.dropKey?).allowKey true))
  pure (l.push .comma)

/-! ## Blocks -/

/-- Whether a tab stands between the dashes of two items. -/
def hasTabBetween (s : Spot) : Bool :=
  let t := s.passGaps
  (s.rest.takeWhile isGap).contains '\t' && t.next? == some '-' && atGap .second (t.rest.drop 1)

/-- The layout after the dash of an item. -/
def item? (l : Layout) : Option Layout :=
  if l.inFlow || !l.keyAllowed || hasTabBetween (l.spot.pass 1) ||
      (l.property && l.spot.column == 0 && -1 < l.indent) then none
  else do
    let l ← passOn? 1 (l.beginBlock l.spot.column l.tokens.length .blockSequence)
    let l :=
      if (l.spot.next?).any fun c => isBreak .second c || isFlowMark c then l.addMargin else l
    pure (((← l.dropKey?).allowKey true).push .item)

/-- The layout after spaces, comments and ends of lines, of which there are no more than
characters. -/
def passSpace : Nat → Layout → Layout
  | 0, l => l
  | fuel + 1, l =>
    match l.spot.next? with
    | none => l
    | some c =>
      if c = ' ' then passSpace fuel (l.moveTo (l.spot.passGap 1))
      else if isBreak .second c then
        passSpace fuel
          ((l.moveTo (l.spot.passLineEnd .second)).allowKey (l.keyAllowed || !l.inFlow))
      else if c = '#' then passSpace fuel (l.moveTo (l.spot.passLine .second))
      else l

/-- The layout after the question mark of a key, which a space or the end of a line must follow, and
no tab after that. -/
def key? (l : Layout) : Option Layout :=
  if !l.inFlow && !l.keyAllowed then none
  else do
    let l ← (l.beginBlock l.spot.column l.tokens.length .blockMapping).dropKey?
    let l := ({ l with inMapping := l.inMapping || l.inFlow }.allowKey (!l.inFlow)).pass 1
    let after := passSpace l.spot.rest.length l
    if after.spot.index = l.spot.index ∨ after.spot.next? = some '\t' then none
    else pure (after.push .key)

/-- The spot after a colon and tabs, which must not be all that is before a word. -/
def afterColon? (s : Spot) : Option Spot :=
  let s := s.pass 1
  if s.next? = some '\t' then do
    let t ← s.passComment? .second
    if !(s.rest.takeWhile isGap).contains ' ' && (t.next?).any isNameChar then none else pure t
  else some s

/-- The layout after the colon of a value.  The candidate is its key. -/
def value? (l : Layout) : Option Layout := do
  let s ← afterColon? l.spot
  let inPair := l.inFlow && !l.inMapping
  match l.candidate with
  | some k =>
    if inPair ∧ k.spot.line < l.spot.line then none
    else
      let l := l.insert k.count .key
      let l := if inPair then l.insert k.count .flowMapping else l
      let l := (l.beginBlock k.spot.column k.count .blockMapping).addMargin
      pure ((({ l with candidate := none, inPair }.allowKey false).push .value).moveTo s)
  | none =>
    if !l.inFlow && !l.keyAllowed then none
    else
      let l := if inPair then l.push .flowMapping else l
      let l := (l.beginBlock l.spot.column l.tokens.length .blockMapping).addMargin
      pure ((({ l with inPair }.allowKey (!l.inFlow)).push .value).moveTo s)

/-! ## Properties and scalars -/

/-- The layout after a token that may be the beginning of a key. -/
def leaf? (found : Option (Token × Spot)) (l : Layout) : Option Layout :=
  found.map fun (t, s) => ((l.saveKey.allowKey false).push t).moveTo s

/-- The layout after a property. -/
def property? (found : Option (Token × Spot)) (l : Layout) : Option Layout :=
  (leaf? found l).map fun t => { t with property := l.spot.column == 0 }

/-- The layout after a plain scalar.  A key may begin after it if it ends with the end of a line. -/
def plain? (l : Layout) : Option Layout := do
  let l := l.saveKey.leaveMargin
  let (text, s) ← Yaml.plain? .second l.inFlow l.indent l.spot
  pure (((l.allowKey s.fresh).push (.scalar true (String.ofList text))).moveTo s)

/-- Whether something may stand after a quoted scalar that begins on a line. -/
def mayFollow (inFlow : Bool) (line : Nat) (s : Spot) : Bool :=
  match s.next? with
  | none => true
  | some c =>
    isBreak .second c || (inFlow && (c == ',' || c == ']' || c == '}')) ||
      (c == ':' && (inFlow || s.line == line))

/-- The layout after a quoted scalar.  In a flow the colon of a value may follow at once. -/
def quoted? (quote : Char) (l : Layout) : Option Layout := do
  let (text, s) ← Yaml.quoted? .second quote l.indent l.spot
  let s ← s.passComment? .second
  if mayFollow l.inFlow l.spot.line s then
    let l ← toToken? (s.rest.length + 1) ((l.saveKey.allowKey false).moveTo s)
    pure (push (.scalar false (String.ofList text)) { l with adjacent := l.spot.index })
  else none

/-- The layout after a block scalar. -/
def block? (literal : Bool) (l : Layout) : Option Layout := do
  let l := l.saveKey.leaveMargin
  let (text, s) ← Yaml.block? .second literal l.indent l.spot
  pure (((l.allowKey true).push (.scalar false (String.ofList text))).moveTo s)

/-! ## Tokens -/

/-- The layout after the mark of the end of a document, which must be all on its line. -/
def documentEnd? (l : Layout) : Option Layout := do
  let l ← l.documentMark? .documentEnd
  let l ← passOn? 0 l
  if atLineEnd .second l.spot.rest then pure l else none

/-- The layout after the next token, which begins with a character that others follow: `none` if no
token begins so. -/
def next? (l : Layout) (c : Char) (cs : List Char) : Option Layout :=
  if l.spot.column = 0 ∧ c = '%' then l.directiveMark? .second
  else if l.spot.atMark .second '-' then l.documentMark? .documentStart
  else if l.spot.atMark .second '.' then documentEnd? l
  else if l.spot.column < l.indent then none
  else if c = '[' then openFlow? .flowSequence l.inMapping l
  else if c = '{' then openFlow? .flowMapping true l
  else if c = ']' then closeFlow? .flowSequenceEnd l
  else if c = '}' then closeFlow? .flowMappingEnd l
  else if c = ',' then comma? l
  else if c = '-' ∧ atGap .second cs then item? l
  else if c = '?' ∧ atGap .second cs then key? l
  else if c = ':' ∧ (atGap .second cs ∨
      (l.inFlow ∧ (atFlowMark cs ∨ l.spot.index = l.adjacent))) then value? l
  else if c = '*' then leaf? ((anchor? .second l.spot).map fun (name, s) => (.alias name, s)) l
  else if c = '&' then
    property? ((anchor? .second l.spot).map fun (name, s) => (.anchor name, s)) l
  else if c = '!' then property? ((tag? .second l.inFlow l.spot).map fun (t, s) => (.tag t, s)) l
  else if (c = '|' ∨ c = '>') ∧ ¬ l.inFlow then block? (c = '|') l
  else if c = '\'' ∨ c = '"' then quoted? c l
  else if c = '%' ∨ c = '@' ∨ c = '\x60' then none
  else plain? l

end Second

end Layout

end Yaml

end Rulebook
