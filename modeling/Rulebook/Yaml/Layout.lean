import Rulebook.Yaml.Token

/-!
# Layout

A text is cut into tokens from its front.  What has been seen so far is a *layout*:
the tokens, the blocks and flows that are open, and where a key may have begun.

Blocks are told by columns.  A block begins with its first item or key
(`Layout.beginBlock`) and ends before the first token that stands further left
(`Layout.endBlocks`).  In a flow, columns do not count.

That something is a key is seen only at the colon after it.  So a layout has a
*candidate*, the last token that may be the beginning of a key, and at the colon the
token of the key is put before it (`Layout.insert`).  A candidate of a block expires
at the end of its line and when it is too far behind.  If the block can have nothing
but a key there, the text is broken then.
-/

namespace Rulebook

namespace Yaml

/-- The beginning of what may be a key. -/
structure Candidate where
  /-- The number of tokens before it. -/
  count : Nat
  /-- Where it stands. -/
  spot : Spot
  /-- Whether nothing but a key may stand there. -/
  required : Bool

/-- A column that blocks are told by. -/
structure Margin where
  /-- The column of the block around it. -/
  outer : Int
  /-- Whether it is the column of a block.  If not, it is only where the value of a key may
  begin. -/
  isBlock : Bool

/-- What has been seen of a text. -/
structure Layout where
  /-- Where the text goes on. -/
  spot : Spot
  /-- The tokens, the last one first. -/
  tokens : List Token := []
  /-- The column of the block, or of where the value of a key may begin. -/
  indent : Int := -1
  /-- The margins, the last one first. -/
  margins : List Margin := []
  /-- The beginning of what may be a key in the block or flow. -/
  candidate : Option Candidate := none
  /-- The same for the flows and the block around the flow. -/
  outer : List (Option Candidate) := []
  /-- Whether a key may begin here. -/
  keyAllowed : Bool := true
  /-- Whether the last token is a property at the left margin. -/
  property : Bool := false
  /-- The index where a colon needs no gap after it. -/
  adjacent : Nat := 0
  /-- Whether pairs in flows need no mapping of their own. -/
  inMapping : Bool := false
  /-- Whether a pair with a mapping of its own is open. -/
  inPair : Bool := false

namespace Layout

/-- Whether the text goes on in a flow. -/
def inFlow (l : Layout) : Bool := !l.outer.isEmpty

/-- The layout at another spot. -/
def moveTo (s : Spot) (l : Layout) : Layout := { l with spot := s }

/-- The layout after some characters. -/
def pass (n : Nat) (l : Layout) : Layout := l.moveTo (l.spot.pass n)

/-- The layout with another token. -/
def push (t : Token) (l : Layout) : Layout := { l with tokens := t :: l.tokens, property := false }

/-- The layout with a token put after so many tokens. -/
def insert (count : Nat) (t : Token) (l : Layout) : Layout :=
  let later := l.tokens.length - count
  { l with tokens := l.tokens.take later ++ t :: l.tokens.drop later }

/-- The layout where a key may begin or not. -/
def allowKey (allowed : Bool) (l : Layout) : Layout := { l with keyAllowed := allowed }

/-! ## Margins -/

/-- What remains of margins beyond a column, the column of the last block, and the number of blocks
that end. -/
def remaining (column indent : Int) : List Margin → List Margin × Int × Nat
  | [] => ([], indent, 0)
  | m :: ms =>
    if indent ≤ column then (m :: ms, indent, 0)
    else
      let (ms, indent, n) := remaining column m.outer ms
      (ms, indent, if m.isBlock then n + 1 else n)

/-- The layout after the end of the blocks that are further right than a column. -/
def endBlocks (column : Int) (l : Layout) : Layout :=
  if l.inFlow then l
  else
    let (margins, indent, n) := remaining column l.indent l.margins
    { l with
      margins, indent
      tokens := List.replicate n .blockEnd ++ l.tokens
      property := l.property && n == 0 }

/-- Whether the last margin is one of a block. -/
def atBlock (l : Layout) : Bool := (l.margins.head?).any Margin.isBlock

/-- The layout without a last margin that is none of a block. -/
def leaveMargin (l : Layout) : Layout :=
  match l.margins with
  | m :: ms => if m.isBlock then l else { l with margins := ms, indent := m.outer }
  | [] => l

/-- The layout with a margin one column further right than the block. -/
def addMargin (l : Layout) : Layout :=
  if l.inFlow || !l.atBlock then l
  else { l with margins := ⟨l.indent, false⟩ :: l.margins, indent := l.indent + 1 }

/-- The layout with a block at a column, if there is none yet.  Its token is put after so many
tokens. -/
def beginBlock (column : Nat) (count : Nat) (t : Token) (l : Layout) : Layout :=
  if l.inFlow then l
  else
    let l := if l.indent ≤ column then l.leaveMargin else l
    if l.indent < column then
      insert count t { l with margins := ⟨l.indent, true⟩ :: l.margins, indent := column }
    else l

/-! ## Keys -/

/-- The layout with a candidate here, if a key may begin here. -/
def saveKey (l : Layout) : Layout :=
  if l.keyAllowed then
    { l with
      candidate := some ⟨l.tokens.length, l.spot,
        !l.inFlow && l.indent == l.spot.column && l.atBlock⟩ }
  else l

/-- The layout without the candidate: `none` if it has to be a key. -/
def dropKey? (l : Layout) : Option Layout :=
  if (l.candidate).any Candidate.required then none else some { l with candidate := none }

/-- How long a key may be. -/
def maxKeyLength : Nat := 1024

/-- The length of a text.  The first edition counts bytes and the second characters. -/
def lengthOf (e : Edition) (cs : List Char) : Nat :=
  match e with
  | .first => cs.foldl (fun n c => n + c.utf8Size) 0
  | .second => cs.length

/-- Whether a candidate has expired. -/
def isStale (e : Edition) (s : Spot) (k : Candidate) : Bool :=
  k.spot.line < s.line ||
    maxKeyLength < lengthOf e (k.spot.rest.take (s.index - k.spot.index))

/-- What is left of a candidate that may have expired: `none` if it has and has to be a key. -/
def unexpired? (e : Edition) (s : Spot) : Option Candidate → Option (Option Candidate)
  | none => some none
  | some k => if !isStale e s k then some (some k) else if k.required then none else some none

/-- The layout without what has expired.  In the first edition candidates expire in flows too. -/
def dropStale? (e : Edition) (l : Layout) : Option Layout :=
  if e = .second ∧ l.inFlow then some l
  else do
    let candidate ← unexpired? e l.spot l.candidate
    let outer ← l.outer.mapM (unexpired? e l.spot)
    pure { l with candidate, outer }

/-! ## Flows -/

/-- The layout in a flow. -/
def openFlow (l : Layout) : Layout :=
  { l with outer := l.candidate :: l.outer, candidate := none, keyAllowed := true }

/-- The layout after a flow: `none` if a candidate has to be a key. -/
def closeFlow? (l : Layout) : Option Layout := do
  let l ← l.dropKey?
  match l.outer with
  | [] => pure { l with keyAllowed := false }
  | k :: ks => pure { l with candidate := k, outer := ks, keyAllowed := false }

/-! ## Documents -/

/-- The layout before a mark or directive that ends all blocks: `none` if a candidate has to be a
key. -/
def endAll? (l : Layout) : Option Layout := (l.endBlocks (-1)).dropKey?.map (allowKey false)

/-- The layout after the mark of a document. -/
def documentMark? (t : Token) (l : Layout) : Option Layout := do
  let l ← l.endAll?
  pure ((l.push t).pass 3)

/-- The layout after a directive. -/
def directiveMark? (e : Edition) (l : Layout) : Option Layout := do
  let l ← l.endAll?
  let (d, s) ← directive? e l.spot
  pure ((l.push (.directive d)).moveTo s)

/-- The tokens of a whole text: `none` if a candidate has to be a key. -/
def finish? (l : Layout) : Option (List Token) := l.endAll?.map fun l => l.tokens.reverse

end Layout

end Yaml

end Rulebook
