import Rulebook.Yaml.Layout.First
import Rulebook.Yaml.Layout.Second

/-!
# Reading YAML

A YAML value is a scalar, a sequence, a mapping, or an alias for a value that
stands elsewhere.  What a scalar means is for those who ask for it to say, so it
only tells its tag and whether it was plain.

`tokensOf?` cuts a text into tokens, and `documents?` puts these together.  Blocks
are in the tokens already, so this is a grammar without columns.  A text is broken
if any part of it is, also after its first document.

Every character makes at most one step of the layout, so the number of characters
bounds the first part.  In the second part at most three steps go by before a token
is used up.
-/

namespace Rulebook

namespace Yaml

/-- The tag of a value and the number of its anchor. -/
structure Properties where
  /-- The tag, with what its handle stands for. -/
  tag : Option Tag := none
  /-- The number of the anchor. -/
  anchor : Option Nat := none

end Yaml

/-- A YAML value. -/
inductive Yaml where
  /-- A scalar, and whether it was written without quotes. -/
  | scalar (properties : Yaml.Properties) (plain : Bool) (text : String)
  /-- A sequence. -/
  | sequence (properties : Yaml.Properties) (items : List Yaml)
  /-- A mapping, its entries in the order of the text. -/
  | mapping (properties : Yaml.Properties) (entries : List (Yaml × Yaml))
  /-- The value with a number. -/
  | alias (number : Nat)
  deriving Inhabited

namespace Yaml

/-! ## Tokens -/

/-- The tokens of a layout and what follows it. -/
def tokensFrom? (e : Edition) : Nat → Layout → Option (List Token)
  | 0, _ => none
  | fuel + 1, l => do
    let n := l.spot.rest.length + 1
    let l ← match e with
      | .first => pure (Layout.First.toToken n l)
      | .second => Layout.Second.toToken? n l
    let l := (← l.dropStale? e).endBlocks l.spot.column
    match l.spot.rest with
    | [] => l.finish?
    | c :: cs =>
      let l ← match e with
        | .first => Layout.First.next? l c cs
        | .second => Layout.Second.next? l c cs
      tokensFrom? e fuel l

/-- The tokens of a text: `none` if the text is broken. -/
def tokensOf? (e : Edition) (text : String) : Option (List Token) := do
  let cs ← charsOf? e text
  tokensFrom? e (cs.length + 1) { spot := { rest := cs } }

/-! ## Properties -/

/-- Tokens that are to be put together, and what is known from those before them. -/
structure Feed where
  /-- The tokens. -/
  tokens : List Token
  /-- The numbers of anchors, the last one first. -/
  anchors : List (String × Nat) := []
  /-- The number of anchors before. -/
  count : Nat := 0
  /-- What the handles of tags stand for. -/
  handles : List (String × String) := []

namespace Feed

/-- The feed with the tokens that are left. -/
def rest (ts : List Token) (f : Feed) : Feed := { f with tokens := ts }

/-- The number of a new anchor.  In the first edition it is the number of names before it, so that
two anchors have one number if a name comes twice. -/
def newNumber (e : Edition) (f : Feed) : Nat :=
  match e with
  | .first => (f.anchors.map (·.1)).eraseDups.length
  | .second => f.count

/-- The number of an anchor, and the feed that knows it. -/
def addAnchor (e : Edition) (name : String) (f : Feed) : Nat × Feed :=
  let n := f.newNumber e
  (n, { f with anchors := (name, n) :: f.anchors, count := f.count + 1 })

/-- What the secondary handle stands for if nothing is said. -/
def coreTags : String := "tag:yaml.org,2002:"

/-- A tag with what its handle stands for: `none` if that has not been said. -/
def resolve? (f : Feed) (t : Tag) : Option Tag :=
  match f.handles.lookup t.handle with
  | some meaning => some ⟨meaning, t.suffix⟩
  | none =>
    if t.handle = "!!" then some ⟨coreTags, t.suffix⟩
    else if t.handle = "" ∨ t.handle = "!" then some t
    else none

/-- The properties that come next, and what follows them.  They come in either order. -/
def properties? (e : Edition) (f : Feed) : Option (Properties × Feed) :=
  match f.tokens with
  | .anchor name :: .tag t :: ts => do
    let t ← f.resolve? t
    let (n, f) := (f.rest ts).addAnchor e name
    pure (⟨some t, some n⟩, f)
  | .tag t :: .anchor name :: ts => do
    let t ← f.resolve? t
    let (n, f) := (f.rest ts).addAnchor e name
    pure (⟨some t, some n⟩, f)
  | .anchor name :: ts =>
    let (n, f) := (f.rest ts).addAnchor e name
    some (⟨none, some n⟩, f)
  | .tag t :: ts => do
    let t ← f.resolve? t
    pure (⟨some t, none⟩, f.rest ts)
  | _ => some ({}, f)

end Feed

/-- The value of an entry that has none. -/
def nothing : Yaml := .scalar {} true ""

/-- Whether a value has properties. -/
def Properties.any (p : Properties) : Bool := p.tag.isSome || p.anchor.isSome

/-! ## Values -/

mutual

/-- A value, and what follows it.  A sequence in a block may stand without a block of its own. -/
def value? (e : Edition) : Nat → Bool → Bool → Feed → Option (Yaml × Feed)
  | 0, _, _, _ => none
  | fuel + 1, inBlock, mayBeItems, f =>
    match f.tokens with
    | .alias name :: ts => (f.anchors.lookup name).map fun n => (.alias n, f.rest ts)
    | _ => do
      let (p, f) ← f.properties? e
      let missing : Option (Yaml × Feed) := if p.any then some (.scalar p true "", f) else none
      match f.tokens with
      | .scalar plain text :: ts => pure (.scalar p plain text, f.rest ts)
      | .flowSequence :: ts =>
        (flowItems? e fuel true (f.rest ts)).map fun (vs, f) => (.sequence p vs, f)
      | .flowMapping :: ts =>
        (flowEntries? e fuel true (f.rest ts)).map fun (es, f) => (.mapping p es, f)
      | .item :: _ =>
        if mayBeItems then (looseItems? e fuel f).map fun (vs, f) => (.sequence p vs, f)
        else missing
      | .blockSequence :: ts =>
        if inBlock then (items? e fuel (f.rest ts)).map fun (vs, f) => (.sequence p vs, f)
        else missing
      | .blockMapping :: ts =>
        if inBlock then (entries? e fuel (f.rest ts)).map fun (es, f) => (.mapping p es, f)
        else missing
      | _ => missing

/-- The items of a sequence in a block, and what follows it. -/
def items? (e : Edition) : Nat → Feed → Option (List Yaml × Feed)
  | 0, _ => none
  | fuel + 1, f =>
    match f.tokens with
    | .blockEnd :: ts => some ([], f.rest ts)
    | .item :: ts => do
      let (v, f) ←
        match ts with
        | .item :: _ | .blockEnd :: _ => pure (nothing, f.rest ts)
        | _ => value? e fuel true false (f.rest ts)
      let (vs, f) ← items? e fuel f
      pure (v :: vs, f)
    | _ => none

/-- The items of a sequence without a block of its own, and what follows it. -/
def looseItems? (e : Edition) : Nat → Feed → Option (List Yaml × Feed)
  | 0, _ => none
  | fuel + 1, f =>
    match f.tokens with
    | .item :: ts => do
      let (v, f) ←
        match ts with
        | .item :: _ | .key :: _ | .value :: _ | .blockEnd :: _ => pure (nothing, f.rest ts)
        | _ => value? e fuel true false (f.rest ts)
      let (vs, f) ← looseItems? e fuel f
      pure (v :: vs, f)
    | _ => some ([], f)

/-- A key or value of a mapping in a block, which may be missing, and what follows it. -/
def side? (e : Edition) : Nat → Feed → Option (Yaml × Feed)
  | 0, _ => none
  | fuel + 1, f =>
    match f.tokens with
    | .key :: _ | .value :: _ | .blockEnd :: _ => some (nothing, f)
    | _ => value? e fuel true true f

/-- The entries of a mapping in a block, and what follows it.  In the second edition a key may be
missing. -/
def entries? (e : Edition) : Nat → Feed → Option (List (Yaml × Yaml) × Feed)
  | 0, _ => none
  | fuel + 1, f => do
    if let .blockEnd :: ts := f.tokens then return ([], f.rest ts)
    let (k, f) ←
      match f.tokens with
      | .key :: ts => side? e fuel (f.rest ts)
      | .value :: _ => if e = .first then none else some (nothing, f)
      | _ => none
    let (v, f) ←
      match f.tokens with
      | .value :: ts => side? e fuel (f.rest ts)
      | _ => some (nothing, f)
    let (es, f) ← entries? e fuel f
    pure ((k, v) :: es, f)

/-- The items of a sequence in a flow, and what follows it.  Before each but the first is a
comma. -/
def flowItems? (e : Edition) : Nat → Bool → Feed → Option (List Yaml × Feed)
  | 0, _, _ => none
  | fuel + 1, isFirst, f => do
    if let .flowSequenceEnd :: ts := f.tokens then return ([], f.rest ts)
    let f ←
      match isFirst, f.tokens with
      | true, _ => some f
      | false, .comma :: ts => some (f.rest ts)
      | false, _ => none
    if let .flowSequenceEnd :: ts := f.tokens then return ([], f.rest ts)
    let (v, f) ←
      match f.tokens with
      | .key :: ts => (pair? e fuel (f.rest ts)).map fun (k, v, f) => (.mapping {} [(k, v)], f)
      | _ => value? e fuel false false f
    let (vs, f) ← flowItems? e fuel false f
    pure (v :: vs, f)

/-- The only entry of a mapping that is an item of a flow, and what follows it.  What stands in the
place of a missing key is passed over. -/
def pair? (e : Edition) : Nat → Feed → Option (Yaml × Yaml × Feed)
  | 0, _ => none
  | fuel + 1, f => do
    let (k, f) ←
      match f.tokens with
      | .value :: ts | .comma :: ts | .flowSequenceEnd :: ts => pure (nothing, f.rest ts)
      | _ => value? e fuel false false f
    match f.tokens with
    | .value :: ts =>
      match ts with
      | .comma :: _ | .flowSequenceEnd :: _ => pure (k, nothing, f.rest ts)
      | _ =>
        let (v, f) ← value? e fuel false false (f.rest ts)
        pure (k, v, f)
    | _ => pure (k, nothing, f)

/-- The entries of a mapping in a flow, and what follows it.  Before each but the first is a comma.
In the second edition a key may be missing. -/
def flowEntries? (e : Edition) : Nat → Bool → Feed → Option (List (Yaml × Yaml) × Feed)
  | 0, _, _ => none
  | fuel + 1, isFirst, f => do
    if let .flowMappingEnd :: ts := f.tokens then return ([], f.rest ts)
    let f ←
      match isFirst, f.tokens with
      | true, _ => some f
      | false, .comma :: ts => some (f.rest ts)
      | false, _ => none
    if let .flowMappingEnd :: ts := f.tokens then return ([], f.rest ts)
    let (k, v, f) ← flowEntry? e fuel f
    let (es, f) ← flowEntries? e fuel false f
    pure ((k, v) :: es, f)

/-- An entry of a mapping in a flow, and what follows it. -/
def flowEntry? (e : Edition) : Nat → Feed → Option (Yaml × Yaml × Feed)
  | 0, _ => none
  | fuel + 1, f => do
    let ofKey : Option (Yaml × Feed) :=
      match f.tokens with
      | .key :: ts =>
        match ts with
        | .value :: _ | .comma :: _ | .flowMappingEnd :: _ => some (nothing, f.rest ts)
        | _ => value? e fuel false false (f.rest ts)
      | .value :: _ => if e = .first then none else some (nothing, f)
      | _ => none
    match f.tokens with
    | .key :: _ | .value :: _ =>
      let (k, f) ← ofKey
      match f.tokens with
      | .value :: ts =>
        match ts with
        | .comma :: _ | .flowMappingEnd :: _ => pure (k, nothing, f.rest ts)
        | _ =>
          let (v, f) ← value? e fuel false false (f.rest ts)
          pure (k, v, f)
      | _ => pure (k, nothing, f)
    | _ =>
      let (k, f) ← value? e fuel false false f
      pure (k, nothing, f)

end

/-! ## Documents -/

/-- Whether a document may begin with this token only if its mark comes before. -/
def Token.isMark : Token → Bool
  | .directive _ | .documentStart => true
  | _ => false

/-- Whether a document with its mark is empty if this token comes next. -/
def Token.isOutside : Token → Bool
  | .directive _ | .documentStart | .documentEnd => true
  | _ => false

/-- The handles that the first edition knows. -/
def ownHandles : List (String × String) := [("!", "!"), ("!!", Feed.coreTags)]

/-- The feed after directives of the first edition, where a version was given or not. -/
def firstDirectives? : Bool → List (String × String) → List Token → Feed → Option Feed
  | given, handles, .directive (.version major minor) :: ts, f =>
    if given ∨ major ≠ 1 ∨ (minor ≠ 1 ∧ minor ≠ 2) then none
    else firstDirectives? true handles ts f
  | given, handles, .directive (.tag handle meaning) :: ts, f =>
    if (handles.lookup handle).isSome then none
    else firstDirectives? given ((handle, meaning) :: handles) ts f
  | _, handles, ts, f => some { f with tokens := ts, handles := handles ++ ownHandles }

/-- The feed after directives of the second edition, where a version was given or not.  Only the
last directive counts. -/
def secondDirectives? : Bool → List (String × String) → List Token → Feed → Option Feed
  | given, _, .directive (.version _ _) :: ts, f =>
    if given then none else secondDirectives? true [] ts f
  | given, _, .directive (.tag handle meaning) :: ts, f =>
    secondDirectives? given [(handle, meaning)] ts f
  | _, handles, ts, f => some { f with tokens := ts, handles }

/-- The feed after directives. -/
def directives? (e : Edition) (f : Feed) : Option Feed :=
  match e with
  | .first => firstDirectives? false [] f.tokens f
  | .second => secondDirectives? false f.handles f.tokens f

/-- The content of the next document, and what follows it.  It may be without its mark if `isBare`
is true. -/
def content? (e : Edition) (fuel : Nat) (isBare : Bool) (f : Feed) : Option (Yaml × Feed) :=
  if isBare ∧ ¬ (f.tokens.head?).any Token.isMark then do
    let f ← directives? e f
    value? e fuel true false f
  else do
    let f ← directives? e f
    match f.tokens with
    | .documentStart :: ts =>
      if (ts.head?).all Token.isOutside then pure (nothing, f.rest ts)
      else value? e fuel true false (f.rest ts)
    | _ => none

/-- The documents of a text, and whether the next one may be without its mark.  In the second
edition it may be so after the mark of the end of the last one, and a directive may stand only
there. -/
def documentsFrom? (e : Edition) : Nat → Bool → Feed → Option (List Yaml)
  | 0, _, _ => none
  | fuel + 1, isBare, f => do
    let f :=
      if isBare ∧ e = .first then f
      else f.rest (f.tokens.dropWhile fun | .documentEnd => true | _ => false)
    if f.tokens.isEmpty then return []
    let (v, f) ← content? e fuel isBare f
    let vs ←
      match f.tokens with
      | .documentEnd :: ts => documentsFrom? e fuel (e = .second) (f.rest ts)
      | .directive _ :: _ => if e = .second then none else documentsFrom? e fuel false f
      | _ => documentsFrom? e fuel false f
    pure (v :: vs)

/-- The documents of a text: `none` if the text is broken. -/
def documents? (e : Edition) (text : String) : Option (List Yaml) := do
  let ts ← tokensOf? e text
  documentsFrom? e (4 * ts.length + 4) true { tokens := ts }

/-! ## Anchors -/

mutual

/-- The values with an anchor of a number, in the order in which they begin. -/
def anchored (n : Nat) : Yaml → List Yaml
  | .scalar p plain text => if p.anchor = some n then [.scalar p plain text] else []
  | .sequence p items =>
    (if p.anchor = some n then [.sequence p items] else []) ++ anchoredItems n items
  | .mapping p entries =>
    (if p.anchor = some n then [.mapping p entries] else []) ++ anchoredEntries n entries
  | .alias _ => []

/-- The values with an anchor of a number among items. -/
def anchoredItems (n : Nat) : List Yaml → List Yaml
  | [] => []
  | v :: vs => anchored n v ++ anchoredItems n vs

/-- The values with an anchor of a number among entries. -/
def anchoredEntries (n : Nat) : List (Yaml × Yaml) → List Yaml
  | [] => []
  | (k, v) :: es => anchored n k ++ anchored n v ++ anchoredEntries n es

end

/-- The text of a scalar, which may be an alias for the last value of a document with its number. -/
def text? (document : Yaml) : Yaml → Option String
  | .scalar _ _ text => some text
  | .alias n =>
    match (anchored n document).getLast? with
    | some (.scalar _ _ text) => some text
    | _ => none
  | _ => none

end Yaml

end Rulebook
