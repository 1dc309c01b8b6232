import Rulebook.Settings.Raw
import Rulebook.Table
import Rulebook.Yaml.Reader

/-!
# Settings in YAML

A *datum* is a YAML value whose scalars have their meaning and whose aliases are
the values that they stand for.

A plain scalar means what it looks like, unless it has a tag.  Some tags say what a
scalar must be, and one that is something else is *unfit*.  An unfit value is as
good as nothing, but an unfit key is as if it were not there, so that its value is
the next key.

No key may come twice in a mapping.  As a setting a mapping has texts and whole
numbers for keys, and the words for numbers beyond all others have no meaning.
-/

namespace Rulebook

/-- A YAML value with its meaning. -/
inductive Datum where
  /-- A scalar that does not fit its tag. -/
  | unfit
  /-- A word for a number beyond all others. -/
  | beyond
  /-- A scalar. -/
  | scalar (s : Setting)
  /-- A sequence. -/
  | list (items : List Datum)
  /-- A mapping. -/
  | table (entries : List (Datum × Datum))
  deriving Inhabited

namespace Datum

/-! ## Scalars -/

/-- The whole number of 64 bits that digits of a base make. -/
def ofDigits? (base : Nat) (digits : List Char) : Option Setting :=
  let (negative, ds) := Decimal.readSign digits
  match ds.mapM Yaml.hexValue? with
  | none | some [] => none
  | some vs =>
    if vs.any (base ≤ ·) then none
    else
      let n : Nat := vs.foldl (fun n v => base * n + v) 0
      (wholeOf? (if negative then -n else n)).map .whole

/-- The words for numbers beyond all others. -/
def wordsBeyond : List String :=
  [".inf", ".Inf", ".INF", "+.inf", "+.Inf", "+.INF", "-.inf", "-.Inf", "-.INF",
    ".nan", ".NaN", ".NAN"]

/-- What a text stands for that may be a number. -/
def ofReal? (s : String) : Option Datum :=
  if wordsBeyond.contains s then some .beyond else (Setting.real? s.toList).map .scalar

/-- What a plain scalar stands for.  After a plus sign a whole number may have a sign of its own. -/
def ofPlain (s : String) : Datum :=
  let based : Option Setting :=
    match s.toList with
    | '0' :: 'x' :: cs => ofDigits? 16 cs
    | '0' :: 'o' :: cs => ofDigits? 8 cs
    | '+' :: cs => Setting.whole? cs
    | _ => none
  match based with
  | some v => .scalar v
  | none =>
    if s = "" ∨ s = "~" ∨ s = "null" then .scalar .nothing
    else if s = "true" then .scalar (.flag true)
    else if s = "false" then .scalar (.flag false)
    else ((Setting.whole? s.toList).map Datum.scalar <|> ofReal? s).getD (.scalar (.text s))

/-- What a plain scalar stands for that has a tag. -/
def ofTagged (t : Yaml.Tag) (s : String) : Datum :=
  if t.handle ≠ Yaml.Feed.coreTags then .scalar (.text s)
  else if t.suffix = "bool" then
    if s = "true" then .scalar (.flag true)
    else if s = "false" then .scalar (.flag false)
    else .unfit
  else if t.suffix = "int" then ((Setting.whole? s.toList).map .scalar).getD .unfit
  else if t.suffix = "float" then (ofReal? s).getD .unfit
  else if t.suffix = "null" then
    if s = "~" ∨ s = "null" then .scalar .nothing else .unfit
  else .scalar (.text s)

/-- What a scalar stands for.  Only a plain one is something else than a text. -/
def ofScalar (p : Yaml.Properties) (plain : Bool) (s : String) : Datum :=
  if !plain then .scalar (.text s)
  else
    match p.tag with
    | none => ofPlain s
    | some t => ofTagged t s

/-! ## Mappings -/

/-- Whether two keys are the same, as far as keys may be settings. -/
def isSameKey : Datum → Datum → Bool
  | .scalar (.text s), .scalar (.text t) => s == t
  | .scalar (.whole i), .scalar (.whole j) => i == j
  | _, _ => false

/-- The entries that keys and values in turn make, after a key without its value: `none` if a key
comes twice. -/
def pairUp (done : List (Datum × Datum)) : Option Datum → List Datum →
    Option (List (Datum × Datum))
  | _, [] => some done
  | none, .unfit :: ds => pairUp done none ds
  | none, k :: ds => pairUp done (some k) ds
  | some k, v :: ds =>
    if done.any fun entry => isSameKey entry.1 k then none else pairUp (done ++ [(k, v)]) none ds

/-! ## Aliases -/

/-- The values with anchors that have been read, the last one first. -/
abbrev Known := List (Nat × Datum)

/-- A value with the known values after it. -/
def note (p : Yaml.Properties) (d : Datum) (known : Known) : Datum × Known :=
  match p.anchor with
  | none => (d, known)
  | some n => (d, (n, d) :: known)

mutual

/-- What a YAML value stands for, and the known values after it: `none` if a key comes twice.  An
alias inside the value that it stands for is unfit. -/
def ofYaml? (known : Known) : Yaml → Option (Datum × Known)
  | .scalar p plain s => some (note p (ofScalar p plain s) known)
  | .alias n => some ((known.lookup n).getD .unfit, known)
  | .sequence p items =>
    (ofItems? known items).map fun (ds, known) => note p (.list ds) known
  | .mapping p entries =>
    match ofEntries? known entries with
    | none => none
    | some (ds, known) => (pairUp [] none ds).map fun es => note p (.table es) known

/-- What items stand for. -/
def ofItems? (known : Known) : List Yaml → Option (List Datum × Known)
  | [] => some ([], known)
  | v :: vs =>
    match ofYaml? known v with
    | none => none
    | some (d, known) => (ofItems? known vs).map fun (ds, known) => (d :: ds, known)

/-- What the keys and values of entries stand for, in turn. -/
def ofEntries? (known : Known) : List (Yaml × Yaml) → Option (List Datum × Known)
  | [] => some ([], known)
  | (k, v) :: es =>
    match ofYaml? known k with
    | none => none
    | some (k, known) =>
      match ofYaml? known v with
      | none => none
      | some (v, known) => (ofEntries? known es).map fun (ds, known) => (k :: v :: ds, known)

end

/-! ## Raw values -/

/-- The name that a key is. -/
def name? : Datum → Option String
  | .scalar (.text s) => some s
  | .scalar (.whole i) => some (String.ofList (Digits.signed i.toInt))
  | _ => none

mutual

/-- The raw value of a datum: `none` if a key is no name, or if a word has no meaning. -/
def toSetting? : Datum → Option Setting
  | .unfit => some .nothing
  | .beyond => none
  | .scalar s => some s
  | .list items => (itemsToSettings? items).map .list
  | .table entries =>
    (entriesToSettings? entries).map fun es => .table (Table.ofList es).entries

/-- The raw values of items. -/
def itemsToSettings? : List Datum → Option (List Setting)
  | [] => some []
  | d :: ds =>
    match toSetting? d, itemsToSettings? ds with
    | some s, some ss => some (s :: ss)
    | _, _ => none

/-- The raw values of entries. -/
def entriesToSettings? : List (Datum × Datum) → Option (List (String × Setting))
  | [] => some []
  | (k, d) :: rest =>
    match name? k, toSetting? d, entriesToSettings? rest with
    | some k, some s, some es => some ((k, s) :: es)
    | _, _, _ => none

end

end Datum

/-- The raw value of the text of a file, which has one document or none: `none` if it is broken. -/
def Setting.ofYamlText? (text : String) : Option Setting :=
  match Yaml.documents? .second text with
  | some [] => some (.table [])
  | some [v] => (Datum.ofYaml? [] v).bind fun (d, _) => d.toSetting?
  | _ => none

end Rulebook
