import Rulebook.Settings.Basic
import Rulebook.Settings.Raw

/-!
# Layers of settings

A layer is a tree of raw values under names.  `assign` puts a value of a later
layer over what is there: tables merge name by name, and any other value replaces
what it meets.  The case of names does not count.  A name at the top of a layer may
be a path such as `a.b[0]`, which leads into the tables and lists on its way and
makes them where they are missing.

`Settings.ofLayer` gives the raw values their types.  A text goes in where a number
or a truth value says it, a number goes in where a text is wanted, and what does
not go in is an error.  Names that mean nothing are passed over.
-/

namespace Rulebook

namespace Setting

open Rulebook.Text (lowered isDigit)

/-! ## Raw values of JSON -/

mutual

/-- The raw value of a JSON value. -/
def ofJson : Json → Setting
  | .null => .nothing
  | .bool b => .flag b
  | .integer i =>
    match wholeOf? i with
    | some i => .whole i
    | none => .real (Binary64.ofInt i)
  | .real x => .real x
  | .string s => .text s
  | .array items => .list (ofJsonItems items)
  | .object members => .table (Table.ofList (ofJsonMembers members)).entries

/-- The raw values of the items of an array. -/
def ofJsonItems : List Json → List Setting
  | [] => []
  | j :: js => ofJson j :: ofJsonItems js

/-- The raw values of the members of an object. -/
def ofJsonMembers : List (String × Json) → List (String × Setting)
  | [] => []
  | (name, j) :: rest => (name, ofJson j) :: ofJsonMembers rest

end

/-! ## Merging -/

/-- The entries of a table, and none of another value. -/
def entries : Setting → List (String × Setting)
  | .table es => es
  | _ => []

mutual

/-- Entries with a value put over them at a name. -/
def putOver (target : List (String × Setting)) (name : String) :
    Setting → List (String × Setting)
  | .table incoming =>
    let name := lowered name
    let old := (Entries.lookup name target).getD (.table [])
    let new := if incoming.isEmpty then old else .table (putAllOver old.entries incoming)
    Entries.put name new target
  | v => Entries.put (lowered name) v target

/-- Entries with other entries put over them. -/
def putAllOver (target : List (String × Setting)) :
    List (String × Setting) → List (String × Setting)
  | [] => target
  | (name, v) :: rest => putAllOver (putOver target name v) rest

end

/-! ## Paths -/

/-- A step of a path. -/
inductive Step where
  /-- To the value under a name. -/
  | name (name : String)
  /-- To the item at an index, which counts from the end of the list if it is less than zero. -/
  | index (i : Int)

/-- Whether a character may be in a name of a path. -/
def isNameChar (c : Char) : Bool :=
  isDigit c || ('a' ≤ c && c ≤ 'z') || ('A' ≤ c && c ≤ 'Z') || c == '_' || c == '-' || c == ' '

/-- The name that a text begins with, and what follows it. -/
def nameStep? (cs : List Char) : Option (Step × List Char) :=
  let name := cs.takeWhile isNameChar
  if name.isEmpty then none else some (.name (String.ofList name), cs.drop name.length)

/-- What follows the spaces and tabs of a text. -/
def skipGaps (cs : List Char) : List Char := cs.dropWhile fun c => c == ' ' || c == '\t'

/-- The index that a text after an opening bracket begins with, and what follows the closing
bracket. -/
def indexStep? (cs : List Char) : Option (Step × List Char) := do
  let (negative, cs) := match skipGaps cs with
    | '-' :: cs => (true, cs)
    | cs => (false, cs)
  let digits := cs.takeWhile isDigit
  let i ← wholeOf? (if negative then -(Digits.value digits : Int) else Digits.value digits)
  match skipGaps (cs.drop digits.length) with
  | ']' :: rest => if digits.isEmpty then none else pure (.index i.toInt, rest)
  | _ => none

/-- The steps after the first, of which there are no more than characters. -/
def laterSteps? : Nat → List Char → Option (List Step)
  | _, [] => some []
  | 0, _ => none
  | fuel + 1, c :: cs => do
    let (step, rest) ←
      if c = '.' then nameStep? cs else if c = '[' then indexStep? cs else none
    pure (step :: (← laterSteps? fuel rest))

/-- The path that a text stands for, if it has the form of one. -/
def path? (cs : List Char) : Option (List Step) := do
  let (step, rest) ← nameStep? cs
  pure (step :: (← laterSteps? rest.length rest))

/-- The path of a name, which may be a name without a path in it. -/
def pathOf (name : String) : List Step := (path? name.toList).getD [.name name]

/-- The items of a list, and none of another value. -/
def items : Setting → List Setting
  | .list vs => vs
  | _ => []

/-- The place of an index in a list of a length. -/
def placeOf (length : Nat) : Int → Nat
  | .ofNat n => n
  | .negSucc n => length - (n + 1)

/-- Items with a change of the one at a place.  A list that ends before is filled with nothing. -/
def alterAt (f : Setting → Setting) : Nat → List Setting → List Setting
  | 0, [] => [f .nothing]
  | 0, v :: vs => f v :: vs
  | n + 1, [] => .nothing :: alterAt f n []
  | n + 1, v :: vs => v :: alterAt f n vs

/-- A value with another put over it at a path. -/
def assignAt (v : Setting) : List Step → Setting → Setting
  | [], _ => v
  | [.name name], old => .table (putOver old.entries name v)
  | .name name :: path, old =>
    let name := lowered name
    let inner := (Entries.lookup name old.entries).getD .nothing
    .table (Entries.put name (assignAt v path inner) old.entries)
  | .index i :: path, old =>
    .list (alterAt (fun inner => assignAt v path inner) (placeOf old.items.length i) old.items)

/-- Entries with a value put over them at a name, which may be a path. -/
def assign (target : List (String × Setting)) (entry : String × Setting) :
    List (String × Setting) :=
  (assignAt entry.2 (pathOf entry.1) (.table target)).entries

/-! ## Types -/

/-- The text of a raw value. -/
def toText? : Setting → Option String
  | .text s => some s
  | .flag b => some (if b then "true" else "false")
  | .whole i => some (String.ofList (Digits.signed i.toInt))
  | .real x => some (String.ofList x.plain)
  | .infinite negative => some (if negative then "-inf" else "inf")
  | .notANumber => some "NaN"
  | _ => none

/-- The truth value that a word stands for. -/
def flagOf? (s : String) : Option Bool :=
  if s = "true" ∨ s = "on" ∨ s = "yes" then some true
  else if s = "false" ∨ s = "off" ∨ s = "no" then some false
  else none

/-- The truth value of a raw value. -/
def toFlag? : Setting → Option Bool
  | .flag b => some b
  | .whole i => some (i != 0)
  | .real x => some (x.rank != 0)
  | .infinite _ | .notANumber => some true
  | .text s =>
    let word := lowered s
    if word = "1" then some true else if word = "0" then some false else flagOf? word
  | _ => none

/-- A double without its sign, rounded to a whole number. -/
def rounded (x : Binary64) : Nat :=
  (2 * Binary64.units x.rank + pow2 1074) / pow2 1075

/-- The number that a text of digits stands for. -/
def digitsOf? (s : String) : Option Nat :=
  let ds := match s.toList with
    | '+' :: cs => cs
    | cs => cs
  if !ds.isEmpty && ds.all isDigit then some (Digits.value ds) else none

/-- The natural number of a raw value, as far as it counts for a port. -/
def toNatural? : Setting → Option Nat
  | .flag b => some b.toNat
  | .whole i => if 0 ≤ i.toInt then some i.toInt.toNat else none
  | .real x => some (if x.negative then 0 else rounded x)
  | .infinite negative => if negative then some 0 else none
  | .notANumber => some 0
  | .text s =>
    match flagOf? (lowered s) with
    | some b => some b.toNat
    | none => digitsOf? s
  | _ => none

/-- The port of a raw value. -/
def toPort? (v : Setting) : Option UInt16 :=
  v.toNatural?.bind fun n => if n < 65536 then some (UInt16.ofNat n) else none

/-- The log format of a raw value, whose name is its text or its only entry. -/
def toFormat? : Setting → Option LogFormat
  | .text s => LogFormat.ofName? (lowered s)
  | .table [(name, _)] => LogFormat.ofName? (lowered name)
  | _ => none

/-- The text of a raw value that is one. -/
def exactText? : Setting → Option String
  | .text s => some s
  | _ => none

/-- The storage of a raw value. -/
def toStorage? : Setting → Option Storage
  | .table es =>
    match Entries.lookup "type" es with
    | some (.text name) =>
      Storage.ofName? name ((Entries.lookup "path" es).toList.map exactText?)
    | _ => none
  | .list [.text name] => Storage.ofName? name []
  | .list [.text name, path] =>
    if name = "memory" then none else Storage.ofName? name [exactText? path]
  | _ => none

example : (path? "a.b[ -1 ]".toList).map List.length = some 3 := by decide +kernel
example : (path? "a..b".toList).isNone := by decide +kernel
example : (ofVariable "80.0").toPort? = some 80 := by decide +kernel
example : (ofVariable "12").toText? = some "12" := by decide +kernel
example : (ofVariable "FALSE").toFlag? = some false := by decide +kernel

end Setting

/-! ## Settings of a layer -/

/-- A raw value that does not go in where it stands. -/
structure SettingError where
  /-- The name of the setting. -/
  name : String
  deriving DecidableEq

/-- The message of an error. -/
def SettingError.message (e : SettingError) : String :=
  "Failed to deserialize config: invalid value for '" ++ e.name ++ "'"

namespace Settings

/-- The value of a setting: its own if the layer says nothing. -/
def valueAt {α : Type} (layer : List (String × Setting)) (name : String)
    (convert : Setting → Option α) (own : α) : Except SettingError α :=
  match Entries.lookup name layer with
  | none => .ok own
  | some v =>
    match convert v with
    | none => .error ⟨name⟩
    | some a => .ok a

/-- The settings of a layer. -/
def ofLayer (layer : List (String × Setting)) : Except SettingError Settings := do
  let own : Settings := {}
  let host ← valueAt layer "host" Setting.toText? own.host
  let port ← valueAt layer "port" Setting.toPort? own.port
  let storage ← valueAt layer "repository" Setting.toStorage? own.storage
  let logLevel ← valueAt layer "log_level" Setting.toText? own.logLevel
  let logFormat ← valueAt layer "log_format" Setting.toFormat? own.logFormat
  let recordEvaluations ←
    valueAt layer "record_evaluations" Setting.toFlag? own.recordEvaluations
  pure { host, port, storage, logLevel, logFormat, recordEvaluations }

end Settings

end Rulebook
