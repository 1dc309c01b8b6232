import Rulebook.Json.Reader
import Rulebook.Rule.Formula

/-!
# Values, records and formulas as JSON

A value is a JSON string or a JSON number, and a whole number beyond 64 bits with
sign is a double.  A record is an object of such values; of a name that occurs
twice the last value counts.  The members are judged in order of their names, so
the first bad one in that order is reported.

A formula is an object with a member `type`.  For `operand` the others are
`field`, `operator` and `value`, for `operator` they are `operator` and
`children`.  Members with other names are passed over, but none of these may
occur twice.  Instead of an object the array of the members in this order is
read too, the type first.  An operator may be written as its name or as an object
with its name and nothing in it.  Among the children of a formula a type may also
be given by its number, `0` for `operand` and `1` for `operator`.
-/

namespace Rulebook

/-- Why a JSON value is no value of a record. -/
inductive ValueError where
  /-- The value of a field is of a kind that records do not hold. -/
  | unsupported (field kind : String)
  /-- A value is not acceptable for a reason. -/
  | invalid (reason : String)
  deriving DecidableEq

/-- The message of an error. -/
def ValueError.message : ValueError → String
  | .unsupported field kind =>
      "Unsupported value for field '" ++ field ++ "': expected string or number, got " ++ kind
  | .invalid reason => "Invalid value: " ++ reason

namespace Value

/-- The value that a JSON value stands for. -/
def ofJson? : Json → Option Value
  | .string s => some (.text s)
  | .integer i =>
    match wholeOf? i with
    | some i => some (.integer i)
    | none => some (.real (Binary64.ofInt i))
  | .real x => some (.real x)
  | _ => none

/-- The value that a JSON value stands for, or what is wrong with it. -/
def ofJson (j : Json) : Except ValueError Value :=
  match ofJson? j with
  | some v => .ok v
  | none => .error (.invalid ("expected string or number, got " ++ j.kind))

/-- A value as JSON. -/
def toJson : Value → Json
  | .integer i => .integer i.toInt
  | .real x => .real x
  | .text s => .string s

end Value

namespace Record

/-- The values of named JSON values, in their order, or the first one that is of the wrong kind. -/
def valuesOf : List (String × Json) → Except ValueError (List (String × Value))
  | [] => .ok []
  | (field, j) :: rest =>
    match Value.ofJson? j with
    | none => .error (.unsupported field j.kind)
    | some v =>
      match valuesOf rest with
      | .error e => .error e
      | .ok vs => .ok ((field, v) :: vs)

/-- The record of named JSON values in a given order. -/
def ofEntries (entries : List (String × Json)) : Except ValueError Record :=
  match valuesOf entries with
  | .error e => .error e
  | .ok vs => .ok (Table.ofList vs)

/-- The record of the members of an object. -/
def ofMembers (members : List (String × Json)) : Except ValueError Record :=
  ofEntries (Table.ofList members).entries

/-- A record as JSON. -/
def toJson (r : Record) : Json := .object (r.entries.map fun (field, v) => (field, v.toJson))

end Record

namespace Formula

/-! ## Formulas -/

mutual

/-- A formula as JSON. -/
def toJson : Formula → Json
  | .leaf c =>
    .object [("type", .string "operand"), ("field", .string c.field),
      ("operator", .string c.comparator.symbol), ("value", c.literal.toJson)]
  | .joined k parts =>
    .object [("type", .string "operator"), ("operator", .string k.keyword),
      ("children", .array (toJsonAll parts))]

/-- Formulas as JSON. -/
def toJsonAll : List Formula → List Json
  | [] => []
  | f :: fs => toJson f :: toJsonAll fs

end

/-- A name that is written as a string, or as an object with the name and nothing in it. -/
def nameOf? : Json → Option String
  | .string s => some s
  | .object [(s, .null)] => some s
  | .object [(s, .object [])] => some s
  | _ => none

/-- The connective with a keyword, whose case counts here. -/
def connectiveOf? (s : String) : Option Connective :=
  [Connective.and, .or].find? (·.keyword == s)

/-- The two types of formulas. -/
inductive Kind where
  /-- A comparison. -/
  | operand
  /-- Formulas joined by an operator. -/
  | operator
  deriving DecidableEq

/-- The type that a JSON value gives, where only a child of a formula may give it by its number. -/
def kindOf? (child : Bool) : Json → Option Kind
  | .string s =>
      if s = "operand" then some .operand else if s = "operator" then some .operator else none
  | .integer i =>
      if !child then none
      else if i = 0 then some .operand else if i = 1 then some .operator else none
  | _ => none

/-- What is known of a formula from members that have been read: all values of every name that has a
meaning. -/
structure Members where
  /-- The values of `type`. -/
  types : List Json := []
  /-- The values of `field`. -/
  fields : List Json := []
  /-- The values of `operator`. -/
  operators : List Json := []
  /-- The values of `value`. -/
  values : List Json := []
  /-- The values of `children`, each as formulas if it is an array of them. -/
  children : List (Option (List Formula)) := []

/-- A comparison from its three parts. -/
def leafOf? (field operator value : Json) : Option Formula := do
  let .string field := field | none
  pure (.leaf ⟨field, ← (nameOf? operator).bind Comparator.ofSymbol?, ← Value.ofJson? value⟩)

/-- Joined formulas from their two parts. -/
def joinedOf? (operator : Json) (children : Option (List Formula)) : Option Formula := do
  pure (.joined (← (nameOf? operator).bind connectiveOf?) (← children))

/-- The formula of an object, each of whose members occurs once. -/
def ofMembers? (child : Bool) (m : Members) : Option Formula :=
  match m.types with
  | [type] =>
    match kindOf? child type with
    | some .operand =>
      match m.fields, m.operators, m.values with
      | [field], [operator], [value] => leafOf? field operator value
      | _, _, _ => none
    | some .operator =>
      match m.operators, m.children with
      | [operator], [children] => joinedOf? operator children
      | _, _ => none
    | none => none
  | _ => none

mutual

/-- The formula that a JSON value stands for, on its own or as a child of another one. -/
def read? (child : Bool) : Json → Option Formula
  | .object members => ofMembers? child (gather members)
  | .array [type, field, operator, value] =>
      if kindOf? child type = some .operand then leafOf? field operator value else none
  | .array [type, operator, .array children] =>
      if kindOf? child type = some .operator then joinedOf? operator (readAll? children) else none
  | _ => none

/-- The formulas that JSON values stand for as children. -/
def readAll? : List Json → Option (List Formula)
  | [] => some []
  | j :: js =>
    match read? true j with
    | none => none
    | some f =>
      match readAll? js with
      | none => none
      | some fs => some (f :: fs)

/-- The members of an object that have a meaning. -/
def gather : List (String × Json) → Members
  | [] => {}
  | (name, j) :: rest =>
    let m := gather rest
    if name = "type" then { m with types := j :: m.types }
    else if name = "field" then { m with fields := j :: m.fields }
    else if name = "operator" then { m with operators := j :: m.operators }
    else if name = "value" then { m with values := j :: m.values }
    else if name = "children" then { m with children := childrenOf j :: m.children }
    else m

/-- The formulas of an array. -/
def childrenOf : Json → Option (List Formula)
  | .array items => readAll? items
  | _ => none

end

/-- The formula that a JSON value stands for. -/
def ofJson? (j : Json) : Option Formula := read? false j

/-- The formula of a JSON text. -/
def ofJsonText? (text : String) : Option Formula := (Json.parse? text).bind ofJson?

example : (ofJsonText? "[\"operand\",\"a\",\x7b\">\":null\x7d,1]").map text = some "a > 1" := by
  decide +kernel
example :
    (ofJsonText? "\x7b\"type\":\"operator\",\"operator\":\"OR\",\"children\":[]\x7d").map
      text = some "" := by decide +kernel
example : (ofJsonText? "[0,\"a\",\">\",1]").map text = none := by decide +kernel
example : (ofJsonText? "[\"operator\",\"OR\",[[0,\"a\",\">\",1]]]").map text = some "a > 1" := by
  decide +kernel

end Formula

/-- The record of a JSON text: `none` if the text is no JSON object. -/
def Record.ofJsonText (text : String) : Option (Except ValueError Record) :=
  match Json.parse? text with
  | some (.object members) => some (Record.ofMembers members)
  | _ => none

end Rulebook
