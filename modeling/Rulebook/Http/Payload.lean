import Rulebook.Json.Reader

/-!
# Payloads

What the body of a request says, before anything is done with it.  A payload is an
object with named members, or the array of these members in order.  A member with
another name is passed over, and one that has a name twice is a fault.

* `NewRule` has an identifier and a text, and needs both.
* `RuleList` has identifiers in one text, with commas between them, and needs it.
* `Query` has a text, a list of identifiers and the data to evaluate.  The first
  two may be `null`, and each of the three may be missing.
* `Combined` is an answer, the text of joined rules.
-/

namespace Rulebook

open Json (Reader)

/-! ## Rules -/

/-- A rule to keep. -/
structure NewRule where
  /-- The identifier. -/
  id : String
  /-- The text. -/
  expression : String

namespace NewRule

/-- The members that have been read. -/
structure Members where
  /-- The identifier. -/
  id : Option String := none
  /-- The text. -/
  expression : Option String := none

/-- The identifier. -/
def Members.readId (m : Members) : Reader Members :=
  Reader.map (fun s => { m with id := some s }) Reader.string

/-- The text. -/
def Members.readExpression (m : Members) : Reader Members :=
  Reader.map (fun s => { m with expression := some s }) Reader.string

/-- The reader of the member of a name, unless the member has been read. -/
def Members.read (m : Members) (name : String) : Option (Reader Members) :=
  if name = "id" then Reader.once m.id m.readId
  else if name = "expression" then Reader.once m.expression m.readExpression
  else some (Reader.map (fun _ => m) Reader.skip)

/-- The rule, if both members were read. -/
def Members.finish? (m : Members) : Option NewRule := do pure ⟨← m.id, ← m.expression⟩

/-- A rule to keep. -/
def reader : Reader NewRule :=
  Reader.filterMap Members.finish?
    (Reader.composite {} Members.read [Members.readId, Members.readExpression])

end NewRule

/-! ## Structures with one text -/

/-- A structure whose only member is a text with a name. -/
def oneText (name : String) : Reader String :=
  let member : Reader (Option String) := Reader.map some Reader.string
  Reader.filterMap id
    (Reader.composite none
      (fun s key =>
        if key = name then Reader.once s member else some (Reader.map (fun _ => s) Reader.skip))
      [fun _ => member])

/-- Identifiers in one text. -/
structure RuleList where
  /-- The identifiers with commas between them. -/
  ids : String

/-- Identifiers in one text. -/
def RuleList.reader : Reader RuleList := Reader.map RuleList.mk (oneText "rule_ids")

/-- The text of joined rules. -/
structure Combined where
  /-- The text. -/
  expression : String

/-- The text of joined rules. -/
def Combined.reader : Reader Combined := Reader.map Combined.mk (oneText "combined_expression")

/-- The text of joined rules as JSON. -/
def Combined.toJson (c : Combined) : Json :=
  .object [("combined_expression", .string c.expression)]

/-! ## Queries -/

/-- What to evaluate. -/
structure Query where
  /-- A rule text. -/
  expression : Option String := none
  /-- Identifiers of rules. -/
  ruleIds : Option (List String) := none
  /-- The members of the data. -/
  data : List (String × Json) := []

namespace Query

/-- The members that have been read. -/
structure Members where
  /-- The text, which may be `null`. -/
  expression : Option (Option String) := none
  /-- The identifiers, which may be `null`. -/
  ruleIds : Option (Option (List String)) := none
  /-- The members of the data. -/
  data : Option (List (String × Json)) := none

/-- The text. -/
def Members.readExpression (m : Members) : Reader Members :=
  Reader.map (fun s => { m with expression := some s }) (Reader.optional Reader.string)

/-- The identifiers. -/
def Members.readRuleIds (m : Members) : Reader Members :=
  Reader.map (fun ids => { m with ruleIds := some ids })
    (Reader.optional (Reader.list Reader.string))

/-- The data. -/
def Members.readData (m : Members) : Reader Members :=
  Reader.map (fun members => { m with data := some members })
    (Reader.dictionary (Reader.value false (Json.maxNesting - 2)))

/-- The reader of the member of a name, unless the member has been read. -/
def Members.read (m : Members) (name : String) : Option (Reader Members) :=
  if name = "expression" then Reader.once m.expression m.readExpression
  else if name = "rule_ids" then Reader.once m.ruleIds m.readRuleIds
  else if name = "query_data" then Reader.once m.data m.readData
  else some (Reader.map (fun _ => m) Reader.skip)

/-- The query of what was read. -/
def Members.finish (m : Members) : Query :=
  ⟨m.expression.join, m.ruleIds.join, m.data.getD []⟩

/-- What to evaluate. -/
def reader : Reader Query :=
  Reader.map Members.finish
    (Reader.composite {} Members.read
      [Members.readExpression, Members.readRuleIds, Members.readData])

end Query

end Rulebook
