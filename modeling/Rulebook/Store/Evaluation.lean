import Rulebook.Rule.Json
import Rulebook.Store.Stamp

/-!
# Evaluations

An evaluation is what a verdict leaves behind: the verdict, the record it was given
for, the text of the rule and a stamp.  It is written as one line of JSON, and
read back from such a line.

No line is broken by what is in an evaluation, since JSON strings escape the
characters that end a line.  So a file of evaluations is its lines, each with one
evaluation, and one more line does not change those before it.
-/

namespace Rulebook

/-- The outcome of one evaluation. -/
structure Evaluation where
  /-- What tells it from others. -/
  stamp : Stamp
  /-- The verdict. -/
  result : Bool
  /-- The record. -/
  data : Record
  /-- The text of the rule. -/
  expression : String

namespace Evaluation

/-! ## Writing -/

/-- An evaluation as JSON. -/
def toJson (e : Evaluation) : Json :=
  .object [("id", .string e.stamp.id), ("result", .bool e.result), ("data", e.data.toJson),
    ("expression", .string e.expression), ("evaluated_at", .string e.stamp.time)]

/-- The line of an evaluation, with the character that ends it. -/
def line (e : Evaluation) : List Char := e.toJson.render ++ ['\n']

/-! ## Reading -/

open Json (Reader)

/-- The members of an evaluation that have been read. -/
structure Members where
  /-- The identifier. -/
  id : Option String := none
  /-- The verdict. -/
  result : Option Bool := none
  /-- The record. -/
  data : Option Record := none
  /-- The text of the rule. -/
  expression : Option String := none
  /-- The time. -/
  time : Option String := none

namespace Members

/-- A record. -/
def recordReader : Reader Record :=
  Reader.map Table.ofList
    (Reader.dictionary (Reader.filterMap Value.ofJson? (Reader.value false (Json.maxNesting - 2))))

/-- The identifier. -/
def readId (m : Members) : Reader Members :=
  Reader.map (fun s => { m with id := some s }) Reader.string

/-- The verdict. -/
def readResult (m : Members) : Reader Members :=
  Reader.map (fun b => { m with result := some b }) Reader.bool

/-- The record. -/
def readData (m : Members) : Reader Members :=
  Reader.map (fun r => { m with data := some r }) recordReader

/-- The text of the rule. -/
def readExpression (m : Members) : Reader Members :=
  Reader.map (fun s => { m with expression := some s }) Reader.string

/-- The time. -/
def readTime (m : Members) : Reader Members :=
  Reader.map (fun s => { m with time := some s }) Reader.string

/-- The reader of the member of a name, unless the member has been read. -/
def read (m : Members) (name : String) : Option (Reader Members) :=
  if name = "id" then Reader.once m.id m.readId
  else if name = "result" then Reader.once m.result m.readResult
  else if name = "data" then Reader.once m.data m.readData
  else if name = "expression" then Reader.once m.expression m.readExpression
  else if name = "evaluated_at" then Reader.once m.time m.readTime
  else some (Reader.map (fun _ => m) Reader.skip)

/-- The evaluation, if every member was read. -/
def finish? (m : Members) : Option Evaluation := do
  pure ⟨← Stamp.ofTexts? (← m.id) (← m.time), ← m.result, ← m.data, ← m.expression⟩

end Members

/-- The evaluation of a text that is one line. -/
def ofLine? (text : String) : Option Evaluation :=
  (Reader.whole (Reader.filterMap Members.finish?
    (Reader.composite {} Members.read
      [Members.readId, Members.readResult, Members.readData, Members.readExpression,
        Members.readTime])) text).toOption

/-- The lines of a text.  A carriage return before the end of a line belongs to the end. -/
def linesOf : List Char → List (List Char)
  | [] => []
  | c :: cs =>
    if c = '\n' then [] :: linesOf cs
    else
      match cs, linesOf cs with
      | [], _ => [[c]]
      | d :: _, rest => if c = '\r' ∧ d = '\n' then rest else
        match rest with
        | [] => [[c]]
        | line :: lines => (c :: line) :: lines

/-- The evaluations of a text, one a line: `none` if a line is not one. -/
def ofLines? (text : String) : Option (List Evaluation) :=
  (linesOf text.toList).mapM fun line => ofLine? (String.ofList line)

example : linesOf "a\r\n\nb\rc".toList = ["a".toList, [], "b\rc".toList] := by decide +kernel

end Evaluation

end Rulebook
