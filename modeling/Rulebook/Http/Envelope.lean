import Rulebook.Json.Reader

/-!
# Envelopes

Every answer about rules is an envelope: an object that says whether the request
was a success, with the data that it asked for or with a message that says what
went wrong.  A member that is not there is not written.
-/

namespace Rulebook

open Json (Reader)

/-- An answer with data of a type. -/
structure Envelope (α : Type) where
  /-- Whether the request was a success. -/
  success : Bool
  /-- What the request asked for. -/
  data : Option α := none
  /-- What went wrong. -/
  error : Option String := none

namespace Envelope

variable {α : Type}

/-- The answer to a request that is a success. -/
def ok (data : α) : Envelope α := ⟨true, some data, none⟩

/-- The answer to a request that is none. -/
def failure (error : String) : Envelope α := ⟨false, none, some error⟩

/-- An envelope as JSON. -/
def toJson (data : α → Json) (e : Envelope α) : Json :=
  .object ([("success", .bool e.success)] ++ (e.data.toList.map fun a => ("data", data a)) ++
    e.error.toList.map fun s => ("error", .string s))

/-! ## Reading -/

/-- The members of an envelope that have been read. -/
structure Members (α : Type) where
  /-- Whether the request was a success. -/
  success : Option Bool := none
  /-- The data, which may be `null`. -/
  data : Option (Option α) := none
  /-- The message, which may be `null`. -/
  error : Option (Option String) := none

namespace Members

/-- The first member. -/
def readSuccess (m : Members α) : Reader (Members α) :=
  Reader.map (fun b => { m with success := some b }) Reader.bool

/-- The data. -/
def readData (data : Reader α) (m : Members α) : Reader (Members α) :=
  Reader.map (fun a => { m with data := some a }) (Reader.optional data)

/-- The message. -/
def readError (m : Members α) : Reader (Members α) :=
  Reader.map (fun s => { m with error := some s }) (Reader.optional Reader.string)

/-- The reader of the member of a name, unless the member has been read. -/
def read (data : Reader α) (m : Members α) (name : String) : Option (Reader (Members α)) :=
  if name = "success" then Reader.once m.success m.readSuccess
  else if name = "data" then Reader.once m.data (m.readData data)
  else if name = "error" then Reader.once m.error m.readError
  else some (Reader.map (fun _ => m) Reader.skip)

/-- The envelope, if it says whether the request was a success. -/
def finish? (m : Members α) : Option (Envelope α) :=
  m.success.map fun success => ⟨success, m.data.join, m.error.join⟩

end Members

/-- An envelope. -/
def reader (data : Reader α) : Reader (Envelope α) :=
  Reader.filterMap Members.finish?
    (Reader.composite {} (Members.read data)
      [Members.readSuccess, Members.readData data, Members.readError])

/-- The envelope of a text. -/
def ofText? (data : Reader α) (text : String) : Option (Envelope α) :=
  (Reader.whole (reader data) text).toOption

example : ((ofText? Reader.bool "\x7b\"success\":true,\"data\":false\x7d").map
    fun e => (e.toJson .bool).compact) = some "\x7b\"success\":true,\"data\":false\x7d" := by
  decide +kernel

end Envelope

end Rulebook
