import Rulebook.Json.Reader

/-!
# Settings

The settings of a server say where it listens, where it keeps rules and
evaluations, what it logs, and whether it notes evaluations at all.  Each of them
has a value of its own if nothing is said.

As JSON the settings are an object with a member for each, or the array of these
members in order.  A missing member has its own value.  A member with another name
is passed over, and one that has a name twice is a fault.
-/

namespace Rulebook

open Json (Reader)

/-- Where rules and evaluations are kept. -/
inductive Storage where
  /-- In memory. -/
  | memory
  /-- In a folder. -/
  | folder (path : String)
  deriving DecidableEq

/-- How the log is written. -/
inductive LogFormat where
  /-- As lines for people. -/
  | text
  /-- As a JSON object for each event. -/
  | json
  deriving DecidableEq

/-- The settings of a server. -/
structure Settings where
  /-- The host to listen at. -/
  host : String := "127.0.0.1"
  /-- The port to listen at. -/
  port : UInt16 := 8080
  /-- Where rules and evaluations are kept. -/
  storage : Storage := .folder "data"
  /-- The least level of events in the log. -/
  logLevel : String := "info"
  /-- How the log is written. -/
  logFormat : LogFormat := .text
  /-- Whether evaluations are noted. -/
  recordEvaluations : Bool := true
  deriving DecidableEq

/-! ## Names -/

/-- The folder that is taken if none is named. -/
def Storage.defaultPath : String := "data"

/-- The storage of a name with the values that say where it is. -/
def Storage.ofName? (name : String) (paths : List (Option String)) : Option Storage :=
  if name = "memory" then some .memory
  else if name = "filesystem" then
    match paths with
    | [] => some (.folder defaultPath)
    | [some path] => some (.folder path)
    | _ => none
  else none

/-- The name of a log format. -/
def LogFormat.name : LogFormat → String
  | .text => "text"
  | .json => "json"

/-- The log format of a name. -/
def LogFormat.ofName? (name : String) : Option LogFormat :=
  [LogFormat.text, .json].find? (·.name == name)

namespace Settings

/-! ## What follows from settings -/

/-- The address to listen at. -/
def address (s : Settings) : String :=
  s.host ++ ":" ++ String.ofList (Digits.digits s.port.toNat)

/-- The parts of the server that write to the log at the level of the settings. -/
def logged : List String :=
  ["rulekit_server", "rulekit_runtime", "rulekit_repository", "rulekit_parser"]

/-- Which events go to the log. -/
def logFilter (s : Settings) : String :=
  String.join (logged.map fun part => part ++ "=" ++ s.logLevel ++ ",") ++ "tower_http=debug"

/-! ## JSON -/

/-- A storage as JSON. -/
def storageJson : Storage → Json
  | .memory => .object [("type", .string "memory")]
  | .folder path => .object [("type", .string "filesystem"), ("path", .string path)]

/-- Settings as JSON. -/
def toJson (s : Settings) : Json :=
  .object [("host", .string s.host), ("port", .integer s.port.toNat),
    ("repository", storageJson s.storage), ("log_level", .string s.logLevel),
    ("log_format", .string s.logFormat.name), ("record_evaluations", .bool s.recordEvaluations)]

/-- The text of a JSON string. -/
def textOf? : Json → Option String
  | .string s => some s
  | _ => none

/-- The storage of a JSON value: an object with its name, or an array that begins with its name. -/
def storageOf? : Json → Option Storage
  | .object members =>
    let named (name : String) : List Json := (members.filter (·.1 == name)).map (·.2)
    match named "type" with
    | [.string name] => Storage.ofName? name ((named "path").map textOf?)
    | _ => none
  | .array [.string name] => Storage.ofName? name []
  | .array [.string name, path] =>
    if name = "memory" then none else Storage.ofName? name [textOf? path]
  | _ => none

/-- The log format of a JSON value: its name, or an object with its name and `null`. -/
def formatOf? : Json → Option LogFormat
  | .string name => LogFormat.ofName? name
  | .object [(name, .null)] => LogFormat.ofName? name
  | _ => none

/-- The port of a JSON value. -/
def portOf? : Json → Option UInt16
  | .integer i => if 0 ≤ i ∧ i < 65536 then some (UInt16.ofNat i.toNat) else none
  | _ => none

/-- The members that have been read. -/
structure Members where
  /-- The host. -/
  host : Option String := none
  /-- The port. -/
  port : Option UInt16 := none
  /-- Where rules and evaluations are kept. -/
  storage : Option Storage := none
  /-- The level of the log. -/
  logLevel : Option String := none
  /-- How the log is written. -/
  logFormat : Option LogFormat := none
  /-- Whether evaluations are noted. -/
  recordEvaluations : Option Bool := none

namespace Members

/-- The host. -/
def readHost (m : Members) : Reader Members :=
  Reader.map (fun s => { m with host := some s }) Reader.string

/-- A member of a kind of its own. -/
def special {α : Type} (f : Json → Option α) : Reader α :=
  Reader.filterMap f (Reader.value false (Json.maxNesting - 1))

/-- The port. -/
def readPort (m : Members) : Reader Members :=
  Reader.map (fun n => { m with port := some n }) (special portOf?)

/-- Where rules and evaluations are kept. -/
def readStorage (m : Members) : Reader Members :=
  Reader.map (fun s => { m with storage := some s }) (special storageOf?)

/-- The level of the log. -/
def readLogLevel (m : Members) : Reader Members :=
  Reader.map (fun s => { m with logLevel := some s }) Reader.string

/-- How the log is written. -/
def readLogFormat (m : Members) : Reader Members :=
  Reader.map (fun f => { m with logFormat := some f }) (special formatOf?)

/-- Whether evaluations are noted. -/
def readRecordEvaluations (m : Members) : Reader Members :=
  Reader.map (fun b => { m with recordEvaluations := some b }) Reader.bool

/-- The reader of the member of a name, unless the member has been read. -/
def read (m : Members) (name : String) : Option (Reader Members) :=
  if name = "host" then Reader.once m.host m.readHost
  else if name = "port" then Reader.once m.port m.readPort
  else if name = "repository" then Reader.once m.storage m.readStorage
  else if name = "log_level" then Reader.once m.logLevel m.readLogLevel
  else if name = "log_format" then Reader.once m.logFormat m.readLogFormat
  else if name = "record_evaluations" then Reader.once m.recordEvaluations m.readRecordEvaluations
  else some (Reader.map (fun _ => m) Reader.skip)

/-- The settings of what was read. -/
def finish (m : Members) : Settings :=
  let own : Settings := {}
  { host := m.host.getD own.host
    port := m.port.getD own.port
    storage := m.storage.getD own.storage
    logLevel := m.logLevel.getD own.logLevel
    logFormat := m.logFormat.getD own.logFormat
    recordEvaluations := m.recordEvaluations.getD own.recordEvaluations }

end Members

/-- The settings of a JSON text. -/
def ofJsonText? (text : String) : Option Settings :=
  (Reader.whole (Reader.map Members.finish
    (Reader.composite {} Members.read
      [Members.readHost, Members.readPort, Members.readStorage, Members.readLogLevel,
        Members.readLogFormat, Members.readRecordEvaluations])) text).toOption

example : ofJsonText? "\x7b\"repository\":\x7b\"type\":\"memory\"\x7d,\"port\":1\x7d" =
    some { storage := .memory, port := 1 } := by decide +kernel
example : ofJsonText? "\x7b\"port\":65536\x7d" = none := by decide +kernel
example : ({} : Settings).address = "127.0.0.1:8080" := by decide +kernel

end Settings

end Rulebook
