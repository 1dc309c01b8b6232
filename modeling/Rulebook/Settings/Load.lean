import Rulebook.Settings.Surroundings

/-!
# Loading settings

Settings are loaded from two layers.  The first is a file `config/server` with the
ending of a format, such as `config/server.json` or `config/server.yaml`.  The second
is the environment, to which the file `.env` may add variables.  A variable is a
setting if its name begins with `RULEKIT__`, in either case.  What follows is the
name of the setting, where two low lines lead into a table.  Of two variables for
one setting the later counts.

A file that cannot be read as a table of values leaves every setting with its own
value, whatever the environment says.  A value that does not go in where it stands
is an error.

Which file counts if there are several, how it is read if it is neither JSON nor YAML,
and in which order entries are taken is up to the surroundings (`Surroundings`).
-/

namespace Rulebook

open Rulebook.Text (lowered)

namespace Settings

/-! ## The environment -/

/-- What the names of variables with settings begin with, in lower case. -/
def variablePrefix : List Char := "rulekit__".toList

/-- A text with a dot for every two low lines. -/
def dotted : List Char → List Char
  | '_' :: '_' :: cs => '.' :: dotted cs
  | c :: cs => c :: dotted cs
  | [] => []

/-- The setting that a variable is, if it is one. -/
def ofVariable? (name value : String) : Option (String × Setting) :=
  let cs := (lowered name).toList
  if variablePrefix.isPrefixOf cs then
    some (String.ofList (dotted (cs.drop variablePrefix.length)), Setting.ofVariable value)
  else none

/-- The settings of an environment. -/
def ofEnvironment (env : Environment) : List (String × Setting) :=
  (Table.ofList (env.bindings.filterMap fun (name, value) => ofVariable? name value)).entries

/-! ## Loading -/

/-- The settings of files and an environment. -/
def load (files : Table String) (env : Environment) (w : Surroundings := {}) :
    Except SettingError Settings :=
  match w.layer? files with
  | none => .ok {}
  | some layer =>
    let fromEnvironment := w.variableOrder.arrange (ofEnvironment (w.environment files env))
    ofLayer ((w.arrangedLayer layer ++ fromEnvironment).foldl Setting.assign [])

example : (load (Table.ofList [("config/server.yaml", "port: 1\nhost: a\n")])
    (Environment.ofList [("RULEKIT__PORT", "2"), ("RULEKIT_HOST", "b")])).toOption =
    some { host := "a", port := 2 } := by decide +kernel
example : (load
    (Table.ofList [("config/server.yaml", "x: &n 0x1F\nport: *n\nlog_level: |-\n  a\n")])
    (Environment.ofList [("RULEKIT__REPOSITORY[0]", "memory")])).toOption =
    some { port := 31, storage := .memory, logLevel := "a" } := by decide +kernel

end Settings

end Rulebook
