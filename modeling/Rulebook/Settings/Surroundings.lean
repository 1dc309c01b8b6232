import Rulebook.ReadOrder
import Rulebook.Settings.Datum
import Rulebook.Settings.Environment
import Rulebook.Settings.Layer

/-!
# Surroundings of a server

The settings of a server depend on some things that are not up to it, and all of them are its
surroundings.

* A settings file is looked for in six formats, and the order of these is another one in every run.
  Of several files only the first counts.
* Two of the formats are JSON and YAML.  How a file in one of the others is read is not said here.
* A table has its entries in another order in every run.  This counts where two names lead to one
  place, be it that they differ only in case or that one of them is a path into the other.
* A folder around the one of the server may have a file with variables.
-/

namespace Rulebook

namespace Settings

/-! ## Files -/

/-- A format of files that is read by others. -/
inductive ForeignFormat where
  /-- TOML. -/
  | toml
  /-- INI. -/
  | ini
  /-- RON. -/
  | ron
  /-- JSON5. -/
  | json5

/-- A format of files with settings. -/
inductive FileFormat where
  /-- JSON. -/
  | json
  /-- YAML. -/
  | yaml
  /-- Another format. -/
  | foreign (format : ForeignFormat)

namespace FileFormat

/-- All formats. -/
def all : List FileFormat :=
  [.json, .yaml, .foreign .toml, .foreign .ini, .foreign .ron, .foreign .json5]

/-- The endings of the files in a format. -/
def endings : FileFormat → List String
  | .json => ["json"]
  | .yaml => ["yaml", "yml"]
  | .foreign .toml => ["toml"]
  | .foreign .ini => ["ini"]
  | .foreign .ron => ["ron"]
  | .foreign .json5 => ["json5"]

end FileFormat

/-- The entries of a raw value that is a table. -/
def tableOf? : Setting → Option (List (String × Setting))
  | .table es => some es
  | _ => none

/-- The settings of a JSON file: `none` if it is broken or no table. -/
def ofJsonFile? (text : String) : Option (List (String × Setting)) :=
  (Json.parse? text).bind fun j => tableOf? (Setting.ofJson j)

/-- The settings of a YAML file: `none` if it is broken or no table. -/
def ofYamlFile? (text : String) : Option (List (String × Setting)) :=
  (Setting.ofYamlText? text).bind tableOf?

/-! ## Surroundings -/

/-- What settings depend on and a server does not say. -/
structure Surroundings where
  /-- The order that files are looked for in by their formats. -/
  formatOrder : ReadOrder FileFormat := .given
  /-- The settings of a file in a format that is read by others: `none` if it is broken. -/
  readForeign : ForeignFormat → String → Option (List (String × Setting)) := fun _ _ => none
  /-- The order of the entries of a table in the file, by the names that lead to it, the last one
  first. -/
  entryOrder : List String → ReadOrder (String × Setting) := fun _ => .given
  /-- The order of the settings that variables are. -/
  variableOrder : ReadOrder (String × Setting) := .given
  /-- The variables of the nearest folder around that has a file of them. -/
  outerVariables : Option String := none

namespace Surroundings

variable (w : Surroundings)

/-- The settings of a file in a format: `none` if it is broken. -/
def read? : FileFormat → String → Option (List (String × Setting))
  | .json => ofJsonFile?
  | .yaml => ofYamlFile?
  | .foreign format => w.readForeign format

/-- The settings file among files at their paths, with its format. -/
def file? (files : Table String) : Option (FileFormat × String) :=
  (w.formatOrder.arrange FileFormat.all).findSome? fun format =>
    format.endings.findSome? fun ending =>
      (files.get? ("config/server." ++ ending)).map (format, ·)

/-- The settings of the file among files at their paths: `none` if it is broken.  A file without the
ending that tells how to read it stands in the way of all others. -/
def layer? (files : Table String) : Option (List (String × Setting)) :=
  if (files.get? "config/server").isSome then some []
  else
    match w.file? files with
    | none => some []
    | some (format, text) => w.read? format text

mutual

/-- A raw value with its tables in the order that they are read in. -/
def arranged (path : List String) : Setting → Setting
  | .table es => .table ((w.entryOrder path).arrange (arrangedEntries path es))
  | v => v

/-- Entries whose values have their tables in the order that they are read in. -/
def arrangedEntries (path : List String) : List (String × Setting) → List (String × Setting)
  | [] => []
  | (name, v) :: rest => (name, arranged (name :: path) v) :: arrangedEntries path rest

end

/-- The settings of a file in the order that they are read in. -/
def arrangedLayer (layer : List (String × Setting)) : List (String × Setting) :=
  (w.entryOrder []).arrange (w.arrangedEntries [] layer)

/-- The variables of an environment and of the nearest file of them. -/
def environment (files : Table String) (env : Environment) : Environment :=
  env.readFile (((files.get? ".env").or w.outerVariables).getD "")

end Surroundings

end Settings

end Rulebook
