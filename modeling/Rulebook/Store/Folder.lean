import Rulebook.Table

/-!
# Folders and files

What a store keeps outside memory is a tree: an entry is a file of bytes or a
folder of named entries.  The names of a folder ascend, and every name is there
once; `Entries.put` and `Entries.erase` keep it so.

A place in the tree is a list of names.  `Entry.find` walks to it and `Entry.alter`
rebuilds the tree with another entry there, or with none.  The walk stops with
the fault that an operating system reports: a name is missing on the way, a file
stands where a folder should, a name has more bytes than a folder takes.  A name
with a zero character is refused before the walk begins.

Every operation is a function from tree to tree, so a write that fails on its way
leaves the tree that it was given.
-/

namespace Rulebook

/-- What stands under a name. -/
inductive Entry where
  /-- A file with its bytes. -/
  | file (content : ByteArray)
  /-- A folder with its entries. -/
  | folder (entries : List (String × Entry))

/-- Why a file or folder cannot be used. -/
inductive FileFault where
  /-- No entry has the name. -/
  | missing
  /-- The entry is there already. -/
  | present
  /-- A folder is expected where something else stands. -/
  | notFolder
  /-- A file is expected where a folder stands. -/
  | isFolder
  /-- A name has too many bytes. -/
  | longName
  /-- A name has a zero character. -/
  | zeroInName
  /-- The bytes of a file are no text. -/
  | notText
  deriving DecidableEq

namespace FileFault

/-- The message of a fault. -/
def message : FileFault → String
  | .missing => "No such file or directory (os error 2)"
  | .present => "File exists (os error 17)"
  | .notFolder => "Not a directory (os error 20)"
  | .isFolder => "Is a directory (os error 21)"
  | .longName => "File name too long (os error 36)"
  | .zeroInName => "file name contained an unexpected NUL byte"
  | .notText => "stream did not contain valid UTF-8"

end FileFault

/-- The number of bytes that a name may have. -/
def maxNameSize : Nat := 255

namespace Entry

/-! ## Walking -/

/-- The folder without entries. -/
def empty : Entry := .folder []

instance : Inhabited Entry := ⟨empty⟩

/-- The entry at a place, counted from an entry above it. -/
def walk : List String → Entry → Except FileFault Entry
  | [], e => .ok e
  | _ :: _, .file _ => .error .notFolder
  | name :: path, .folder entries =>
    if maxNameSize < name.utf8ByteSize then .error .longName
    else
      match Entries.lookup name entries with
      | none => .error .missing
      | some e => walk path e

/-- The entries of the last folder of a path, changed at a name. -/
def rebuild (change : Option Entry → Except FileFault (Option Entry)) :
    List String → Entry → Except FileFault (Option Entry)
  | [], e => change (some e)
  | _ :: _, .file _ => .error .notFolder
  | name :: path, .folder entries =>
    if maxNameSize < name.utf8ByteSize then .error .longName
    else
      let changed :=
        match Entries.lookup name entries with
        | none => if path.isEmpty then change none else .error .missing
        | some e => rebuild change path e
      match changed with
      | .error e => .error e
      | .ok none => .ok (some (.folder (Entries.erase name entries)))
      | .ok (some e) => .ok (some (.folder (Entries.put name e entries)))

/-- Whether a name of a path has a zero character. -/
def hasZero (path : List String) : Bool := path.any fun name => name.toList.any (· == '\x00')

/-- The entry at a place. -/
def find (root : Entry) (path : List String) : Except FileFault Entry :=
  if hasZero path then .error .zeroInName else walk path root

/-- The tree with the entry at a place changed, added or removed. -/
def alter (root : Entry) (path : List String)
    (change : Option Entry → Except FileFault (Option Entry)) : Except FileFault Entry :=
  if hasZero path then .error .zeroInName
  else
    match rebuild change path root with
    | .error e => .error e
    | .ok none => .ok empty
    | .ok (some e) => .ok e

/-! ## Reading -/

/-- The bytes of a file. -/
def read (root : Entry) (path : List String) : Except FileFault ByteArray :=
  match root.find path with
  | .error e => .error e
  | .ok (.folder _) => .error .isFolder
  | .ok (.file content) => .ok content

/-- The text of a file. -/
def readText (root : Entry) (path : List String) : Except FileFault String :=
  match root.read path with
  | .error e => .error e
  | .ok content =>
    match String.fromUTF8? content with
    | none => .error .notText
    | some text => .ok text

/-- The names in a folder, in ascending order. -/
def names (root : Entry) (path : List String) : Except FileFault (List String) :=
  match root.find path with
  | .error e => .error e
  | .ok (.file _) => .error .notFolder
  | .ok (.folder entries) => .ok (entries.map (·.1))

/-! ## Writing -/

/-- The tree with a file of the given bytes, which replaces what the file had. -/
def write (root : Entry) (path : List String) (content : ByteArray) : Except FileFault Entry :=
  root.alter path fun
    | some (.folder _) => .error .isFolder
    | _ => .ok (some (.file content))

/-- The tree with bytes added at the end of a file, which is made if it is not there. -/
def append (root : Entry) (path : List String) (content : ByteArray) : Except FileFault Entry :=
  root.alter path fun
    | some (.folder _) => .error .isFolder
    | some (.file old) => .ok (some (.file (old ++ content)))
    | none => .ok (some (.file content))

/-- The tree without a file. -/
def remove (root : Entry) (path : List String) : Except FileFault Entry :=
  root.alter path fun
    | some (.folder _) => .error .isFolder
    | some (.file _) => .ok none
    | none => .error .missing

/-- The tree with a file under another name of its folder, where it replaces the file that was
there. -/
def rename (root : Entry) (folder : List String) (old new : String) : Except FileFault Entry :=
  match root.read (folder ++ [old]) with
  | .error e => .error e
  | .ok content =>
    match root.write (folder ++ [new]) content with
    | .error e => .error e
    | .ok root => if old = new then .ok root else root.remove (folder ++ [old])

/-- The tree with a folder, which stays as it is if it is there. -/
def makeFolder (root : Entry) (path : List String) : Except FileFault Entry :=
  root.alter path fun
    | none => .ok (some empty)
    | some (.folder entries) => .ok (some (.folder entries))
    | some (.file _) => .error .present

/-- The tree without a folder and all that is in it. -/
def removeFolder (root : Entry) (path : List String) : Except FileFault Entry :=
  root.alter path fun
    | some (.folder _) => .ok none
    | some (.file _) => .error .notFolder
    | none => .error .missing

end Entry

end Rulebook
