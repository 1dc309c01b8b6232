import Rulebook.ReadOrder
import Rulebook.Store.RuleFile

/-!
# Rules in a folder

A folder holds the rules and the evaluations:

* `rules` is a folder with a file of its own for every rule, `<id>.yaml`;
* `evaluations.jsonl` is a file with a line for every evaluation, the oldest first.

The files are read at every call, so a file that is added, edited or removed by
hand counts at once.  A rule is first written to a draft, `.<id>.yaml.tmp`, which
then takes the name of the file of the rule.  Whoever reads the folder between
these steps sees no draft, because its name does not end in `.yaml`.

`rules` takes every file whose name ends so, and goes by the identifier that is in
the file.  A folder is read in an order of its own (`ReadOrder`); where none is said
it is the one of the names.  `find` goes by the name of the file: it reads `<id>.yaml` and does not
compare the identifier in it.  Either passes over a file that is no rule, and
stops at a file that cannot be read or is no text.  `clear` removes the files that
`rules` looks at, whatever is in them.
-/

namespace Rulebook

/-- Rules and evaluations in a folder. -/
structure FolderStore where
  /-- The folder. -/
  root : Entry

namespace FolderStore

/-! ## Names -/

/-- The name of the folder of the rules. -/
def rulesFolder : String := "rules"

/-- The name of the file of the evaluations. -/
def journalFile : String := "evaluations.jsonl"

/-- Whether an identifier may be the name of a file: it is not empty, does not begin with a dot and
has no separator of paths. -/
def isValidId (id : String) : Bool :=
  !id.toList.isEmpty && id.toList.head? != some '.' && id.toList.all fun c => c != '/' && c != '\\'

/-- The name of the file of a rule. -/
def ruleName (id : String) : String := id ++ ".yaml"

/-- The name of the draft of a rule. -/
def draftName (id : String) : String := "." ++ id ++ ".yaml.tmp"

/-- Whether a name is one of a rule file: it ends in `.yaml`, with something before that. -/
def isRuleName (name : String) : Bool :=
  ".yaml".toList.isSuffixOf name.toList && ".yaml".toList.length < name.toList.length

/-! ## Opening -/

/-- The store in a folder, where the folder of the rules is made if it is not there. -/
def openAt (root : Entry) : Except StoreError FolderStore :=
  match root.makeFolder [rulesFolder] with
  | .error fault => .error (.io fault)
  | .ok root => .ok ⟨root⟩

/-- The store in a new folder. -/
def empty : FolderStore := ⟨.folder [(rulesFolder, Entry.empty)]⟩

instance : Inhabited FolderStore := ⟨empty⟩

/-! ## Saving -/

/-- The store with the draft of a rule. -/
def draft (s : FolderStore) (id : String) (content : ByteArray) : Except FileFault FolderStore :=
  (s.root.write [rulesFolder, draftName id] content).map FolderStore.mk

/-- The store whose draft of a rule has become the file of the rule. -/
def publish (s : FolderStore) (id : String) : Except FileFault FolderStore :=
  (s.root.rename [rulesFolder] (draftName id) (ruleName id)).map FolderStore.mk

/-- Save a rule.  If the draft cannot become the file, it stays. -/
def save (s : FolderStore) (rule : Rule) : Except StoreError Unit × FolderStore :=
  if !isValidId rule.id then (.error (.invalidId rule.id), s)
  else
    match s.draft rule.id rule.fileText.toUTF8 with
    | .error fault => (.error (.io fault), s)
    | .ok drafted =>
      match drafted.publish rule.id with
      | .error fault => (.error (.io fault), drafted)
      | .ok saved => (.ok (), saved)

/-! ## Reading -/

/-- The rule in a file: `none` if there is no such file or it is no rule. -/
def readRule (s : FolderStore) (name : String) : Except StoreError (Option Rule) :=
  match s.root.readText [rulesFolder, name] with
  | .ok text => .ok (Rule.ofFileText? text)
  | .error .missing => .ok none
  | .error fault => .error (.io fault)

/-- The names of the rule files. -/
def ruleFiles (s : FolderStore) : Except StoreError (List String) :=
  match s.root.names [rulesFolder] with
  | .error fault => .error (.io fault)
  | .ok names => .ok (names.filter isRuleName)

/-- The rules of files, at the identifiers that are in them. -/
def collect (s : FolderStore) (found : Table Rule) : List String → Except StoreError (Table Rule)
  | [] => .ok found
  | name :: names =>
    match s.readRule name with
    | .error e => .error e
    | .ok none => s.collect found names
    | .ok (some rule) => s.collect (found.insert rule.id rule) names

/-- All rules in order of the identifiers that are in their files, which are read in some order. -/
def rulesIn (s : FolderStore) (order : ReadOrder String) : Except StoreError (List Rule) :=
  match s.ruleFiles with
  | .error e => .error e
  | .ok names => (s.collect Table.empty (order.arrange names)).map Table.values

/-- All rules in order of the identifiers that are in their files. -/
def rules (s : FolderStore) : Except StoreError (List Rule) := s.rulesIn .given

/-- The rules in the files of identifiers, at these. -/
def lookUp (s : FolderStore) (found : Table Rule) : List String → Except StoreError (Table Rule)
  | [] => .ok found
  | id :: ids =>
    if (found.get? id).isSome || !isValidId id then s.lookUp found ids
    else
      match s.readRule (ruleName id) with
      | .error e => .error e
      | .ok none => s.lookUp found ids
      | .ok (some rule) => s.lookUp (found.insert id rule) ids

/-- The rules in the files of the given identifiers, in order of these. -/
def find (s : FolderStore) (ids : List String) : Except StoreError (List Rule) :=
  (s.lookUp Table.empty ids).map Table.values

/-! ## Removing -/

/-- Remove files one after another, up to the first that cannot be removed. -/
def removeFiles (s : FolderStore) (removed : Nat) :
    List String → Except StoreError Nat × FolderStore
  | [] => (.ok removed, s)
  | name :: names =>
    match s.root.remove [rulesFolder, name] with
    | .error fault => (.error (.io fault), s)
    | .ok root => removeFiles ⟨root⟩ (removed + 1) names

/-- Remove every rule file in some order. -/
def clearIn (s : FolderStore) (order : ReadOrder String) : Except StoreError Nat × FolderStore :=
  match s.ruleFiles with
  | .error e => (.error e, s)
  | .ok names => s.removeFiles 0 (order.arrange names)

/-- Remove every rule file. -/
def clear (s : FolderStore) : Except StoreError Nat × FolderStore := s.clearIn .given

/-! ## Evaluations -/

/-- Add the line of an evaluation. -/
def record (s : FolderStore) (e : Evaluation) : Except StoreError Unit × FolderStore :=
  match s.root.append [journalFile] (String.ofList e.line).toUTF8 with
  | .error fault => (.error (.io fault), s)
  | .ok root => (.ok (), ⟨root⟩)

/-- The text of the file of the evaluations. -/
def journalText (s : FolderStore) : Except FileFault String := s.root.readText [journalFile]

instance : Repository FolderStore where
  save := save
  rules := rules
  find := find
  clear := clear
  record := record

example : isRuleName "a.yaml" ∧ ¬ isRuleName ".yaml" ∧ ¬ isRuleName (draftName "a") := by
  decide +kernel
example : ((empty.save ⟨"a", "x > 1"⟩).2.save ⟨"a", "x > 2"⟩).2.rules.toOption =
    some [⟨"a", "x > 2"⟩] := by decide +kernel

end FolderStore

end Rulebook
