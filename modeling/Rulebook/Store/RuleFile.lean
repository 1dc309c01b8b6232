import Rulebook.Store.Basic
import Rulebook.Yaml.Reader
import Rulebook.Yaml.Writer

/-!
# Rule files

A rule is written as a YAML mapping with the two keys `id` and `expression`, each
at the front of a line.

A text is a rule if it is one document that is a mapping and has each of the two
keys once, in any order, with a scalar.  The scalar counts as the text that it is,
also where it would read as a number or as nothing.  Other entries are passed over,
but their keys are scalars too.
-/

namespace Rulebook

namespace Rule

/-- The text of a rule file. -/
def fileText (r : Rule) : String :=
  String.ofList ("id: ".toList ++ Yaml.scalarLine r.id.toList ++ "expression: ".toList ++
    Yaml.scalarLine r.expression.toList)

/-- The values of a key in a mapping of a document. -/
def valuesOf (document : Yaml) (key : String) : List (Yaml × Yaml) → List Yaml
  | [] => []
  | (k, v) :: rest =>
    if document.text? k = some key then v :: valuesOf document key rest
    else valuesOf document key rest

/-- The rule of a YAML document. -/
def ofYaml? (document : Yaml) : Option Rule :=
  match document with
  | .mapping _ entries =>
    if entries.all fun (k, _) => (document.text? k).isSome then
      match valuesOf document "id" entries, valuesOf document "expression" entries with
      | [id], [expression] => do pure ⟨← document.text? id, ← document.text? expression⟩
      | _, _ => none
    else none
  | _ => none

/-- The rule of the text of a file: `none` if the text is no rule. -/
def ofFileText? (text : String) : Option Rule :=
  match Yaml.documents? .first text with
  | some [document] => ofYaml? document
  | _ => none

example : fileText ⟨"q", "'x' = 1"⟩ = "id: q\nexpression: '''x'' = 1'\n" := by decide +kernel
example : ofFileText? "# a rule\nexpression: \"a > 1\"\nid: 7\nextra: [1, 2]\n" =
    some ⟨"7", "a > 1"⟩ := by decide +kernel
example : ofFileText? "id: &x a\nexpression: >-\n  b\n  *x\n\nextra: *x\n" =
    some ⟨"a", "b *x"⟩ := by decide +kernel
example : ofFileText? "id: a\n" = none := by decide +kernel
example : ofFileText? "- id\n- a\n" = none := by decide +kernel

end Rule

end Rulebook
