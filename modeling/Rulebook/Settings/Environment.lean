import Rulebook.Text.Blank
import Rulebook.Text.Letter

/-!
# Environments

An environment gives variables their values.  A file may add variables, one a line:

    NAME=value # a comment
    export NAME="a value with $OTHER and ${OTHER}"

A value without quotes ends at a blank.  Between single quotes every character
stands for itself.  Between double quotes and outside quotes a backslash takes the
meaning from the next character, and a dollar sign is replaced by the value of the
variable whose name follows.  A name without braces ends at the first character
that is neither a letter nor a digit, and that character then has no meaning of
its own.

A line goes on in the next while a quote is open (`joined`).  Where lines end is
found without a look at what the values mean, and by slightly other rules: a
backslash counts between single quotes too, and a comment begins only after a
single blank.

A variable that has a value keeps it, so a file never changes one.  A line that has
another form ends the reading of the file, and what was read before it counts.
-/

namespace Rulebook

open Rulebook.Text (isBlank isDigit isAlphanumeric skipBlanks)

/-- Variables and their values, in the order in which they were set. -/
structure Environment where
  /-- The variables, each with its value. -/
  bindings : List (String × String)
  /-- No variable is there twice. -/
  nodup : (bindings.map (·.1)).Nodup

namespace Environment

/-! ## Variables -/

/-- The environment without variables. -/
def empty : Environment := ⟨[], List.nodup_nil⟩

instance : Inhabited Environment := ⟨empty⟩

/-- The value of a variable, if it has one. -/
def get? (env : Environment) (name : String) : Option String := env.bindings.lookup name

/-- What is looked up in vain is not there. -/
theorem not_mem_of_get?_eq_none {env : Environment} {name : String} (h : env.get? name = none) :
    name ∉ env.bindings.map (·.1) := by
  intro hm
  obtain ⟨p, hp, rfl⟩ := List.mem_map.1 hm
  simpa using List.lookup_eq_none_iff.1 h p hp

/-- The environment with a variable set, unless it has a value. -/
def set (env : Environment) (name value : String) : Environment :=
  if h : env.get? name = none then
    ⟨env.bindings ++ [(name, value)], by
      rw [List.map_append, List.map_singleton, List.nodup_append]
      refine ⟨env.nodup, by simp, fun a ha b hb e => not_mem_of_get?_eq_none h ?_⟩
      rwa [e, List.mem_singleton.1 hb] at ha⟩
  else env

/-- The environment of variables that are set one after the other. -/
def ofList (bindings : List (String × String)) : Environment :=
  bindings.foldl (fun env (name, value) => env.set name value) empty

/-- The value of a variable, which is empty if it has none. -/
def valueOf (env : Environment) (name : List Char) : List Char :=
  ((env.get? (String.ofList name)).getD "").toList

/-! ## Values -/

/-- How the next character of a value is read.  The flag `quoted` tells whether it is between double
quotes. -/
inductive Mode where
  /-- Outside single quotes. -/
  | plain (quoted : Bool)
  /-- After a backslash. -/
  | escaped (quoted : Bool)
  /-- Between single quotes. -/
  | literal
  /-- After a dollar sign, with the name so far. -/
  | name (name : List Char) (quoted : Bool)
  /-- After a dollar sign and a brace, with the name so far. -/
  | braced (name : List Char) (quoted : Bool)
  /-- After the end of the value. -/
  | ended

/-- The character that a backslash and a character stand for. -/
def escape? (c : Char) : Option Char :=
  if c = 'n' then some '\n'
  else if ['\\', '\'', '"', '$', ' '].contains c then some c
  else none

/-- The value that a text stands for: `none` if it has no meaning. -/
def value? (env : Environment) : Mode → List Char → Option (List Char)
  | .plain quoted, [] | .escaped quoted, [] => if quoted then none else some []
  | .name name quoted, [] => if quoted then none else some (env.valueOf name)
  | .literal, [] | .braced _ _, [] => none
  | .ended, [] => some []
  | .ended, c :: cs =>
    if c = ' ' ∨ c = '\t' then value? env .ended cs
    else if c = '#' then some []
    else none
  | .escaped quoted, c :: cs => do pure ((← escape? c) :: (← value? env (.plain quoted) cs))
  | .literal, c :: cs =>
    if c = '\'' then value? env (.plain false) cs
    else (value? env .literal cs).map (c :: ·)
  | .name name quoted, c :: cs =>
    if isAlphanumeric c then value? env (.name (name ++ [c]) quoted) cs
    else if c = '{' ∧ name.isEmpty then value? env (.braced [] quoted) cs
    else if c = '$' then (value? env (.name [] quoted) cs).map (env.valueOf name ++ ·)
    else (value? env (.plain quoted) cs).map fun rest => env.valueOf name ++ c :: rest
  | .braced name quoted, c :: cs =>
    if c = '}' then (value? env (.plain quoted) cs).map (env.valueOf name ++ ·)
    else value? env (.braced (name ++ [c]) quoted) cs
  | .plain quoted, c :: cs =>
    if c = '$' then value? env (.name [] quoted) cs
    else if c = '\\' then value? env (.escaped quoted) cs
    else if c = '"' then value? env (.plain (!quoted)) cs
    else if quoted then (value? env (.plain quoted) cs).map (c :: ·)
    else if c = '\'' then value? env .literal cs
    else if c = ' ' ∨ c = '\t' then value? env .ended cs
    else (value? env (.plain quoted) cs).map (c :: ·)

/-! ## Lines -/

/-- How the next character of a line is read, as far as the end of the line hangs on it. -/
inductive Quoting where
  /-- Outside quotes. -/
  | outside
  /-- Outside quotes, after a blank. -/
  | blank
  /-- Outside quotes, after a backslash. -/
  | escaped
  /-- Between double quotes. -/
  | double
  /-- Between double quotes, after a backslash. -/
  | doubleEscaped
  /-- Between single quotes. -/
  | single
  /-- Between single quotes, after a backslash. -/
  | singleEscaped
  deriving DecidableEq

namespace Quoting

/-- What a character opens outside quotes. -/
def opened (c : Char) : Quoting :=
  if c = '\\' then .escaped
  else if c = '"' then .double
  else if c = '\'' then .single
  else .outside

/-- How a line goes on after a character: `none` if a comment begins with it. -/
def after? : Quoting → Char → Option Quoting
  | .outside, c =>
    if isBlank c ∧ c ≠ '\n' ∧ c ≠ '\r' then some .blank else some (opened c)
  | .blank, c => if c = '#' then none else some (opened c)
  | .escaped, _ => some .outside
  | .double, c =>
    if c = '\\' then some .doubleEscaped else if c = '"' then some .outside else some .double
  | .doubleEscaped, _ => some .double
  | .single, c =>
    if c = '\\' then some .singleEscaped else if c = '\'' then some .outside else some .single
  | .singleEscaped, _ => some .single

end Quoting

/-- A text up to its comment, and how it would go on: not at all after a comment. -/
def withoutComment : Quoting → List Char → List Char × Option Quoting
  | q, [] => ([], some q)
  | q, c :: cs =>
    match q.after? c with
    | none => ([], none)
    | some q =>
      let (text, q) := withoutComment q cs
      (c :: text, q)

/-- Whether nothing but a comment is in a text. -/
def isComment (cs : List Char) : Bool := (skipBlanks cs).head? == some '#'

/-- The lines of a text, each with its end. -/
def linesOf : List Char → List (List Char)
  | [] => []
  | c :: cs =>
    match linesOf cs with
    | [] => [[c]]
    | line :: lines => if c = '\n' then [c] :: line :: lines else (c :: line) :: lines

/-- The lines of a file after a part of a line, where a line goes on while a quote is open.  A line
that never ends is none. -/
def joined : List Char → Quoting → List (List Char) → List (Option (List Char))
  | _, q, [] => if q = .outside then [] else [none]
  | before, q, line :: lines =>
    if isComment (before ++ line) then some [] :: joined [] .outside lines
    else
      match withoutComment q line with
      | (text, none) | (text, some .outside) => some (before ++ text) :: joined [] .outside lines
      | (text, some q) => joined (before ++ text) q lines

/-- Whether nothing but a comment comes next. -/
def atComment (cs : List Char) : Bool := (cs.head?).all (· == '#')

/-- Whether a character may be in a name. -/
def isNameChar (c : Char) : Bool :=
  isDigit c || ('a' ≤ c && c ≤ 'z') || ('A' ≤ c && c ≤ 'Z') || c == '_' || c == '.'

/-- A name, and what follows it and the blanks after it. -/
def name? : List Char → Option (List Char × List Char)
  | [] => none
  | c :: cs =>
    if isNameChar c ∧ ¬ isDigit c ∧ c ≠ '.' then
      some ((c :: cs).takeWhile isNameChar, skipBlanks ((c :: cs).dropWhile isNameChar))
    else none

/-- The name in a line and what follows the sign of equality. -/
def assignment? (cs : List Char) : Option (List Char × List Char) := do
  let (name, rest) ← name? cs
  match rest with
  | '=' :: value => pure (name, skipBlanks value)
  | _ =>
    if name = ['e', 'x', 'p', 'o', 'r', 't'] then
      let (name, rest) ← name? rest
      match rest with
      | '=' :: value => pure (name, skipBlanks value)
      | _ => none
    else none

/-- The environment after one line: `none` if the line has another form. -/
def readLine? (env : Environment) (line : List Char) : Option Environment :=
  let line := Text.trim line
  if atComment line then some env
  else do
    let (name, text) ← assignment? line
    let value ← if atComment text then some [] else env.value? (.plain false) text
    pure (env.set (String.ofList name) (String.ofList value))

/-- The environment after lines, up to the first that has another form. -/
def readLines (env : Environment) : List (Option (List Char)) → Environment
  | [] | none :: _ => env
  | some line :: lines =>
    match env.readLine? line with
    | none => env
    | some env => readLines env lines

/-- The environment after a file. -/
def readFile (env : Environment) (text : String) : Environment :=
  let cs := match text.toList with
    | '\ufeff' :: cs => cs
    | cs => cs
  env.readLines (joined [] .outside (linesOf cs))

example : ((readFile (ofList [("A", "1")])
    "# c\nA=2\nexport B = \"$A $\x7bA\x7d\" # c\nC=a\\ b'c d'\nD=x y\nE=1\n").bindings) =
    [("A", "1"), ("B", "1 1"), ("C", "a bc d")] := by decide +kernel
example : ((readFile empty "A=\"1\n2\"\nB='\\'\nC=3\n").bindings) = [("A", "1\n2")] := by
  decide +kernel

end Environment

end Rulebook
