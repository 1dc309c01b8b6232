import Rulebook.Proofs.SettingOrder
import Rulebook.Proofs.SettingValues
import Rulebook.Settings.Load

/-!
# Settings of a file and variables

A setting is what a variable says, or else what the file says, or else its own value, and this for
each key by itself and in any surroundings (`Settings.load_layered`).  The variables of a key begin
with `RULEKIT` and have two low lines before each name of the key, in either case, and the last of
them counts.

Other variables may get in the way of a key: those that lead into its value, and those that replace
the table that it is in.  Their paths do not part from the key.  A key is clear of them if every
variable is one of its own or has nothing to do with it (`Settings.Key.isClear`).

The word before the first name has two low lines after it as well.  A variable with one is none of a
key, and so it changes nothing (`Settings.load_set_single`).
-/

namespace Rulebook

namespace Settings

open Rulebook.Text (lowered)
open Setting (at? at?_single isApart leadsTo pathOf treeOf)

/-! ## Variables -/

/-- The name of the setting that a variable is, if it is one. -/
def nameOf? (name : String) : Option String :=
  let cs := (lowered name).toList
  if variablePrefix.isPrefixOf cs then some (String.ofList (dotted (cs.drop variablePrefix.length)))
  else none

theorem ofVariable?_eq (name value : String) :
    ofVariable? name value = (nameOf? name).map fun setting => (setting, .ofVariable value) := by
  rw [ofVariable?, nameOf?]
  split <;> rfl

/-- Whether a variable is no setting, or one that has nothing to do with a key. -/
def isElsewhere (key : List String) (name : String) : Bool :=
  (nameOf? name).all fun setting => isApart (pathOf setting) key

/-- The tree of a file and the variables of an environment. -/
def Surroundings.tree (w : Surroundings) (layer : List (String × Setting)) (env : Environment) :
    Setting :=
  treeOf (w.arrangedLayer layer ++ w.variableOrder.arrange (ofEnvironment env))

namespace Key

/-- The variable of a key in lower case, with low lines after the word that all variables begin
with. -/
def variableName (key : Key) (lines : String) : String :=
  "rulekit" ++ lines ++ "__".intercalate key.names

example : Key.storagePath.variableName "__" = "rulekit__repository__path" := by decide +kernel

/-- What is said of a key: what the last of its variables says, or else what the file says. -/
def said? (w : Surroundings) (layer : List (String × Setting)) (env : Environment) (key : Key) :
    Option Setting :=
  match env.bindings.reverse.find? fun b => lowered b.1 == key.variableName "__" with
  | some b => some (.ofVariable b.2)
  | none => at? key.names (treeOf (w.arrangedLayer layer))

/-- Whether each variable is one of a key or has nothing to do with it. -/
def isClear (env : Environment) (key : Key) : Bool :=
  env.bindings.all fun b =>
    lowered b.1 == key.variableName "__" || isElsewhere key.names b.1

end Key

/-! ## What the environment says -/

section

variable {key : Key} {env : Environment} {name : String}

theorem nameOf?_of_variableName (h : lowered name = key.variableName "__") :
    nameOf? name = some (".".intercalate key.names) := by
  rw [nameOf?, h]
  cases key <;> decide +kernel

theorem nameOf?_of_single (h : lowered name = key.variableName "_") : nameOf? name = none := by
  rw [nameOf?, h]
  cases key <;> decide +kernel

theorem leadsTo_names (key : Key) :
    leadsTo (pathOf (".".intercalate key.names)) key.names = true := by
  cases key <;> decide +kernel

theorem names_ne_nil (key : Key) : key.names ≠ [] := by
  cases key <;> exact List.cons_ne_nil _ _

theorem ofEnvironment_eq (env : Environment) : ofEnvironment env =
    (Table.ofList (env.bindings.filterMap fun b => ofVariable? b.1 b.2)).entries := rfl

theorem mem_settings {bindings : List (String × String)} {e : String × Setting} :
    e ∈ bindings.filterMap (fun b => ofVariable? b.1 b.2) ↔
      ∃ b ∈ bindings, nameOf? b.1 = some e.1 ∧ e.2 = .ofVariable b.2 := by
  simp only [List.mem_filterMap, ofVariable?_eq, Option.map_eq_some_iff]
  constructor
  · rintro ⟨b, hb, setting, hname, rfl⟩
    exact ⟨b, hb, hname, rfl⟩
  · rintro ⟨b, hb, hname, heq⟩
    exact ⟨b, hb, e.1, hname, heq ▸ rfl⟩

theorem isElsewhere_of_isClear (h : key.isClear env = true) {b : String × String}
    (hb : b ∈ env.bindings) (hne : lowered b.1 ≠ key.variableName "__") :
    isElsewhere key.names b.1 = true :=
  (Bool.or_eq_true_iff.mp (List.all_eq_true.mp h b hb)).resolve_left fun heq => hne (eq_of_beq heq)

theorem isApart_of_isElsewhere {names : List String} {setting : String}
    (h : isElsewhere names name = true) (hname : nameOf? name = some setting) :
    isApart (pathOf setting) names = true := by
  rwa [isElsewhere, hname, Option.all_some] at h

/-- The last variable of a clear key says what the environment says of the key. -/
theorem mem_ofEnvironment_of_isClear (h : key.isClear env = true) {b : String × String}
    (hfind : env.bindings.reverse.find? (fun b => lowered b.1 == key.variableName "__") = some b) :
    (".".intercalate key.names, .ofVariable b.2) ∈ ofEnvironment env := by
  obtain ⟨hb, after, before, hsplit, hafter⟩ := List.find?_eq_some_iff_append.mp hfind
  have hbindings : env.bindings = before.reverse ++ b :: after.reverse := by
    rw [← List.reverse_reverse env.bindings, hsplit, List.reverse_append, List.reverse_cons,
      List.append_assoc, List.singleton_append]
  have hname := nameOf?_of_variableName (eq_of_beq hb)
  have hb' : ofVariable? b.1 b.2 = some (".".intercalate key.names, .ofVariable b.2) := by
    rw [ofVariable?_eq, hname, Option.map_some]
  rw [ofEnvironment_eq, Table.mem_entries_iff, hbindings, List.filterMap_append,
    List.filterMap_cons, hb']
  refine Table.get?_ofList_append_cons fun e he heq => ?_
  -- a later variable is none of the key, so that its path is not the one of the key
  obtain ⟨b', hmem, hname', -⟩ := mem_settings.mp he
  have hmem' : b' ∈ env.bindings := by
    rw [hbindings]
    exact List.mem_append_right _ (List.mem_cons_of_mem _ hmem)
  have hne : lowered b'.1 ≠ key.variableName "__" := fun heq' =>
    absurd (beq_iff_eq.mpr heq') (by simpa using hafter b' (List.mem_reverse.mp hmem))
  have hapart := isApart_of_isElsewhere (isElsewhere_of_isClear h hmem' hne) hname'
  rw [heq, Setting.isApart_of_leadsTo (leadsTo_names key)] at hapart
  cases hapart

/-- The settings of variables have different names, in whatever order they are taken. -/
theorem nodup_arrange_ofEnvironment (order : ReadOrder (String × Setting)) (env : Environment) :
    ((order.arrange (ofEnvironment env)).map (·.1)).Nodup :=
  ((order.perm_arrange _).map _).nodup_iff.mpr (Table.nodup_keys (Table.ofList _))

/-- What is said of a clear key is its value in the tree of the file and the environment. -/
theorem at?_tree_of_isClear {w : Surroundings} {layer : List (String × Setting)}
    (h : key.isClear env = true) : at? key.names (w.tree layer env) = key.said? w layer env := by
  have hapart : ∀ e ∈ w.variableOrder.arrange (ofEnvironment env),
      (∀ b ∈ env.bindings, nameOf? b.1 = some e.1 → lowered b.1 ≠ key.variableName "__") →
      isApart (pathOf e.1) key.names = true := by
    intro e he hne
    rw [ReadOrder.mem_arrange] at he
    obtain ⟨b, hb, hname, -⟩ := mem_settings.mp (Table.mem_of_mem_ofList he)
    exact isApart_of_isElsewhere (isElsewhere_of_isClear h hb (hne b hb hname)) hname
  rw [Surroundings.tree, Key.said?]
  split
  next b hfind =>
    obtain ⟨before, after, hsplit⟩ := List.append_of_mem
      ((w.variableOrder.mem_arrange).mpr (mem_ofEnvironment_of_isClear h hfind))
    rw [hsplit, ← List.append_assoc]
    refine Setting.at?_treeOf_append_cons (names_ne_nil key) (Setting.ofVariable_ne_table b.2)
      (leadsTo_names key) fun e he => hapart e ?_ fun b' _ hname heq => ?_
    · rw [hsplit]
      exact List.mem_append_right _ (List.mem_cons_of_mem _ he)
    · -- two settings of variables have different names
      have hnodup := nodup_arrange_ofEnvironment w.variableOrder env
      rw [hsplit, List.map_append, List.map_cons, List.nodup_append, List.nodup_cons] at hnodup
      rw [nameOf?_of_variableName heq, Option.some_inj] at hname
      exact hnodup.2.1.1 (List.mem_map.mpr ⟨e, he, hname.symm⟩)
  next hfind =>
    refine Setting.at?_treeOf_append (names_ne_nil key) fun e he => hapart e he ?_
    intro b hb _ heq
    exact List.find?_eq_none.mp hfind b (List.mem_reverse.mpr hb) (beq_iff_eq.mpr heq)

end

/-! ## Loading -/

section

variable {w : Surroundings} {files : Table String} {layer : List (String × Setting)}

theorem load_eq (hfile : w.layer? files = some layer) (env : Environment) :
    load files env w = ofLayer (w.tree layer (w.environment files env)).entries := by
  rw [load, hfile]
  rfl

theorem ofEnvironment_set {env : Environment} {name : String} (h : nameOf? name = none)
    (value : String) : ofEnvironment (env.set name value) = ofEnvironment env := by
  rw [Environment.set]
  split
  next =>
    rw [ofEnvironment_eq, ofEnvironment_eq, List.filterMap_append, List.filterMap_cons,
      ofVariable?_eq, h]
    exact congrArg (fun es => (Table.ofList es).entries) (List.append_nil _)
  next => rfl

/-- A variable with one low line after the first word changes nothing, whatever key it is meant
for. -/
theorem load_set_single (hfile : w.layer? files = some layer)
    (hnone : (files.get? ".env").or w.outerVariables = none) (env : Environment) {key : Key}
    {name : String} (h : lowered name = key.variableName "_") (value : String) :
    load files (env.set name value) w = load files env w := by
  have henv (env : Environment) : w.environment files env = env := by
    rw [Surroundings.environment, hnone]
    rfl
  rw [load_eq hfile, load_eq hfile, henv, henv, Surroundings.tree, Surroundings.tree,
    ofEnvironment_set (nameOf?_of_single h)]

end

/-- How settings are loaded from a file and variables, in any surroundings. -/
structure Layered (w : Surroundings) (files : Table String) (layer : List (String × Setting))
    (env : Environment) : Prop where
  /-- A key has the value of its variable, or else the one of the file, if no other variable gets in
  its way. -/
  said : ∀ key : Key, key.isClear (w.environment files env) = true →
    at? key.names (w.tree layer (w.environment files env)) =
      key.said? w layer (w.environment files env)
  /-- What has nothing to do with a key never counts for it. -/
  apart : ∀ key : Key, at? key.names (w.tree layer (w.environment files env)) =
    at? key.names (treeOf ((w.arrangedLayer layer ++
      w.variableOrder.arrange (ofEnvironment (w.environment files env))).filter
        fun e => !isApart (pathOf e.1) key.names))
  /-- The settings have the value at a key, or else their own. -/
  loaded : ∀ (key : Key) (s : Settings) (text : String),
    load files env w = .ok s → key.text? s = some text →
    match at? key.names (w.tree layer (w.environment files env)) with
    | some v => key.read? v = some text
    | none =>
      (∀ items, at? key.names.dropLast (w.tree layer (w.environment files env)) ≠
        some (.list items)) → key.text? {} = some text
  /-- A variable with the text of a value has the value. -/
  written : ∀ (key : Key) (s : Settings) (text : String), key.text? s = some text →
    (key.isFree = true → Setting.ofVariable text = .text text) →
    key.read? (.ofVariable text) = some text
  /-- A file with plain names has its values as they are written, in whatever order it is read. -/
  plain : Setting.isPlainLayer layer = true → treeOf (w.arrangedLayer layer) = .table layer
  /-- Loading fails only by a value that does not go in where it stands. -/
  succeeds : (∃ s, load files env w = .ok s) ↔ ∀ check ∈ checks, ∀ v,
    at? [check.1] (w.tree layer (w.environment files env)) = some v → check.2 v = true
  /-- A variable with one low line after the first word changes nothing. -/
  single : (files.get? ".env").or w.outerVariables = none → ∀ (key : Key) (name value : String),
    lowered name = key.variableName "_" →
    load files (env.set name value) w = load files env w

/-- Settings are loaded key by key: a key has the value of its variable, or else the one of the
file, or else its own.  This is so for a file in any format, and in whatever order the entries of
the file and the variables are taken. -/
theorem load_layered {w : Surroundings} {files : Table String} {layer : List (String × Setting)}
    (hfile : w.layer? files = some layer) (env : Environment) : Layered w files layer env where
  said _ := at?_tree_of_isClear
  apart key := (Setting.at?_treeOf_filter (names_ne_nil key) _).symm
  loaded key s text hs ht := by
    rw [load_eq hfile] at hs
    have hgiven := ofLayer_eq_ok_iff.mp hs
    split
    next v hv => exact hgiven.read?_eq hv ht
    next hnone => exact fun hlist => hgiven.text?_own hnone hlist ht
  written _ _ _ := Key.read?_ofVariable
  plain := w.treeOf_arrangedLayer
  succeeds := by
    rw [load_eq hfile, exists_ofLayer_eq_ok_iff]
    simp only [at?_single]
  single hnone _ _ value h := load_set_single hfile hnone env h value

/-- Of two files one counts, and the port is taken from its variable and the host from the file. -/
theorem load_layered_port :
    let files := Table.ofList [("config/server.json", "\x7b\"host\": \"b\"\x7d"),
      ("config/server.yaml", "port: 1\nhost: a\n")]
    let env := Environment.ofList [("RULEKIT__PORT", "2")]
    let w : Surroundings := { formatOrder := ⟨List.reverse, List.reverse_perm⟩ }
    ∃ layer s, w.layer? files = some layer ∧ load files env w = .ok s ∧
      Key.port.text? s = some "2" ∧ Key.host.text? s = some "a" := by
  intro files env w
  obtain ⟨layer, hfile⟩ := Option.isSome_iff_exists.mp
    (show (w.layer? files).isSome = true by decide +kernel)
  have h := load_layered hfile env
  have hchecks : ((w.layer? files).all fun layer => checks.all fun check =>
      (at? [check.1] (w.tree layer (w.environment files env))).all check.2) = true := by
    decide +kernel
  rw [hfile, Option.all_some] at hchecks
  obtain ⟨s, hs⟩ := h.succeeds.mpr fun check hcheck v hv => by
    have hall := List.all_eq_true.mp hchecks check hcheck
    rwa [hv, Option.all_some] at hall
  have hread (key : Key) (text : String) (hclear : key.isClear (w.environment files env) = true)
      (hsaid : ((w.layer? files).bind fun layer =>
        (key.said? w layer (w.environment files env)).bind key.read?) = some text)
      (htext : (key.text? s).isSome = true) : key.text? s = some text := by
    obtain ⟨text', ht⟩ := Option.isSome_iff_exists.mp htext
    rw [hfile, Option.bind_some, Option.bind_eq_some_iff] at hsaid
    obtain ⟨v, hv, hv'⟩ := hsaid
    have hmatch := h.loaded key s text' hs ht
    rw [h.said key hclear, hv] at hmatch
    rw [ht, ← hv', ← hmatch]
  exact ⟨layer, s, hfile, hs, hread .port "2" (by decide +kernel) (by decide +kernel) rfl,
    hread .host "a" (by decide +kernel) (by decide +kernel) rfl⟩

/-- The variable that is meant for the port has no effect. -/
theorem not_load_layered :
    let env := Environment.ofList [("RULEKIT_PORT", "9000")]
    (({} : Surroundings).layer? Table.empty).isSome = true ∧
      env.get? "RULEKIT_PORT" = some "9000" ∧
      ((load Table.empty env).toOption.bind Key.port.text?) ≠ some "9000" := by
  decide +kernel

/-- A folder that a variable says is no storage unless something says its kind as well. -/
theorem load_ne_ok_of_said_path {w : Surroundings} {files : Table String}
    {layer : List (String × Setting)} (hfile : w.layer? files = some layer) {env : Environment}
    {v : Setting} (hname : Key.storageName.isClear (w.environment files env) = true)
    (hpath : Key.storagePath.isClear (w.environment files env) = true)
    (hnone : Key.storageName.said? w layer (w.environment files env) = none)
    (hv : Key.storagePath.said? w layer (w.environment files env) = some v) (s : Settings) :
    load files env w ≠ .ok s := by
  intro hs
  rw [load_eq hfile] at hs
  obtain ⟨v', hv'⟩ := (ofLayer_eq_ok_iff.mp hs).exists_storageName
    ((at?_tree_of_isClear hpath).trans hv)
  cases hv'.symm.trans ((at?_tree_of_isClear hname).trans hnone)

end Settings

end Rulebook
