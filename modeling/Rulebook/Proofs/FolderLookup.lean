import Rulebook.Proofs.FolderFiles

/-!
# Listing and looking up in a folder

A listing goes by the identifier that is in a file, and a look-up by the name of the file.  So
the two agree about an identifier only as far as names and contents do: the file named for it
has no rule of another identifier, and no other file has another rule of this one
(`FolderStore.WellNamed`).  A folder in which nothing was written by hand is well named
throughout (`Mirrors.wellNamed`).

Both read files into a table.  A listing keeps the last rule of an identifier in the order in
which the files are read (`get?_collect`), and what that order is depends on the folder, so a
listing is one in any order (`FolderStore.Listing`).  A look-up finds what the files of the
identifiers hold, in any order of these (`get?_lookUp`).

For well named identifiers a look-up finds the listed rules of these identifiers in their
order, and for others it does not (`find_eq_filter_listing_iff`).
-/

namespace Rulebook

open Entries (lookup)
open FolderStore (isValidId ruleName)

namespace Entry

/-- A walk along a path is one along its parts. -/
theorem walk_append (p q : List String) (e : Entry) : walk (p ++ q) e = walk p e >>= walk q := by
  induction p generalizing e with
  | nil => rfl
  | cons name p ih =>
    cases e with
    | file content => rfl
    | folder entries =>
      rw [List.cons_append, walk, walk]
      split
      next => rfl
      next =>
        cases lookup name entries with
        | none => rfl
        | some inner => exact ih inner

theorem find_eq_ok_iff {root e : Entry} {path : List String} :
    root.find path = .ok e ↔ hasZero path = false ∧ walk path root = .ok e := by
  rw [find]
  cases hasZero path with
  | false => simp
  | true => simp

/-- What is found in a folder has a name there. -/
theorem mem_names_of_find {root e : Entry} (path : List String) {names : List String}
    {name : String} (hfind : root.find (path ++ [name]) = .ok e)
    (hnames : root.names path = .ok names) : name ∈ names := by
  obtain ⟨-, hwalk⟩ := find_eq_ok_iff.mp hfind
  rw [walk_append] at hwalk
  rw [Entry.names] at hnames
  cases hfolder : root.find path with
  | error fault => simp [hfolder] at hnames
  | ok inner =>
    rw [hfolder] at hnames
    rw [(find_eq_ok_iff.mp hfolder).2] at hwalk
    cases inner with
    | file content => cases hnames
    | folder entries =>
      cases hnames
      simp only [bind, Except.bind, walk] at hwalk
      split at hwalk
      next => cases hwalk
      next =>
        cases hlookup : lookup name entries with
        | none => simp [hlookup] at hwalk
        | some found => exact List.mem_map_of_mem (Entries.mem_of_lookup hlookup)

end Entry

namespace FolderStore

variable {s : FolderStore} {found t : Table Rule} {names ids : List String} {id : String}

/-! ## Files -/

/-- The rule in a file, if the file can be read and is a rule. -/
def ruleIn? (s : FolderStore) (name : String) : Option Rule :=
  match s.readRule name with
  | .ok rule? => rule?
  | .error _ => none

/-- The rule in the file that is named for an identifier. -/
def ruleNamed? (s : FolderStore) (id : String) : Option Rule :=
  if isValidId id then s.ruleIn? (ruleName id) else none

theorem ruleIn?_of_readRule {name : String} {rule? : Option Rule}
    (h : s.readRule name = .ok rule?) : s.ruleIn? name = rule? := by
  rw [ruleIn?, h]

theorem ruleNamed?_eq_some_iff {rule : Rule} :
    s.ruleNamed? id = some rule ↔
      isValidId id = true ∧ s.readRule (ruleName id) = .ok (some rule) := by
  rw [ruleNamed?, ruleIn?]
  cases isValidId id with
  | false => simp
  | true =>
    cases s.readRule (ruleName id) with
    | error e => simp
    | ok rule? => simp

/-- A file with a rule is there. -/
theorem exists_find_of_readRule {name : String} {rule : Rule}
    (h : s.readRule name = .ok (some rule)) : ∃ e, s.root.find [rulesFolder, name] = .ok e := by
  cases hfind : s.root.find [rulesFolder, name] with
  | ok e => exact ⟨e, rfl⟩
  | error fault =>
    rw [readRule, Entry.readText, Entry.read, hfind] at h
    cases fault <;> cases h

/-- A look-up reads no file that a listing passes over. -/
theorem mem_ruleFiles_of_ruleNamed? {rule : Rule} (hnames : s.ruleFiles = .ok names)
    (h : s.ruleNamed? id = some rule) : ruleName id ∈ names := by
  obtain ⟨hid, hread⟩ := ruleNamed?_eq_some_iff.mp h
  obtain ⟨e, hfind⟩ := exists_find_of_readRule hread
  rw [ruleFiles] at hnames
  cases hall : s.root.names [rulesFolder] with
  | error fault => simp [hall] at hnames
  | ok all =>
    rw [hall] at hnames
    cases hnames
    have hmem : ruleName id ∈ all := Entry.mem_names_of_find [rulesFolder] hfind hall
    exact List.mem_filter.mpr ⟨hmem, isRuleName_ruleName hid⟩

/-! ## Listing -/

/-- A listing needs that every file can be read. -/
theorem exists_collect_iff :
    (∃ t, s.collect found names = .ok t) ↔
      ∀ name ∈ names, ∃ rule?, s.readRule name = .ok rule? := by
  induction names generalizing found with
  | nil => simp [collect]
  | cons name names ih =>
    rw [collect, List.forall_mem_cons]
    cases hread : s.readRule name with
    | error e => simp
    | ok rule? =>
      cases rule? with
      | none => simpa using ih
      | some rule => simpa using ih

/-- The last rule of an identifier in files. -/
def lastRule? (s : FolderStore) (names : List String) (id : String) : Option Rule :=
  names.reverse.findSome? fun name => (s.ruleIn? name).filter (·.id = id)

theorem lastRule?_cons (s : FolderStore) (name : String) (names : List String) (id : String) :
    s.lastRule? (name :: names) id =
      (s.lastRule? names id).or ((s.ruleIn? name).filter (·.id = id)) := by
  rw [lastRule?, List.reverse_cons, List.findSome?_append, List.findSome?_singleton, lastRule?]

theorem lastRule?_concat {name : String} {rule : Rule} (h : s.ruleIn? name = some rule) :
    s.lastRule? (names ++ [name]) rule.id = some rule := by
  rw [lastRule?, List.reverse_concat, List.findSome?_cons, h, Option.filter_some_pos (by simp)]

theorem exists_of_lastRule? {rule : Rule} (h : s.lastRule? names id = some rule) :
    ∃ name ∈ names, s.ruleIn? name = some rule ∧ rule.id = id := by
  obtain ⟨name, hname, hrule⟩ := List.exists_of_findSome?_eq_some h
  obtain ⟨hin, hid⟩ := Option.filter_eq_some_iff.mp hrule
  exact ⟨name, List.mem_reverse.mp hname, hin, of_decide_eq_true hid⟩

theorem ne_of_lastRule?_eq_none (h : s.lastRule? names id = none) {name : String} {rule : Rule}
    (hname : name ∈ names) (hin : s.ruleIn? name = some rule) : rule.id ≠ id := by
  intro hid
  have hnone := List.findSome?_eq_none_iff.mp h name (List.mem_reverse.mpr hname)
  rw [hin, Option.filter_some_pos (by simp [hid])] at hnone
  cases hnone

/-- Of the files with one identifier the last one counts. -/
theorem get?_collect (h : s.collect found names = .ok t) (key : String) :
    t.get? key = (s.lastRule? names key).or (found.get? key) := by
  induction names generalizing found with
  | nil =>
    cases h
    rfl
  | cons name names ih =>
    rw [lastRule?_cons, Option.or_assoc]
    rw [collect] at h
    cases hread : s.readRule name with
    | error e => simp [hread] at h
    | ok rule? =>
      rw [hread] at h
      rw [ruleIn?_of_readRule hread]
      cases rule? with
      | none => exact ih h
      | some rule =>
        rw [ih h, Table.get?_insert]
        by_cases heq : key = rule.id
        · rw [if_pos heq, Option.filter_some_pos (by simp [heq]), Option.some_or]
        · rw [if_neg heq, Option.filter_some_neg (by simp [Ne.symm heq]), Option.none_or]

/-- Every rule that is read stands at its own identifier. -/
theorem id_eq_of_collect (h : s.collect Table.empty names = .ok t) (key : String) (rule : Rule)
    (hrule : t.get? key = some rule) : rule.id = key := by
  rw [get?_collect h, Table.get?_empty, Option.or_none] at hrule
  obtain ⟨-, -, -, hid⟩ := exists_of_lastRule? hrule
  exact hid

theorem rulesIn_eq_ok_iff {order : ReadOrder String} {listed : List Rule} :
    s.rulesIn order = .ok listed ↔
      ∃ names t, s.ruleFiles = .ok names ∧
        s.collect Table.empty (order.arrange names) = .ok t ∧ t.values = listed := by
  rw [rulesIn]
  cases s.ruleFiles with
  | error e => simp
  | ok names =>
    cases hcollect : s.collect Table.empty (order.arrange names) <;> simp [Except.map, hcollect]

theorem rules_eq_ok_iff {listed : List Rule} :
    s.rules = .ok listed ↔
      ∃ names t, s.ruleFiles = .ok names ∧ s.collect Table.empty names = .ok t ∧
        t.values = listed := rulesIn_eq_ok_iff

/-- Whether rules are a listing of the folder, where its files are read in some order. -/
def Listing (s : FolderStore) (listed : List Rule) : Prop :=
  ∃ names order t, s.ruleFiles = .ok names ∧ order.Perm names ∧
    s.collect Table.empty order = .ok t ∧ t.values = listed

/-- The listings are what is listed where the folder is read in some order. -/
theorem listing_iff {listed : List Rule} :
    s.Listing listed ↔ ∃ order : ReadOrder String, s.rulesIn order = .ok listed := by
  constructor
  · rintro ⟨names, arranged, t, hnames, hperm, hcollect, hlisted⟩
    obtain ⟨order, rfl⟩ := ReadOrder.exists_arrange_eq hperm
    exact ⟨order, rulesIn_eq_ok_iff.mpr ⟨names, t, hnames, hcollect, hlisted⟩⟩
  · rintro ⟨order, h⟩
    obtain ⟨names, t, hnames, hcollect, hlisted⟩ := rulesIn_eq_ok_iff.mp h
    exact ⟨names, order.arrange names, t, hnames, order.perm_arrange names, hcollect, hlisted⟩

theorem listing_rules {listed : List Rule} (h : s.rules = .ok listed) : s.Listing listed :=
  listing_iff.mpr ⟨.given, h⟩

/-- A listing ascends. -/
theorem Listing.pairwise {listed : List Rule} (h : s.Listing listed) :
    listed.Pairwise fun a b => a.id < b.id := by
  obtain ⟨names, order, t, -, -, hcollect, rfl⟩ := h
  exact Table.pairwise_values (id_eq_of_collect hcollect)

/-- A rule in any file is in a listing, the one that reads this file at the end. -/
theorem exists_listing_of_ruleIn? {listed : List Rule} (h : s.Listing listed)
    (hnames : s.ruleFiles = .ok names) {name : String} (hname : name ∈ names) {rule : Rule}
    (hin : s.ruleIn? name = some rule) : ∃ listed, s.Listing listed ∧ rule ∈ listed := by
  obtain ⟨names', order, u, hnames', hperm, hcollect, -⟩ := h
  rw [hnames] at hnames'
  cases hnames'
  have hlast : (names.erase name ++ [name]).Perm names :=
    List.perm_append_comm.trans (List.perm_cons_erase hname).symm
  obtain ⟨t, ht⟩ : ∃ t, s.collect Table.empty (names.erase name ++ [name]) = .ok t := by
    -- the same files are read, and they could all be read before
    refine exists_collect_iff.mpr fun n hn => ?_
    exact exists_collect_iff.mp ⟨u, hcollect⟩ n (hperm.mem_iff.mpr (hlast.mem_iff.mp hn))
  refine ⟨t.values, ⟨names, _, t, hnames, hlast, ht, rfl⟩, Table.mem_values.mpr ⟨rule.id, ?_⟩⟩
  rw [get?_collect ht, lastRule?_concat hin, Option.some_or]

/-! ## Looking up -/

/-- One step of a look-up.  An identifier is passed over if it was looked up before or cannot name a
file. -/
theorem lookUp_cons (s : FolderStore) (found : Table Rule) (id : String) (ids : List String) :
    s.lookUp found (id :: ids) =
      if isValidId id = true ∧ found.get? id = none then
        s.readRule (ruleName id) >>= fun rule? => s.lookUp (found.insert? id rule?) ids
      else s.lookUp found ids := by
  have hpass : ((found.get? id).isSome || !isValidId id) = true ↔
      ¬ (isValidId id = true ∧ found.get? id = none) := by
    cases isValidId id <;> cases found.get? id <;> simp
  rw [lookUp]
  by_cases hread : isValidId id = true ∧ found.get? id = none
  · rw [if_neg (fun h => hpass.mp h hread), if_pos hread]
    cases s.readRule (ruleName id) with
    | error e => rfl
    | ok rule? => cases rule? <;> rfl
  · rw [if_pos (hpass.mpr hread), if_neg hread]

/-- A look-up needs that the file of every identifier can be read. -/
theorem exists_lookUp_iff :
    (∃ t, s.lookUp found ids = .ok t) ↔ ∀ id ∈ ids, isValidId id = true ∧ found.get? id = none →
      ∃ rule?, s.readRule (ruleName id) = .ok rule? := by
  induction ids generalizing found with
  | nil => simp [lookUp]
  | cons id ids ih =>
    rw [lookUp_cons, List.forall_mem_cons]
    by_cases hnew : isValidId id = true ∧ found.get? id = none
    · rw [if_pos hnew]
      cases hread : s.readRule (ruleName id) with
      | error e => simp [hnew, bind, Except.bind]
      | ok rule? =>
        -- once the file is read, it is not asked for any more
        have hrest : ∀ id' ∈ ids,
            ((isValidId id' = true ∧ (found.insert? id rule?).get? id' = none →
              ∃ rule?, s.readRule (ruleName id') = .ok rule?) ↔
            (isValidId id' = true ∧ found.get? id' = none →
              ∃ rule?, s.readRule (ruleName id') = .ok rule?)) := by
          intro id' _
          by_cases heq : id' = id
          · simp [heq, hread]
          · rw [Table.get?_insert?, if_neg heq]
        simpa [bind, Except.bind, ih] using forall₂_congr hrest
    · simp [hnew, ih]

/-- The files of the identifiers count, unless something was found before. -/
theorem get?_lookUp (h : s.lookUp found ids = .ok t) (key : String) :
    t.get? key = if key ∈ ids then (found.get? key).or (s.ruleNamed? key) else found.get? key := by
  induction ids generalizing found with
  | nil =>
    cases h
    simp
  | cons id ids ih =>
    rw [lookUp_cons] at h
    split at h
    next hnew =>
      cases hread : s.readRule (ruleName id) with
      | error e => simp [hread, bind, Except.bind] at h
      | ok rule? =>
        have hnamed : s.ruleNamed? id = rule? := by
          rw [ruleNamed?, if_pos hnew.1, ruleIn?_of_readRule hread]
        rw [hread] at h
        rw [ih h, Table.get?_insert?]
        by_cases heq : key = id
        · simp [heq, hnew.2, hnamed]
        · simp [heq]
    next hpass =>
      have hor : (found.get? id).or (s.ruleNamed? id) = found.get? id := by
        rw [ruleNamed?]
        cases hfound : found.get? id with
        | some rule => rfl
        | none => rw [if_neg fun hid => hpass ⟨hid, hfound⟩, Option.none_or]
      rw [ih h]
      by_cases heq : key = id
      · simp [heq, hor]
      · simp [heq]

theorem find_eq_ok_iff {rules : List Rule} :
    s.find ids = .ok rules ↔ ∃ t, s.lookUp Table.empty ids = .ok t ∧ t.values = rules := by
  rw [find]
  cases s.lookUp Table.empty ids <;> simp [Except.map]

/-- A part of what can be looked up can be looked up. -/
theorem exists_find_part {part : List String} {rules : List Rule} (hfind : s.find ids = .ok rules)
    (hpart : part ⊆ ids) :
    ∃ t : Table Rule, s.find part = .ok t.values ∧
      ∀ key, t.get? key = if key ∈ part then s.ruleNamed? key else none := by
  obtain ⟨u, hu, -⟩ := find_eq_ok_iff.mp hfind
  obtain ⟨t, ht⟩ : ∃ t, s.lookUp Table.empty part = .ok t :=
    exists_lookUp_iff.mpr fun id hid => exists_lookUp_iff.mp ⟨u, hu⟩ id (hpart hid)
  refine ⟨t, find_eq_ok_iff.mpr ⟨t, ht, rfl⟩, fun key => ?_⟩
  rw [get?_lookUp ht, Table.get?_empty, Option.none_or]

/-! ## Well named identifiers -/

/-- Whether names and contents agree about an identifier. -/
structure WellNamed (s : FolderStore) (id : String) : Prop where
  /-- The rule in the file that is named for the identifier has this identifier. -/
  id_eq : ∀ rule, s.ruleNamed? id = some rule → rule.id = id
  /-- A rule of the identifier in any file is the one in the file that is named for it. -/
  named : ∀ names, s.ruleFiles = .ok names → ∀ name ∈ names, ∀ rule,
    s.ruleIn? name = some rule → rule.id = id → s.ruleNamed? id = some rule

instance (s : FolderStore) (id : String) : Decidable (s.WellNamed id) :=
  decidable_of_iff
    ((∀ rule ∈ s.ruleNamed? id, rule.id = id) ∧
      ∀ names ∈ s.ruleFiles.toOption, ∀ name ∈ names, ∀ rule ∈ s.ruleIn? name,
        rule.id = id → s.ruleNamed? id = some rule)
    ⟨fun ⟨hid, hnamed⟩ => ⟨hid, fun names hnames => hnamed names (by rw [hnames]; rfl)⟩,
      fun h => ⟨h.id_eq, fun names hnames => by
        cases hfiles : s.ruleFiles with
        | error e => simp [hfiles, Except.toOption] at hnames
        | ok names' =>
          rw [hfiles] at hnames
          cases hnames
          exact h.named names hfiles⟩⟩

/-- All identifiers are well named if every rule is in the file that is named for it. -/
theorem wellNamed_of_ruleName (hnames : s.ruleFiles = .ok names)
    (h : ∀ name ∈ names, ∀ rule, s.ruleIn? name = some rule →
      isValidId rule.id = true ∧ name = ruleName rule.id) (id : String) : s.WellNamed id where
  id_eq rule hnamed := by
    have hname := mem_ruleFiles_of_ruleNamed? hnames hnamed
    have hin := ruleIn?_of_readRule (ruleNamed?_eq_some_iff.mp hnamed).2
    exact ruleName_injective (h _ hname rule hin).2.symm
  named names' hnames' name hname rule hin hid := by
    rw [hnames] at hnames'
    cases hnames'
    obtain ⟨hvalid, hrule⟩ := h name hname rule hin
    rw [← hid, ruleNamed?, if_pos hvalid, ← hrule, hin]

/-- The last rule of a well named identifier is in the file that is named for it, whatever the order
of the files is. -/
theorem WellNamed.lastRule?_eq (h : s.WellNamed id) (hnames : s.ruleFiles = .ok names)
    {order : List String} (hperm : order.Perm names) :
    s.lastRule? order id = s.ruleNamed? id := by
  cases hlast : s.lastRule? order id with
  | some rule =>
    obtain ⟨name, hname, hin, hid⟩ := exists_of_lastRule? hlast
    exact (h.named names hnames name (hperm.mem_iff.mp hname) rule hin hid).symm
  | none =>
    cases hnamed : s.ruleNamed? id with
    | none => rfl
    | some rule =>
      have hname := mem_ruleFiles_of_ruleNamed? hnames hnamed
      have hin := ruleIn?_of_readRule (ruleNamed?_eq_some_iff.mp hnamed).2
      exact absurd (h.id_eq rule hnamed)
        (ne_of_lastRule?_eq_none hlast (hperm.mem_iff.mpr hname) hin)

/-! ## Look-ups against listings -/

/-- For well named identifiers a look-up finds the rules of a listing. -/
theorem Listing.find_eq {listed rules : List Rule} (h : s.Listing listed)
    (hnamed : ∀ id ∈ ids, s.WellNamed id) (hfind : s.find ids = .ok rules) :
    rules = listed.filter fun rule => rule.id ∈ ids := by
  obtain ⟨names, order, all, hnames, hperm, hcollect, rfl⟩ := h
  obtain ⟨t, ht, hget⟩ := exists_find_part hfind (List.Subset.refl ids)
  rw [hfind] at ht
  cases ht
  have heq : t = all.restrict ids := by
    refine Table.ext_get? fun key => ?_
    rw [hget, Table.get?_restrict]
    split
    next hmem =>
      rw [get?_collect hcollect, (hnamed key hmem).lastRule?_eq hnames hperm, Table.get?_empty,
        Option.or_none]
    next => rfl
  rw [heq, Table.values_restrict (id_eq_of_collect hcollect)]

/-- An identifier is well named if a look-up finds the rules of every listing. -/
theorem wellNamed_of_find {listed rules : List Rule} (hlisted : s.Listing listed)
    (hfind : s.find [id] = .ok rules)
    (h : ∀ listed, s.Listing listed → rules = listed.filter fun rule => rule.id ∈ [id]) :
    s.WellNamed id := by
  obtain ⟨t, ht, hget⟩ := exists_find_part hfind (List.Subset.refl [id])
  rw [hfind] at ht
  cases ht
  have hid : t.get? id = s.ruleNamed? id := by rw [hget, if_pos (by simp)]
  constructor
  · intro rule hnamed
    have hmem : rule ∈ t.values := Table.mem_values.mpr ⟨id, hid.trans hnamed⟩
    rw [h listed hlisted, List.mem_filter] at hmem
    simpa using hmem.2
  · intro names hnames name hname rule hin heq
    obtain ⟨listed', hlisted', hmem⟩ := exists_listing_of_ruleIn? hlisted hnames hname hin
    have hfound : rule ∈ t.values := by
      rw [h listed' hlisted', List.mem_filter]
      exact ⟨hmem, by simp [heq]⟩
    obtain ⟨key, hkey⟩ := Table.mem_values.mp hfound
    rw [hget] at hkey
    split at hkey
    next hsingle => rwa [List.mem_singleton.mp hsingle] at hkey
    next => cases hkey

end FolderStore

/-- In a folder where all rules can be listed and some identifiers looked up, these are well named
exactly if a look-up of any of them finds the rules of every listing that are asked for, in the
order of their identifiers. -/
theorem find_eq_filter_listing_iff {s : FolderStore} {ids : List String} {listed found : List Rule}
    (hrules : s.rules = .ok listed) (hfind : s.find ids = .ok found) :
    (∀ id ∈ ids, s.WellNamed id) ↔
      ∀ part, part ⊆ ids → ∃ found, s.find part = .ok found ∧
        ∀ listed, s.Listing listed →
          found = listed.filter (fun rule => rule.id ∈ part) ∧
            found.Pairwise fun a b => a.id < b.id := by
  constructor
  · intro hnamed part hpart
    obtain ⟨t, ht, -⟩ := FolderStore.exists_find_part hfind hpart
    refine ⟨t.values, ht, fun listed hlisted => ?_⟩
    have heq := hlisted.find_eq (fun id hid => hnamed id (hpart hid)) ht
    exact ⟨heq, heq ▸ hlisted.pairwise.filter _⟩
  · intro h id hid
    obtain ⟨rules, hrule, heq⟩ := h [id] (by simpa using hid)
    exact FolderStore.wellNamed_of_find (FolderStore.listing_rules hrules) hrule
      fun listed hlisted => (heq listed hlisted).1

/-- A folder with the file of a rule, a file that has been given another name, and notes. -/
def renamedFolder : FolderStore :=
  ⟨.folder [("rules", .folder [("a.yaml", .file "id: a\nexpression: x > 1\n".toUTF8),
    ("b.yaml", .file "# was c.yaml\nid: c\nexpression: x > 2\n".toUTF8),
    ("notes.txt", .file "id: a\nexpression: x > 3\n".toUTF8)])]⟩

/-- The file with another name does not matter to an identifier that is neither its name nor in
it. -/
theorem find_eq_filter_listing_iff_renamed :
    renamedFolder.rules = .ok [⟨"a", "x > 1"⟩, ⟨"c", "x > 2"⟩] ∧
    renamedFolder.find ["d", "a", "../b", "a"] = .ok [⟨"a", "x > 1"⟩] ∧
    ∀ part, part ⊆ ["d", "a", "../b", "a"] → ∃ found, renamedFolder.find part = .ok found ∧
      ∀ listed, renamedFolder.Listing listed →
        found = listed.filter (fun rule => rule.id ∈ part) ∧
          found.Pairwise fun a b => a.id < b.id := by
  have hrules : renamedFolder.rules = .ok [⟨"a", "x > 1"⟩, ⟨"c", "x > 2"⟩] := by decide +kernel
  have hfind : renamedFolder.find ["d", "a", "../b", "a"] = .ok [⟨"a", "x > 1"⟩] := by
    decide +kernel
  have hnamed : ∀ id ∈ ["d", "a", "../b", "a"], renamedFolder.WellNamed id := by decide +kernel
  exact ⟨hrules, hfind, (find_eq_filter_listing_iff hrules hfind).mp hnamed⟩

/-- A look-up finds a rule of another identifier. -/
theorem not_find_eq_filter_rules :
    ¬ ∀ (s : FolderStore) (ids : List String) (listed found : List Rule),
      s.rules = .ok listed → s.find ids = .ok found →
        found = listed.filter (fun rule => rule.id ∈ ids) ∧
          found.Pairwise fun a b => a.id < b.id := by
  intro h
  have hrules : renamedFolder.rules = .ok [⟨"a", "x > 1"⟩, ⟨"c", "x > 2"⟩] := by decide +kernel
  have hfind : renamedFolder.find ["b"] = .ok [⟨"c", "x > 2"⟩] := by decide +kernel
  exact absurd (h _ _ _ _ hrules hfind).1 (by decide)

end Rulebook
