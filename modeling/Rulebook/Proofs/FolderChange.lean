import Rulebook.Proofs.FolderLookup

/-!
# A change in the folder of the rules

An operation on one path of a tree leaves what is beside the path alone
(`Entry.find_of_alter`).  So two folders of rules that differ at one name only (`AlikeBut`)
are read alike at every other name, and a removal of another name leaves them alike.

What a listing, a look-up or a removal of all rules makes of a folder depends on the names
that it asks for, and on what it reads there (`collect_congr`, `lookUp_congr`,
`AlikeBut.removeFiles`).
-/

namespace Rulebook

open Entries (erase lookup put)

/-- Two results that a function makes equal are both errors, or both are not. -/
theorem exists_of_map_eq_map {ε α β : Type} {f : α → β} {x y : Except ε α}
    (h : y.map f = x.map f) : (∃ e, x = .error e ∧ y = .error e) ∨
      ∃ a b, x = .ok a ∧ y = .ok b ∧ f b = f a := by
  cases x with
  | error e =>
    cases y with
    | error e' => exact .inl ⟨e, rfl, congrArg Except.error (Except.error.inj h)⟩
    | ok b => cases h
  | ok a =>
    cases y with
    | error e' => cases h
    | ok b => exact .inr ⟨a, b, rfl, rfl, Except.ok.inj h⟩

/-! ## Entries -/

namespace Entries

variable {α : Type}

/-- What is put at a key is erased with it. -/
theorem erase_put (key : String) (value : α) (entries : List (String × α)) :
    erase key (put key value entries) = erase key entries := by
  induction entries with
  | nil => simp [put, erase]
  | cons e rest ih =>
    obtain ⟨k, v⟩ := e
    rw [put]
    split
    next => simp [erase]
    next =>
      split
      next heq => simp [erase, heq]
      next =>
        simp only [erase, List.filter_cons] at ih ⊢
        rw [ih]

theorem erase_erase (key key' : String) (entries : List (String × α)) :
    erase key (erase key' entries) = erase key' (erase key entries) :=
  List.filter_comm _ _ entries

theorem map_fst_erase (key : String) (entries : List (String × α)) :
    (erase key entries).map (·.1) = (entries.map (·.1)).filter (· != key) := by
  rw [erase, List.filter_map]
  rfl

/-- The entries with a value at a key, or with none there. -/
def update (key : String) : Option α → List (String × α) → List (String × α)
  | none, entries => erase key entries
  | some value, entries => put key value entries

theorem lookup_update (key key' : String) (value : Option α) (entries : List (String × α)) :
    lookup key' (update key value entries) = if key' = key then value else lookup key' entries := by
  cases value with
  | none => exact lookup_erase key key' entries
  | some value => exact lookup_put key key' value entries

theorem erase_update (key : String) (value : Option α) (entries : List (String × α)) :
    erase key (update key value entries) = erase key entries := by
  cases value with
  | none => exact List.filter_filter.trans (by simp [erase])
  | some value => exact erase_put key value entries

/-- The keys after an update. -/
theorem mem_keys_update (key key' : String) (value : Option α) (entries : List (String × α)) :
    key' ∈ (update key value entries).map (·.1) ↔
      if key' = key then value.isSome else key' ∈ entries.map (·.1) := by
  split
  next heq =>
    subst heq
    cases value with
    | none => simp [update, map_fst_erase]
    | some value =>
      have hlookup := lookup_update key' key' (some value) entries
      rw [if_pos rfl] at hlookup
      exact iff_of_true (List.mem_map.mpr ⟨_, mem_of_lookup hlookup, rfl⟩) rfl
  next hne =>
    -- apart from the key, the keys are as they were
    have herase := congrArg (fun es => key' ∈ es.map (·.1)) (erase_update key value entries)
    simpa [map_fst_erase, hne] using herase

end Entries

/-! ## One path of a tree -/

namespace Entry

variable {change : Option Entry → Except FileFault (Option Entry)} {path other : List String}
  {e : Entry}

/-- What is changed below a name of a folder takes the place of what was there. -/
theorem rebuild_folder (name : String) (path : List String) (entries : List (String × Entry)) :
    rebuild change (name :: path) (.folder entries) =
      if maxNameSize < name.utf8ByteSize then .error .longName
      else
        ((lookup name entries).elim (if path.isEmpty then change none else .error .missing)
          (rebuild change path)).map fun x => some (.folder (Entries.update name x entries)) := by
  rw [rebuild]
  split
  next => rfl
  next =>
    cases lookup name entries with
    | none =>
      dsimp only [Option.elim]
      rcases (if path.isEmpty then change none else .error .missing) with fault | _ | x <;> rfl
    | some inner =>
      dsimp only [Option.elim]
      rcases rebuild change path inner with fault | _ | x <;> rfl

theorem rebuild_name (name : String) (entries : List (String × Entry)) :
    rebuild change [name] (.folder entries) =
      if maxNameSize < name.utf8ByteSize then .error .longName
      else (change (lookup name entries)).map
        fun x => some (.folder (Entries.update name x entries)) := by
  rw [rebuild_folder]
  cases lookup name entries <;> rfl

theorem exists_of_rebuild {name : String} {e' : Option Entry}
    (h : rebuild change (name :: path) e = .ok e') : ∃ entries x, e = .folder entries ∧
      e' = some (.folder (Entries.update name x entries)) ∧
      (path ≠ [] → ∃ inner, lookup name entries = some inner ∧
        rebuild change path inner = .ok x) := by
  cases e with
  | file content => cases h
  | folder entries =>
    rw [rebuild_folder] at h
    split at h
    next => cases h
    next =>
      cases hinner : lookup name entries with
      | none =>
        rw [hinner] at h
        cases path with
        | nil =>
          cases hx : change none with
          | error fault =>
            rw [List.isEmpty_nil, if_pos rfl, hx] at h
            cases h
          | ok x =>
            rw [List.isEmpty_nil, if_pos rfl, hx] at h
            exact ⟨entries, x, rfl, (Except.ok.inj h).symm, fun hnil => absurd rfl hnil⟩
        | cons => cases h
      | some inner =>
        cases hx : rebuild change path inner with
        | error fault =>
          simp only [hinner, Option.elim_some, hx] at h
          cases h
        | ok x =>
          simp only [hinner, Option.elim_some, hx] at h
          exact ⟨entries, x, rfl, (Except.ok.inj h).symm, fun _ => ⟨inner, hinner, hx⟩⟩

/-- What is beside a path stays as it is. -/
theorem walk_of_rebuild {e' : Entry} (h : rebuild change path e = .ok (some e'))
    (hother : ¬ path <+: other) (hpath : ¬ other <+: path) : walk other e' = walk other e := by
  induction path generalizing e e' other with
  | nil => exact absurd List.nil_prefix hother
  | cons name path ih =>
    cases other with
    | nil => exact absurd List.nil_prefix hpath
    | cons name' other =>
      obtain ⟨entries, x, rfl, he', hx⟩ := exists_of_rebuild h
      cases he'
      rw [walk, walk, Entries.lookup_update]
      by_cases heq : name' = name
      · subst heq
        rw [List.prefix_cons_inj] at hother hpath
        rw [if_pos rfl]
        cases path with
        | nil => exact absurd List.nil_prefix hother
        | cons n path =>
          obtain ⟨inner, hinner, hx⟩ := hx (List.cons_ne_nil n path)
          obtain ⟨_, _, -, rfl, -⟩ := exists_of_rebuild hx
          rw [hinner]
          simp only [ih hx hother hpath]
      · rw [if_neg heq]

theorem rebuild_of_alter {root root' : Entry} (h : root.alter path change = .ok root')
    (hpath : path ≠ []) : hasZero path = false ∧ rebuild change path root = .ok (some root') := by
  rw [alter] at h
  split at h
  next => cases h
  next hzero =>
    refine ⟨Bool.not_eq_true _ ▸ hzero, ?_⟩
    cases hrebuild : rebuild change path root with
    | error fault =>
      rw [hrebuild] at h
      cases h
    | ok e' =>
      rw [hrebuild] at h
      obtain ⟨name, path, rfl⟩ := List.exists_cons_of_ne_nil hpath
      obtain ⟨_, _, -, rfl, -⟩ := exists_of_rebuild hrebuild
      cases h
      rfl

/-- A change at a path does not show beside it. -/
theorem find_of_alter {root root' : Entry} (h : root.alter path change = .ok root')
    (hother : ¬ path <+: other) (hpath : ¬ other <+: path) :
    root'.find other = root.find other := by
  have hnil : path ≠ [] := fun heq => hother (heq ▸ List.nil_prefix)
  rw [find, find, walk_of_rebuild (rebuild_of_alter h hnil).2 hother hpath]

end Entry

/-! ## The folder of the rules -/

namespace FolderStore

variable {s s' : FolderStore} {name name' id : String} {names ids : List String}
  {found : Table Rule}

/-- The entries of the folder of the rules. -/
def entries (s : FolderStore) : Except FileFault (List (String × Entry)) :=
  match s.root.find [rulesFolder] with
  | .error fault => .error fault
  | .ok (.file _) => .error .notFolder
  | .ok (.folder entries) => .ok entries

theorem entries_folder (top : List (String × Entry)) :
    (FolderStore.mk (.folder top)).entries =
      match lookup rulesFolder top with
      | none => .error .missing
      | some (.file _) => .error .notFolder
      | some (.folder entries) => .ok entries := by
  have hfolder := Nat.not_lt.mpr fits_rulesFolder.2
  rw [entries, Entry.find, fits_rulesFolder.1, Entry.walk, if_neg hfolder]
  rcases lookup rulesFolder top with _ | content | inner <;> rfl

theorem names_eq (s : FolderStore) :
    s.root.names [rulesFolder] = s.entries.map (List.map (·.1)) := by
  rw [Entry.names, entries]
  rcases s.root.find [rulesFolder] with fault | content | inner <;> rfl

theorem find_name (s : FolderStore) (name : String) :
    s.root.find [rulesFolder, name] =
      if Entry.hasZero [name] then .error .zeroInName
      else s.entries >>= fun entries => Entry.walk [name] (.folder entries) := by
  have hwalk : Entry.walk [rulesFolder, name] s.root =
      Entry.walk [rulesFolder] s.root >>= Entry.walk [name] := Entry.walk_append [rulesFolder] _ _
  rw [Entry.find, hasZero_rulesFolder, hwalk, entries, Entry.find, fits_rulesFolder.1]
  rcases Entry.walk [rulesFolder] s.root with fault | content | inner <;> rfl

/-- What a change of a name in the folder makes of its entries, and why it fails. -/
theorem map_entries_alter (s : FolderStore) (name : String)
    (change : Option Entry → Except FileFault (Option Entry)) :
    (s.root.alter [rulesFolder, name] change).map (fun root => (FolderStore.mk root).entries) =
      if Entry.hasZero [name] then .error .zeroInName
      else s.entries >>= fun entries =>
        if maxNameSize < name.utf8ByteSize then .error .longName
        else (change (lookup name entries)).map fun x => .ok (Entries.update name x entries) := by
  have hfolder := Nat.not_lt.mpr fits_rulesFolder.2
  obtain ⟨root⟩ := s
  rw [Entry.alter, hasZero_rulesFolder]
  split
  next => rfl
  next =>
    cases root with
    | file content => rfl
    | folder top =>
      rw [Entry.rebuild_folder, if_neg hfolder, entries_folder]
      rcases lookup rulesFolder top with _ | content | entries
      next => rfl
      next => rfl
      next =>
        simp only [Option.elim_some, Entry.rebuild_name, bind, Except.bind]
        by_cases hlong : maxNameSize < name.utf8ByteSize
        · simp only [if_pos hlong, Except.map]
        · simp only [if_neg hlong]
          cases change (lookup name entries) with
          | error fault => rfl
          | ok x => simp only [Except.map, entries_folder, Entries.lookup_update, if_true]

/-- A change of a name in the folder that goes well. -/
theorem entries_of_alter {change : Option Entry → Except FileFault (Option Entry)} {root : Entry}
    (h : s.root.alter [rulesFolder, name] change = .ok root) :
    Entry.Fits name ∧ ∃ entries x, s.entries = .ok entries ∧ change (lookup name entries) = .ok x ∧
      (FolderStore.mk root).entries = .ok (Entries.update name x entries) := by
  have heq := map_entries_alter s name change
  rw [h] at heq
  split at heq
  next => cases heq
  next hzero =>
    cases hentries : s.entries with
    | error fault =>
      rw [hentries] at heq
      cases heq
    | ok entries =>
      simp only [hentries, bind, Except.bind] at heq
      split at heq
      next => cases heq
      next hlong =>
        cases hx : change (lookup name entries) with
        | error fault =>
          rw [hx] at heq
          cases heq
        | ok x =>
          rw [hx] at heq
          exact ⟨⟨Bool.not_eq_true _ ▸ hzero, Nat.not_lt.mp hlong⟩, entries, x, rfl, hx,
            Except.ok.inj heq⟩

/-- What is found at a name that was changed, and which names are there then. -/
theorem exists_of_alter {change : Option Entry → Except FileFault (Option Entry)} {root : Entry}
    (h : s.root.alter [rulesFolder, name] change = .ok root) :
    ∃ old x names names', change old = .ok x ∧
      root.find [rulesFolder, name] = x.elim (.error .missing) .ok ∧
      s.root.names [rulesFolder] = .ok names ∧ root.names [rulesFolder] = .ok names' ∧
      ∀ other, other ∈ names' ↔ if other = name then x.isSome else other ∈ names := by
  obtain ⟨hfits, entries, x, hentries, hx, hroot⟩ := entries_of_alter h
  have hlong := Nat.not_lt.mpr hfits.2
  have hfind := (FolderStore.mk root).find_name name
  have hold := s.names_eq
  have hnew := (FolderStore.mk root).names_eq
  rw [hentries] at hold
  rw [hroot] at hfind hnew
  refine ⟨_, x, _, _, hx, hfind.trans ?_, hold, hnew,
    fun other => Entries.mem_keys_update name other x entries⟩
  simp only [hfits.1, bind, Except.bind, Entry.walk, Bool.false_eq_true, if_false, if_neg hlong,
    Entries.lookup_update, if_true]
  cases x <;> rfl

/-- What a write makes of the folder. -/
theorem exists_of_write {root : Entry} {content : ByteArray}
    (h : s.root.write [rulesFolder, name] content = .ok root) :
    root.find [rulesFolder, name] = .ok (.file content) ∧
      ∃ names names', s.root.names [rulesFolder] = .ok names ∧
        root.names [rulesFolder] = .ok names' ∧
        ∀ other, other ∈ names' ↔ other = name ∨ other ∈ names := by
  obtain ⟨old, x, names, names', hx, hfind, hold, hnew, hmem⟩ := exists_of_alter h
  have hx' : x = some (.file content) := by
    rcases old with _ | old | entries <;> cases hx <;> rfl
  subst hx'
  refine ⟨hfind, names, names', hold, hnew, fun other => (hmem other).trans ?_⟩
  by_cases heq : other = name <;> simp [heq]

/-- What a removal makes of the folder. -/
theorem exists_of_remove {root : Entry} (h : s.root.remove [rulesFolder, name] = .ok root) :
    root.find [rulesFolder, name] = .error .missing ∧
      ∃ names names', s.root.names [rulesFolder] = .ok names ∧
        root.names [rulesFolder] = .ok names' ∧
        ∀ other, other ∈ names' ↔ other ∈ names ∧ other ≠ name := by
  obtain ⟨old, x, names, names', hx, hfind, hold, hnew, hmem⟩ := exists_of_alter h
  have hx' : x = none := by
    rcases old with _ | old | entries <;> cases hx
    rfl
  subst hx'
  refine ⟨hfind, names, names', hold, hnew, fun other => (hmem other).trans ?_⟩
  by_cases heq : other = name <;> simp [heq]

theorem isRuleName_of_mem_ruleFiles (hnames : s.ruleFiles = .ok names) (hname : name ∈ names) :
    isRuleName name = true := by
  rw [ruleFiles] at hnames
  cases hall : s.root.names [rulesFolder] with
  | error fault => simp [hall] at hnames
  | ok all =>
    rw [hall] at hnames
    cases hnames
    exact (List.mem_filter.mp hname).2

/-! ## Folders that differ at one name -/

/-- Whether two folders of rules are alike but for a name. -/
def AlikeBut (name : String) (s s' : FolderStore) : Prop :=
  s'.entries.map (erase name) = s.entries.map (erase name)

theorem alikeBut_of_alter {change : Option Entry → Except FileFault (Option Entry)} {root : Entry}
    (h : s.root.alter [rulesFolder, name] change = .ok root) : AlikeBut name s ⟨root⟩ := by
  obtain ⟨-, entries, x, hentries, -, hroot⟩ := entries_of_alter h
  rw [AlikeBut, hentries, hroot]
  exact congrArg Except.ok (Entries.erase_update name x entries)

namespace AlikeBut

/-- Folders that are alike are there both, or cannot be read for the same reason. -/
theorem cases (h : AlikeBut name s s') :
    (∃ fault, s.entries = .error fault ∧ s'.entries = .error fault) ∨
      ∃ entries entries', s.entries = .ok entries ∧ s'.entries = .ok entries' ∧
        erase name entries' = erase name entries ∧
        ∀ other ≠ name, lookup other entries' = lookup other entries := by
  obtain hfault | ⟨entries, entries', hs, hs', herase⟩ := exists_of_map_eq_map h
  · exact .inl hfault
  · refine .inr ⟨entries, entries', hs, hs', herase, fun other hne => ?_⟩
    have hlookup := congrArg (lookup other) herase
    rwa [Entries.lookup_erase, if_neg hne, Entries.lookup_erase, if_neg hne] at hlookup

theorem find_eq (h : AlikeBut name s s') (hne : name' ≠ name) :
    s'.root.find [rulesFolder, name'] = s.root.find [rulesFolder, name'] := by
  rw [find_name, find_name]
  obtain ⟨fault, hs, hs'⟩ | ⟨entries, entries', hs, hs', -, hlookup⟩ := h.cases
  · rw [hs, hs']
  · simp only [hs, hs', bind, Except.bind, Entry.walk, hlookup name' hne]

theorem readRule_eq (h : AlikeBut name s s') (hne : name' ≠ name) :
    s'.readRule name' = s.readRule name' := by
  rw [readRule, readRule, Entry.readText, Entry.readText, Entry.read, Entry.read, h.find_eq hne]

theorem map_names (h : AlikeBut name s s') :
    (s'.root.names [rulesFolder]).map (List.filter (· != name)) =
      (s.root.names [rulesFolder]).map (List.filter (· != name)) := by
  rw [names_eq, names_eq]
  obtain ⟨fault, hs, hs'⟩ | ⟨entries, entries', hs, hs', herase, -⟩ := h.cases
  · rw [hs, hs']
  · have hnames := congrArg (List.map (·.1)) herase
    rw [Entries.map_fst_erase, Entries.map_fst_erase] at hnames
    rw [hs, hs']
    exact congrArg Except.ok hnames

/-- The names of rule files, but for one. -/
theorem map_ruleFiles (h : AlikeBut name s s') :
    s'.ruleFiles.map (List.filter (· != name)) = s.ruleFiles.map (List.filter (· != name)) := by
  rw [ruleFiles, ruleFiles]
  obtain ⟨fault, hs, hs'⟩ | ⟨old, new, hs, hs', heq⟩ := exists_of_map_eq_map h.map_names
  · rw [hs, hs']
  · simp only [hs, hs', Except.map]
    rw [List.filter_comm, heq, List.filter_comm]

/-- A name that is none of a rule file does not count in a listing. -/
theorem ruleFiles_eq (h : AlikeBut name s s') (hname : isRuleName name = false) :
    s'.ruleFiles = s.ruleFiles := by
  have hkept (t : FolderStore) : t.ruleFiles.map (List.filter (· != name)) = t.ruleFiles := by
    cases hfiles : t.ruleFiles with
    | error e => rfl
    | ok names =>
      refine congrArg Except.ok (List.filter_eq_self.mpr fun n hn => ?_)
      have hrule := isRuleName_of_mem_ruleFiles hfiles hn
      exact bne_iff_ne.mpr fun heq => by simp [heq, hname] at hrule
  rw [← hkept s, ← hkept s', h.map_ruleFiles]

/-- A removal of another name goes the same way in both folders, and leaves them alike. -/
theorem remove (h : AlikeBut name s s') (hne : name' ≠ name) :
    (∃ fault, s.root.remove [rulesFolder, name'] = .error fault ∧
      s'.root.remove [rulesFolder, name'] = .error fault) ∨
    ∃ root root', s.root.remove [rulesFolder, name'] = .ok root ∧
      s'.root.remove [rulesFolder, name'] = .ok root' ∧ AlikeBut name ⟨root⟩ ⟨root'⟩ := by
  have hentries (t : FolderStore) : (t.root.remove [rulesFolder, name']).map
      (fun root => (FolderStore.mk root).entries.map (erase name)) =
        ((t.root.remove [rulesFolder, name']).map fun root => (FolderStore.mk root).entries).map
          (Except.map (erase name)) := by
    cases t.root.remove [rulesFolder, name'] <;> rfl
  have hsame : (s'.root.remove [rulesFolder, name']).map
      (fun root => (FolderStore.mk root).entries.map (erase name)) =
        (s.root.remove [rulesFolder, name']).map
          fun root => (FolderStore.mk root).entries.map (erase name) := by
    rw [hentries, hentries, Entry.remove, Entry.remove, map_entries_alter, map_entries_alter]
    split
    next => rfl
    next =>
      obtain ⟨fault, hs, hs'⟩ | ⟨entries, entries', hs, hs', herase, hlookup⟩ := h.cases
      · rw [hs, hs']
      · simp only [hs, hs', bind, Except.bind, hlookup name' hne]
        split
        next => rfl
        next =>
          rcases lookup name' entries with _ | content | inner
          next => rfl
          next =>
            simp only [Except.map, Entries.update]
            rw [Entries.erase_erase, herase, Entries.erase_erase]
          next => rfl
  exact exists_of_map_eq_map hsame

theorem removeFiles (h : AlikeBut name s s') (removed : Nat) (hnames : name ∉ names) :
    (s'.removeFiles removed names).1 = (s.removeFiles removed names).1 := by
  induction names generalizing s s' removed with
  | nil => rfl
  | cons n names ih =>
    obtain ⟨hne, hrest⟩ := List.ne_and_not_mem_of_not_mem_cons hnames
    rw [FolderStore.removeFiles, FolderStore.removeFiles]
    obtain ⟨fault, hs, hs'⟩ | ⟨root, root', hs, hs', halike⟩ := h.remove (Ne.symm hne)
    · rw [hs, hs']
    · rw [hs, hs']
      exact ih halike (removed + 1) hrest

end AlikeBut

/-! ## What the operations read -/

/-- A collection reads the files that it is given. -/
theorem collect_congr (h : ∀ name ∈ names, s'.readRule name = s.readRule name) :
    s'.collect found names = s.collect found names := by
  induction names generalizing found with
  | nil => rfl
  | cons name names ih =>
    obtain ⟨hname, hnames⟩ := List.forall_mem_cons.mp h
    rw [collect, collect, hname]
    rcases s.readRule name with e | _ | rule
    · rfl
    · exact ih hnames
    · exact ih hnames

/-- A look-up reads the files of the identifiers that it is given. -/
theorem lookUp_congr
    (h : ∀ id ∈ ids, isValidId id = true → s'.readRule (ruleName id) = s.readRule (ruleName id)) :
    s'.lookUp found ids = s.lookUp found ids := by
  induction ids generalizing found with
  | nil => rfl
  | cons id ids ih =>
    obtain ⟨hid, hids⟩ := List.forall_mem_cons.mp h
    rw [lookUp_cons, lookUp_cons, ih hids]
    split
    next hnew =>
      rw [hid hnew.1]
      exact bind_congr fun rule? => ih hids
    next => rfl

theorem find_congr
    (h : ∀ id ∈ ids, isValidId id = true → s'.readRule (ruleName id) = s.readRule (ruleName id)) :
    s'.find ids = s.find ids := by
  rw [find, find, lookUp_congr h]

end FolderStore

end Rulebook
