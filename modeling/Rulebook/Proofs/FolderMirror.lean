import Mathlib.Data.Set.List
import Rulebook.Proofs.FolderLookup
import Rulebook.Store.Call

/-!
# Rules in a folder and rules in memory

A store in a folder and a store in memory give the same answers.  The table in memory says
what the files are: a folder *mirrors* a table of rules if it has the file of every rule,
named for its identifier, and no other file (`FolderStore.Mirrors`).

A folder is read in any order (`ReadOrder`), and rules are listed in order of their identifiers.
Even the order of names is another one: `a-b.yaml` is before `a.yaml`.  So the files are only a
permutation of the keys (`Tracks.keys_perm`).  But no name disagrees with what is in the file
(`Mirrors.wellNamed`), so a listing and a look-up both come to the rules of the table, in whatever
order the files are read (`Mirrors.rulesIn_eq`, `Mirrors.find_eq`).

Every call that the folder takes keeps the mirror and is answered as in memory
(`Mirrors.answerIn`).  A rule whose identifier cannot name a file is refused, and the folder
stays as it is.  So a whole run in a folder answers as the run in memory without the refused
calls (`folder_refines_memory`), also when the folder is opened again on the way, and when it is
read in another order at every call.
-/

namespace Rulebook

open Entry (Fits)
open FolderStore (draftName isValidId ruleName)

/-! ## What is taken for granted -/

/-- What has to be so that a rule can be kept in a folder: the names of its draft and of its file
can stand there, and the text of its file is read as the rule. -/
structure Rule.Savable (rule : Rule) : Prop where
  /-- The draft can be written. -/
  fits_draft : Fits (draftName rule.id)
  /-- The file can be written. -/
  fits_file : Fits (ruleName rule.id)
  /-- The file is read back. -/
  reads_back : Rule.ofFileText? rule.fileText = some rule

instance (rule : Rule) : Decidable rule.Savable :=
  decidable_of_iff
    (Fits (draftName rule.id) ∧ Fits (ruleName rule.id) ∧
      Rule.ofFileText? rule.fileText = some rule)
    ⟨fun ⟨hdraft, hfile, hread⟩ => ⟨hdraft, hfile, hread⟩,
      fun ⟨hdraft, hfile, hread⟩ => ⟨hdraft, hfile, hread⟩⟩

/-- Whether a call asks for nothing that a folder cannot do: the rule that it saves is savable, and
every identifier that it looks up names a file that can be there. -/
def StoreCall.Usable : StoreCall → Prop
  | .save rule => isValidId rule.id = true → rule.Savable
  | .find ids => ∀ id ∈ ids, isValidId id = true → Fits (ruleName id)
  | .rules | .clear | .reopen => True

instance (call : StoreCall) : Decidable call.Usable :=
  match call with
  | .save rule => inferInstanceAs (Decidable (isValidId rule.id = true → rule.Savable))
  | .find ids =>
      inferInstanceAs (Decidable (∀ id ∈ ids, isValidId id = true → Fits (ruleName id)))
  | .rules | .clear | .reopen => isTrue trivial

namespace FolderStore

/-! ## The files of a table of rules -/

/-- Whether files are the rules of a table, each in the file of its identifier, and nothing else. -/
structure Tracks (files : Table Entry) (rules : Table Rule) : Prop where
  /-- A file has the text of the rule of its name. -/
  get?_ruleName : ∀ id,
    files.get? (ruleName id) = (rules.get? id).map fun rule => .file rule.fileText.toUTF8
  /-- Every file has the name of a rule file. -/
  named : ∀ name, files.get? name ≠ none → ∃ id, name = ruleName id
  /-- Every rule stands at its own identifier and has been saved. -/
  saved : ∀ id rule, rules.get? id = some rule → rule.id = id ∧ isValidId id = true ∧ rule.Savable

namespace Tracks

variable {files : Table Entry} {rules : Table Rule}

theorem empty : Tracks Table.empty Table.empty where
  get?_ruleName _ := rfl
  named _ h := absurd rfl h
  saved _ _ h := by cases h

theorem insert (h : Tracks files rules) {rule : Rule} (hid : isValidId rule.id = true)
    (hrule : rule.Savable) :
    Tracks (files.update (ruleName rule.id) (some (.file rule.fileText.toUTF8)))
      (rules.insert rule.id rule) where
  get?_ruleName id := by
    rw [Table.get?_update, Table.get?_insert]
    by_cases heq : id = rule.id
    · simp [heq]
    · have hname : ruleName id ≠ ruleName rule.id := fun hname => heq (ruleName_injective hname)
      simp [heq, hname, h.get?_ruleName]
  named name hname := by
    rw [Table.get?_update] at hname
    split at hname
    next heq => exact ⟨rule.id, heq⟩
    next => exact h.named name hname
  saved id r hget := by
    rw [Table.get?_insert] at hget
    split at hget
    next heq =>
      cases hget
      exact ⟨heq.symm, heq ▸ hid, hrule⟩
    next => exact h.saved id r hget

/-- A file is that of a rule. -/
theorem exists_rule (h : Tracks files rules) {name : String} (hname : name ∈ files.keys) :
    ∃ rule, rules.get? rule.id = some rule ∧ name = ruleName rule.id := by
  obtain ⟨e, he⟩ := Table.mem_keys.mp hname
  obtain ⟨id, rfl⟩ := h.named name (by simp [he])
  rw [h.get?_ruleName, Option.map_eq_some_iff] at he
  obtain ⟨rule, hget, -⟩ := he
  obtain ⟨rfl, -, -⟩ := h.saved id rule hget
  exact ⟨rule, hget, rfl⟩

theorem fits (h : Tracks files rules) {name : String} (hname : name ∈ files.keys) : Fits name := by
  obtain ⟨rule, hget, rfl⟩ := h.exists_rule hname
  exact (h.saved _ _ hget).2.2.fits_file

/-- No draft is left. -/
theorem get?_draftName (h : Tracks files rules) (id : String) :
    files.get? (draftName id) = none := by
  by_contra hget
  have hmem : draftName id ∈ files.keys := Table.mem_keys.mpr (Option.ne_none_iff_exists'.mp hget)
  obtain ⟨rule, hrule, hname⟩ := h.exists_rule hmem
  exact draftName_ne_ruleName (h.saved _ _ hrule).2.1 hname

theorem not_folder (h : Tracks files rules) (id : String) (es : List (String × Entry)) :
    files.get? (ruleName id) ≠ some (.folder es) := by
  rw [h.get?_ruleName]
  cases rules.get? id with
  | none => simp
  | some rule => simp

/-- The files are those of the keys, in another order perhaps. -/
theorem keys_perm (h : Tracks files rules) :
    ∃ ids : List String, ids.Perm rules.keys ∧ files.keys = ids.map ruleName := by
  have hnamed : files.keys ∈ Set.range (List.map ruleName) := by
    rw [Set.range_list_map]
    intro name hname
    obtain ⟨rule, -, rfl⟩ := h.exists_rule hname
    exact ⟨rule.id, rfl⟩
  obtain ⟨ids, hids⟩ := hnamed
  refine ⟨ids, ?_, hids.symm⟩
  have hnodup : ids.Nodup := by
    have hkeys := files.nodup_keys
    rw [← hids] at hkeys
    exact hkeys.of_map
  rw [List.perm_ext_iff_of_nodup hnodup rules.nodup_keys]
  intro id
  calc id ∈ ids
    _ ↔ ruleName id ∈ files.keys := by rw [← hids, List.mem_map_of_injective ruleName_injective]
    _ ↔ ∃ e, files.get? (ruleName id) = some e := Table.mem_keys
    _ ↔ ∃ rule, rules.get? id = some rule := by simp [h.get?_ruleName]
    _ ↔ id ∈ rules.keys := Table.mem_keys.symm

theorem ruleFiles (h : Tracks files rules) {s : FolderStore} (hs : s.Holds files) :
    s.ruleFiles = .ok files.keys := by
  have hall : ∀ name ∈ files.keys, isRuleName name = true := by
    intro name hname
    obtain ⟨rule, hget, rfl⟩ := h.exists_rule hname
    exact isRuleName_ruleName (h.saved _ _ hget).2.1
  rw [FolderStore.ruleFiles, hs.names]
  simp only [List.filter_eq_self.mpr hall]

end Tracks

/-! ## The mirror -/

/-- Whether the rules in a folder are those of a table. -/
def Mirrors (s : FolderStore) (rules : Table Rule) : Prop :=
  ∃ files, s.Holds files ∧ Tracks files rules

namespace Mirrors

variable {s : FolderStore} {rules : Table Rule}

theorem open_empty : ∃ s, openAt Entry.empty = .ok s ∧ s.Mirrors Table.empty :=
  ⟨FolderStore.empty, rfl, Table.empty, ⟨_, rfl, rfl⟩, Tracks.empty⟩

theorem reopen (h : s.Mirrors rules) : ∃ s', openAt s.root = .ok s' ∧ s'.Mirrors rules := by
  obtain ⟨files, hfiles, htracks⟩ := h
  obtain ⟨s', hopen, hfiles'⟩ := hfiles.reopen
  exact ⟨s', hopen, files, hfiles', htracks⟩

theorem save (h : s.Mirrors rules) {rule : Rule} (hid : isValidId rule.id = true)
    (hrule : rule.Savable) :
    ∃ s', s.save rule = (.ok (), s') ∧ s'.Mirrors (rules.insert rule.id rule) := by
  obtain ⟨files, hfiles, htracks⟩ := h
  obtain ⟨s', hsave, hfiles'⟩ := hfiles.save hid hrule.fits_draft hrule.fits_file
    (htracks.get?_draftName rule.id) (htracks.not_folder rule.id)
  exact ⟨s', hsave, _, hfiles', htracks.insert hid hrule⟩

theorem readRule (h : s.Mirrors rules) {id : String} (hname : Fits (ruleName id)) :
    s.readRule (ruleName id) = .ok (rules.get? id) := by
  obtain ⟨files, hfiles, htracks⟩ := h
  have hfile := htracks.get?_ruleName id
  cases hget : rules.get? id with
  | none =>
    rw [hget] at hfile
    exact hfiles.readRule_of_missing hname hfile
  | some rule =>
    rw [hget] at hfile
    rw [hfiles.readRule_of_text hname hfile, (htracks.saved id rule hget).2.2.reads_back]

theorem saved (h : s.Mirrors rules) {id : String} {rule : Rule} (hget : rules.get? id = some rule) :
    rule.id = id ∧ isValidId id = true ∧ rule.Savable := by
  obtain ⟨files, -, htracks⟩ := h
  exact htracks.saved id rule hget

/-- A file that is there is read as the rule that it is named for. -/
theorem exists_readRule (h : s.Mirrors rules) :
    ∃ names, s.ruleFiles = .ok names ∧ ∀ name ∈ names, ∃ rule : Rule,
      rules.get? rule.id = some rule ∧ name = ruleName rule.id ∧
        s.readRule name = .ok (some rule) := by
  obtain ⟨files, hfiles, htracks⟩ := id h
  refine ⟨files.keys, htracks.ruleFiles hfiles, fun name hname => ?_⟩
  obtain ⟨rule, hget, rfl⟩ := htracks.exists_rule hname
  exact ⟨rule, hget, rfl, (h.readRule (h.saved hget).2.2.fits_file).trans (by rw [hget])⟩

/-- No name disagrees with what is in the file. -/
theorem wellNamed (h : s.Mirrors rules) (id : String) : s.WellNamed id := by
  obtain ⟨names, hnames, hfiles⟩ := h.exists_readRule
  refine wellNamed_of_ruleName hnames (fun name hname rule hin => ?_) id
  obtain ⟨rule', hget, hrule, hread⟩ := hfiles name hname
  rw [ruleIn?_of_readRule hread] at hin
  cases hin
  exact ⟨(h.saved hget).2.1, hrule⟩

theorem ruleNamed?_eq (h : s.Mirrors rules) (id : String) : s.ruleNamed? id = rules.get? id := by
  cases hget : rules.get? id with
  | some rule =>
    obtain ⟨rfl, hid, hsavable⟩ := h.saved hget
    exact ruleNamed?_eq_some_iff.mpr ⟨hid, (h.readRule hsavable.fits_file).trans (by rw [hget])⟩
  | none =>
    cases hnamed : s.ruleNamed? id with
    | none => rfl
    | some rule =>
      obtain ⟨names, hnames, hfiles⟩ := h.exists_readRule
      obtain ⟨rule', hget', hname, -⟩ := hfiles _ (mem_ruleFiles_of_ruleNamed? hnames hnamed)
      rw [← ruleName_injective hname, hget] at hget'
      cases hget'

theorem rulesIn_eq (h : s.Mirrors rules) (order : ReadOrder String) :
    s.rulesIn order = .ok rules.values := by
  obtain ⟨names, hnames, hfiles⟩ := h.exists_readRule
  have hperm := order.perm_arrange names
  obtain ⟨t, ht⟩ : ∃ t, s.collect Table.empty (order.arrange names) = .ok t := by
    refine exists_collect_iff.mpr fun name hname => ?_
    obtain ⟨rule, -, -, hread⟩ := hfiles name (hperm.mem_iff.mp hname)
    exact ⟨some rule, hread⟩
  have heq : t = rules := by
    refine Table.ext_get? fun key => ?_
    rw [get?_collect ht, (h.wellNamed key).lastRule?_eq hnames hperm, h.ruleNamed?_eq,
      Table.get?_empty, Option.or_none]
  exact rulesIn_eq_ok_iff.mpr ⟨names, t, hnames, ht, by rw [heq]⟩

theorem find_eq (h : s.Mirrors rules) {ids : List String}
    (hids : ∀ id ∈ ids, isValidId id = true → Fits (ruleName id)) :
    s.find ids = .ok (rules.restrict ids).values := by
  obtain ⟨t, ht⟩ : ∃ t, s.lookUp Table.empty ids = .ok t :=
    exists_lookUp_iff.mpr fun id hid hnew => ⟨_, h.readRule (hids id hid hnew.1)⟩
  have heq : t = rules.restrict ids := by
    refine Table.ext_get? fun key => ?_
    rw [get?_lookUp ht, Table.get?_restrict, Table.get?_empty, Option.none_or, h.ruleNamed?_eq]
  exact find_eq_ok_iff.mpr ⟨t, ht, by rw [heq]⟩

theorem clearIn (h : s.Mirrors rules) (order : ReadOrder String) :
    ∃ s', s.clearIn order = (.ok rules.size, s') ∧ s'.Mirrors Table.empty := by
  obtain ⟨files, hfiles, htracks⟩ := h
  obtain ⟨ids, hperm, hkeys⟩ := htracks.keys_perm
  have horder := order.perm_arrange files.keys
  have hnames : ∀ name ∈ order.arrange files.keys,
      Fits name ∧ ∃ content, files.get? name = some (.file content) := by
    intro name hname
    have hmem := horder.mem_iff.mp hname
    refine ⟨htracks.fits hmem, ?_⟩
    obtain ⟨rule, hget, rfl⟩ := htracks.exists_rule hmem
    exact ⟨_, by rw [htracks.get?_ruleName, hget, Option.map_some]⟩
  obtain ⟨s', left, hrun, hleft, hget⟩ :=
    hfiles.removeFiles (horder.nodup_iff.mpr files.nodup_keys) hnames 0
  have hempty : left = Table.empty := by
    refine Table.ext_get? fun key => ?_
    rw [hget, Table.get?_empty]
    split
    next => rfl
    next hmem =>
      rw [horder.mem_iff, Table.mem_keys, not_exists] at hmem
      exact Option.eq_none_iff_forall_ne_some.mpr hmem
  have hsize : (order.arrange files.keys).length = rules.size := by
    rw [horder.length_eq, hkeys, List.length_map, hperm.length_eq, Table.length_keys]
  refine ⟨s', ?_, left, hleft, hempty ▸ Tracks.empty⟩
  rw [FolderStore.clearIn, htracks.ruleFiles hfiles]
  simp only [hrun, hsize, Nat.zero_add]

/-- A call that is not refused is answered as in memory, and the folder goes on to mirror. -/
theorem answerIn {m : MemoryStore} (h : s.Mirrors m.rules) (order : ReadOrder String)
    {call : StoreCall} (hcall : call.Usable) (haccepted : call.isRefused = false) :
    (s.answerIn order call).1 = (m.answer call).1 ∧
      (s.answerIn order call).2.Mirrors (m.answer call).2.rules := by
  cases call with
  | save rule =>
    have hid : isValidId rule.id = true := by simpa [StoreCall.isRefused] using haccepted
    obtain ⟨s', hsave, hs'⟩ := h.save hid (hcall hid)
    have hanswer : s.answerIn order (.save rule) = (.saved (.ok ()), s') := by
      simp only [FolderStore.answerIn, FolderStore.answer, Repository.answer, Repository.save,
        hsave]
    rw [hanswer]
    exact ⟨rfl, hs'⟩
  | rules =>
    have hanswer : s.answerIn order .rules = (.listed (.ok m.rules.values), s) := by
      simp only [FolderStore.answerIn, h.rulesIn_eq]
    rw [hanswer]
    exact ⟨rfl, h⟩
  | find ids =>
    have hanswer : s.answerIn order (.find ids) =
        (.found (.ok (m.rules.restrict ids).values), s) := by
      simp only [FolderStore.answerIn, FolderStore.answer, Repository.answer, Repository.find,
        h.find_eq hcall]
    rw [hanswer]
    exact ⟨rfl, h⟩
  | clear =>
    obtain ⟨s', hclear, hs'⟩ := h.clearIn order
    have hanswer : s.answerIn order .clear = (.cleared (.ok m.rules.size), s') := by
      simp only [FolderStore.answerIn, hclear]
    rw [hanswer]
    exact ⟨rfl, hs'⟩
  | reopen =>
    obtain ⟨s', hopen, hs'⟩ := h.reopen
    have hanswer : s.answerIn order .reopen = (.opened (.ok ()), s') := by
      simp only [FolderStore.answerIn, FolderStore.answer, Repository.answer, hopen]
    rw [hanswer]
    exact ⟨rfl, hs'⟩

end Mirrors

/-- A rule whose identifier cannot name a file is refused, and the folder stays as it is. -/
theorem answerIn_of_not_isValidId (order : ReadOrder String) (s : FolderStore) {rule : Rule}
    (hid : isValidId rule.id = false) :
    s.answerIn order (.save rule) = (.saved (.error (.invalidId rule.id)), s) := by
  simp only [answerIn, answer, Repository.answer, Repository.save, save, hid, Bool.not_false,
    if_true]

theorem answerIn_of_isRefused (order : ReadOrder String) (s : FolderStore) {call : StoreCall}
    (h : call.isRefused = true) : (s.answerIn order call).2 = s := by
  cases call with
  | save rule =>
    have hid : isValidId rule.id = false := by simpa [StoreCall.isRefused] using h
    rw [s.answerIn_of_not_isValidId order hid]
  | rules | find | clear | reopen => cases h

end FolderStore

/-- A store in a folder that was empty answers every call as a store in memory does, when the calls
that it refuses are left out; and these change nothing.  The folder is read in an order of its own
at every call. -/
theorem folder_refines_memory (capacity : Nat) {calls : List (StoreCall × ReadOrder String)}
    (hcalls : ∀ c ∈ calls, c.1.Usable) :
    ∃ s, FolderStore.openAt Entry.empty = .ok s ∧
      (Run.transcript (fun s c => FolderStore.answerIn c.2 s c.1) s calls).filter
          (fun e => !e.1.1.isRefused) =
        Run.transcript (fun m c => MemoryStore.answer m c.1) (MemoryStore.empty capacity)
          (calls.filter fun c => !c.1.isRefused) ∧
      ∀ (s' : FolderStore) (order : ReadOrder String) (rule : Rule), isValidId rule.id = false →
        s'.answerIn order (.save rule) = (.saved (.error (.invalidId rule.id)), s') := by
  obtain ⟨s, hopen, hs⟩ := FolderStore.Mirrors.open_empty
  refine ⟨s, hopen, ?_, fun s' order rule hid => s'.answerIn_of_not_isValidId order hid⟩
  have hmirrors : s.Mirrors (MemoryStore.empty capacity).rules := hs
  refine Run.transcript_filter
    (R := fun (s : FolderStore) (m : MemoryStore) => s.Mirrors m.rules)
    (p := fun c : StoreCall × ReadOrder String => !c.1.isRefused) ?_ ?_ hmirrors
  · intro s m c hc haccepted h
    exact h.answerIn c.2 (hcalls c hc) (by simpa using haccepted)
  · intro s c hrefused
    exact s.answerIn_of_isRefused c.2 (by simpa using hrefused)

/-- A rule replaces another, one is refused, the folder is opened again, and it is read from the
last name to the first. -/
theorem folder_refines_memory_reopen :
    ∃ s, FolderStore.openAt Entry.empty = .ok s ∧
      ((Run.transcript (fun s c => FolderStore.answerIn c.2 s c.1) s
          ([.save ⟨"a", "x > 1"⟩, .save ⟨"../a", "x > 2"⟩, .save ⟨"a", "x > 3"⟩, .reopen,
            .save ⟨"a-b", "y > 1"⟩, .find ["b", "../a", "a", "a"], .rules, .clear, .rules].map
              fun call => (call, ⟨List.reverse, List.reverse_perm⟩))).filter
          (fun e => !e.1.1.isRefused)).map (fun e => (e.1.1, e.2)) =
        [(.save ⟨"a", "x > 1"⟩, .saved (.ok ())), (.save ⟨"a", "x > 3"⟩, .saved (.ok ())),
          (.reopen, .opened (.ok ())), (.save ⟨"a-b", "y > 1"⟩, .saved (.ok ())),
          (.find ["b", "../a", "a", "a"], .found (.ok [⟨"a", "x > 3"⟩])),
          (.rules, .listed (.ok [⟨"a", "x > 3"⟩, ⟨"a-b", "y > 1"⟩])),
          (.clear, .cleared (.ok 2)), (.rules, .listed (.ok []))] := by
  have hcalls : ∀ c ∈ [.save ⟨"a", "x > 1"⟩, .save ⟨"../a", "x > 2"⟩, .save ⟨"a", "x > 3"⟩,
      .reopen, .save ⟨"a-b", "y > 1"⟩, .find ["b", "../a", "a", "a"], .rules, .clear,
      .rules].map fun call : StoreCall =>
        ((call, ⟨List.reverse, List.reverse_perm⟩) : StoreCall × ReadOrder String), c.1.Usable := by
    decide +kernel
  obtain ⟨s, hopen, hrun, -⟩ := folder_refines_memory 0 hcalls
  exact ⟨s, hopen, (congrArg (List.map fun e => (e.1.1, e.2)) hrun).trans rfl⟩

end Rulebook
