import Rulebook.Proofs.FolderChange

/-!
# Saves that stop on their way

A save writes a draft of the rule, and then gives the draft the name of the file.  It may stop
before the draft is there, while some of its bytes are, or before it has its name
(`FolderStore.Stopped`).  Nobody sees that: a draft is no rule file, so a listing and a removal
pass over it, and it has the name of no identifier (`FolderStore.LooksLike`).

A save that goes well leaves no draft, and changes one file (`FolderStore.Replaced`).  That holds
in every folder, also in one with a draft that an earlier save left.
-/

namespace Rulebook.FolderStore

variable {s s' : FolderStore} {name id : String} {rule : Rule} {content : ByteArray}

/-- What a save may leave if it stops on its way. -/
inductive Stopped (s : FolderStore) (id : String) : FolderStore → Prop where
  /-- Nothing is written. -/
  | before : Stopped s id s
  /-- The draft is there, with all of its bytes or with others. -/
  | drafted {s' : FolderStore} (content : ByteArray) : s.draft id content = .ok s' → Stopped s id s'

/-- Whether two folders give the same answers to those who list rules, look them up or remove them,
in whatever order they read the files. -/
structure LooksLike (s s' : FolderStore) : Prop where
  /-- The same rules are listed, or the listing fails for the same reason. -/
  rules : ∀ order, s'.rulesIn order = s.rulesIn order
  /-- The same lists of rules may come out. -/
  listing : ∀ listed, s'.Listing listed ↔ s.Listing listed
  /-- The same rules are found. -/
  find : ∀ ids, s'.find ids = s.find ids
  /-- As many files are removed. -/
  clear : ∀ order, (s'.clearIn order).1 = (s.clearIn order).1

/-- What a save has done at its end. -/
structure Replaced (s : FolderStore) (rule : Rule) (s' : FolderStore) : Prop where
  /-- There is no draft. -/
  draft : s'.root.find [rulesFolder, draftName rule.id] = .error .missing
  /-- The file has the text of the rule. -/
  file : s'.root.read [rulesFolder, ruleName rule.id] = .ok rule.fileText.toUTF8
  /-- What is neither in these two files nor above them is as it was. -/
  elsewhere : ∀ path, ¬ path <+: [rulesFolder] →
    ¬ [rulesFolder, draftName rule.id] <+: path → ¬ [rulesFolder, ruleName rule.id] <+: path →
      s'.root.find path = s.root.find path
  /-- No other name is new in the folder, and none is missing. -/
  names : ∃ old new, s.root.names [rulesFolder] = .ok old ∧ s'.root.names [rulesFolder] = .ok new ∧
    ∀ name, name ∈ new ↔ name = ruleName rule.id ∨ name ∈ old ∧ name ≠ draftName rule.id
  /-- What other identifiers find is as it was. -/
  find : ∀ ids, rule.id ∉ ids → s'.find ids = s.find ids

/-! ## Drafts -/

/-- A draft is no rule file. -/
theorem isRuleName_draftName (id : String) : isRuleName (draftName id) = false := by
  have hdraft : ".yaml.tmp".toList <:+ (draftName id).toList := by
    rw [draftName, String.toList_append]
    exact List.suffix_append _ _
  rw [isRuleName, Bool.and_eq_false_imp]
  intro hsuffix
  have h := List.suffix_of_suffix_length_le (List.isSuffixOf_iff_suffix.mp hsuffix) hdraft
    (by decide)
  exact absurd h (by decide)

theorem write_of_draft (h : s.draft id content = .ok s') :
    s.root.write [rulesFolder, draftName id] content = .ok s'.root := by
  rw [draft] at h
  cases hwrite : s.root.write [rulesFolder, draftName id] content with
  | error fault => simp [hwrite, Except.map] at h
  | ok root =>
    rw [hwrite] at h
    cases h
    rfl

/-- A draft is published by a write and a removal. -/
theorem exists_of_publish (hid : isValidId id = true) (h : s.publish id = .ok s') :
    ∃ content root, s.root.read [rulesFolder, draftName id] = .ok content ∧
      s.root.write [rulesFolder, ruleName id] content = .ok root ∧
      root.remove [rulesFolder, draftName id] = .ok s'.root := by
  rw [publish, Entry.rename, List.singleton_append, List.singleton_append] at h
  cases hread : s.root.read [rulesFolder, draftName id] with
  | error fault => simp [hread, Except.map] at h
  | ok content =>
    simp only [hread, if_neg (draftName_ne_ruleName hid)] at h
    cases hwrite : s.root.write [rulesFolder, ruleName id] content with
    | error fault => simp [hwrite, Except.map] at h
    | ok root =>
      simp only [hwrite] at h
      cases hremove : root.remove [rulesFolder, draftName id] with
      | error fault => simp [hremove, Except.map] at h
      | ok root' =>
        rw [hremove] at h
        cases h
        exact ⟨content, root, rfl, hwrite, hremove⟩

/-! ## What is seen -/

/-- Folders that differ at a draft look alike. -/
theorem looksLike_of_alikeBut (h : AlikeBut (draftName id) s s') : s.LooksLike s' := by
  have hfiles : s'.ruleFiles = s.ruleFiles := h.ruleFiles_eq (isRuleName_draftName id)
  have hne {names : List String} (hnames : s.ruleFiles = .ok names) {name : String}
      (hname : name ∈ names) : name ≠ draftName id := by
    rintro rfl
    simpa [isRuleName_draftName] using isRuleName_of_mem_ruleFiles hnames hname
  have hcollect {names order : List String} (hnames : s.ruleFiles = .ok names)
      (horder : order ⊆ names) :
      s'.collect Table.empty order = s.collect Table.empty order :=
    collect_congr fun name hname => h.readRule_eq (hne hnames (horder hname))
  constructor
  · intro order
    rw [rulesIn, rulesIn, hfiles]
    cases hnames : s.ruleFiles with
    | error e => rfl
    | ok names => simp only [hcollect hnames (order.perm_arrange names).subset]
  · intro listed
    rw [Listing, Listing, hfiles]
    refine exists_congr fun names => exists_congr fun order => exists_congr fun t => ?_
    refine and_congr_right fun hnames => and_congr_right fun hperm => ?_
    rw [hcollect hnames hperm.subset]
  · intro ids
    exact find_congr fun id' _ hid => h.readRule_eq (draftName_ne_ruleName hid).symm
  · intro order
    rw [clearIn, clearIn, hfiles]
    cases hnames : s.ruleFiles with
    | error e => rfl
    | ok names =>
      exact h.removeFiles 0 fun hname => hne hnames (order.mem_arrange.mp hname) rfl

theorem Stopped.looksLike (h : s.Stopped id s') : s.LooksLike s' := by
  cases h with
  | before => exact ⟨fun _ => rfl, fun _ => .rfl, fun _ => rfl, fun _ => rfl⟩
  | drafted content hdraft =>
    exact looksLike_of_alikeBut (alikeBut_of_alter (write_of_draft hdraft))

/-! ## What is done -/

/-- A draft that has become the file. -/
theorem replaced_of_publish {drafted : FolderStore} (hid : isValidId rule.id = true)
    (hdraft : s.draft rule.id rule.fileText.toUTF8 = .ok drafted)
    (hpublish : drafted.publish rule.id = .ok s') : s.Replaced rule s' := by
  have hdraft := write_of_draft hdraft
  obtain ⟨content, root, hread, hwrite, hremove⟩ := exists_of_publish hid hpublish
  obtain ⟨hdraftFile, old, names₁, hold, hnames₁, hmem₁⟩ := exists_of_write hdraft
  obtain ⟨hfile, _, names₂, hnames₁', hnames₂, hmem₂⟩ := exists_of_write hwrite
  obtain ⟨hgone, _, new, hnames₂', hnew, hmem⟩ := exists_of_remove (s := ⟨root⟩) hremove
  cases hnames₁.symm.trans hnames₁'
  cases hnames₂.symm.trans hnames₂'
  have hcontent : content = rule.fileText.toUTF8 := by
    rw [Entry.read, hdraftFile] at hread
    exact (Except.ok.inj hread).symm
  have hne : draftName rule.id ≠ ruleName rule.id := draftName_ne_ruleName hid
  have hdrafted : AlikeBut (draftName rule.id) s drafted := alikeBut_of_alter hdraft
  have hwritten : AlikeBut (ruleName rule.id) drafted ⟨root⟩ := alikeBut_of_alter hwrite
  have hremoved : AlikeBut (draftName rule.id) ⟨root⟩ s' := alikeBut_of_alter hremove
  constructor
  · exact hgone
  · rw [Entry.read, hremoved.find_eq hne.symm, hfile, hcontent]
  · intro path habove hatDraft hatFile
    -- a path above one of the two files is the file itself or above the folder
    have hbeside {name : String} (hat : ¬ [rulesFolder, name] <+: path) :
        ¬ path <+: [rulesFolder] ++ [name] := by
      intro hprefix
      obtain heq | hprefix := List.prefix_concat_iff.mp hprefix
      · exact hat (heq ▸ List.prefix_rfl)
      · exact habove hprefix
    exact (Entry.find_of_alter hremove hatDraft (hbeside hatDraft)).trans
      ((Entry.find_of_alter hwrite hatFile (hbeside hatFile)).trans
        (Entry.find_of_alter hdraft hatDraft (hbeside hatDraft)))
  · refine ⟨old, new, hold, hnew, fun name => ?_⟩
    rw [hmem, hmem₂, hmem₁]
    grind
  · intro ids hids
    refine find_congr fun id hmem hvalid => ?_
    have hfile : ruleName id ≠ ruleName rule.id := fun heq => hids (ruleName_injective heq ▸ hmem)
    have hdraft : ruleName id ≠ draftName rule.id := (draftName_ne_ruleName hvalid).symm
    rw [hremoved.readRule_eq hdraft, hwritten.readRule_eq hfile, hdrafted.readRule_eq hdraft]

/-- A save of a rule that stops on its way shows to nobody.  One that fails has stopped on its way,
and one that goes well has replaced the file of the rule and nothing else. -/
theorem looksLike_or_replaced_save (s : FolderStore) (rule : Rule)
    (hid : isValidId rule.id = true) :
    (∀ s', s.Stopped rule.id s' → s.LooksLike s') ∧
      match s.save rule with
      | (.error _, s') => s.Stopped rule.id s'
      | (.ok (), s') => s.Replaced rule s' := by
  refine ⟨fun s' => Stopped.looksLike, ?_⟩
  rw [save, hid]
  cases hdraft : s.draft rule.id rule.fileText.toUTF8 with
  | error fault => exact .before
  | ok drafted =>
    cases hpublish : drafted.publish rule.id with
    | error fault =>
      simp only [hpublish]
      exact .drafted _ hdraft
    | ok saved =>
      simp only [hpublish]
      exact replaced_of_publish hid hdraft hpublish

/-- A folder with two rules, and the first bytes of a draft for one of them. -/
def draftedFolder : FolderStore :=
  ⟨.folder [("rules", .folder [(".a.yaml.tmp", .file "id: a\nexpr".toUTF8),
    ("a.yaml", .file "id: a\nexpression: x > 1\n".toUTF8),
    ("b.yaml", .file "id: b\nexpression: x > 2\n".toUTF8)])]⟩

/-- Another save of the rule may stop with other bytes in the draft, or go well. -/
theorem looksLike_or_replaced_save_drafted :
    isValidId "a" = true ∧
    (∃ s', draftedFolder.Stopped "a" s' ∧
      s'.root.read [rulesFolder, draftName "a"] = .ok "id".toUTF8) ∧
    (∀ s', draftedFolder.Stopped "a" s' → draftedFolder.LooksLike s') ∧
    ∃ s', draftedFolder.save ⟨"a", "x > 3"⟩ = (.ok (), s') ∧
      draftedFolder.Replaced ⟨"a", "x > 3"⟩ s' := by
  have hid : isValidId "a" = true := by decide +kernel
  obtain ⟨hstopped, hsave⟩ := looksLike_or_replaced_save draftedFolder ⟨"a", "x > 3"⟩ hid
  refine ⟨hid, ?_, hstopped, ?_⟩
  · cases hdraft : draftedFolder.draft "a" "id".toUTF8 with
    | error fault =>
      have hok : (draftedFolder.draft "a" "id".toUTF8).isOk = true := by decide +kernel
      rw [hdraft] at hok
      cases hok
    | ok s' =>
      refine ⟨s', .drafted _ hdraft, ?_⟩
      rw [Entry.read, (exists_of_write (write_of_draft hdraft)).1]
  · have hok : (draftedFolder.save ⟨"a", "x > 3"⟩).1 = .ok () := by decide +kernel
    cases hsaved : draftedFolder.save ⟨"a", "x > 3"⟩ with
    | mk outcome s' =>
      rw [hsaved] at hok hsave
      cases hok
      exact ⟨s', rfl, hsave⟩

end Rulebook.FolderStore
