import Rulebook.Proofs.FolderChange

/-!
# Foreign files in the folder of the rules

A file that somebody else puts among the rules, and that holds none (`FolderStore.ForeignFile`),
is passed over if it is a text: a listing and every look-up give the rules that they gave before.

Bytes that are no text are not passed over.  Reading them is a fault, and it stops whoever reads
the file.  So a listing fails if the file has the name of a rule file, and a look-up fails if one
of its identifiers names the file (`rules_and_find_of_foreignFile`).
-/

namespace Rulebook.FolderStore

variable {s s' : FolderStore} {name : String} {content : ByteArray} {names order ids : List String}
  {found : Table Rule} {e : StoreError}

/-- A new file among the rules that holds no rule. -/
structure ForeignFile (s : FolderStore) (name : String) (content : ByteArray) (s' : FolderStore) :
    Prop where
  /-- The name is new. -/
  fresh : s.root.find [rulesFolder, name] = .error .missing
  /-- The file is written. -/
  written : s.root.write [rulesFolder, name] content = .ok s'.root
  /-- The bytes are no text, or a text that is none of a rule. -/
  noRule : ∀ text, String.fromUTF8? content = some text → Rule.ofFileText? text = none

namespace ForeignFile

theorem alikeBut (h : ForeignFile s name content s') : AlikeBut name s s' :=
  alikeBut_of_alter h.written

theorem readRule_before (h : ForeignFile s name content s') : s.readRule name = .ok none := by
  rw [readRule, Entry.readText, Entry.read, h.fresh]

/-- A file that is a text is read, and it has no rule. -/
theorem readRule_of_text (h : ForeignFile s name content s') {text : String}
    (htext : String.fromUTF8? content = some text) : s'.readRule name = .ok none := by
  rw [readRule, Entry.readText, Entry.read, (exists_of_write h.written).1]
  simp only [htext, h.noRule text htext]

/-- A file that is no text is not read. -/
theorem readRule_of_notText (h : ForeignFile s name content s')
    (htext : String.fromUTF8? content = none) : s'.readRule name = .error (.io .notText) := by
  rw [readRule, Entry.readText, Entry.read, (exists_of_write h.written).1]
  simp only [htext]

/-- The file is there for a listing if it has the name of a rule file. -/
theorem exists_ruleFiles (h : ForeignFile s name content s') (hnames : s.ruleFiles = .ok names) :
    ∃ names', s'.ruleFiles = .ok names' ∧
      ∀ other, other ∈ names' ↔ other = name ∧ isRuleName name = true ∨ other ∈ names := by
  obtain ⟨-, all, all', hall, hall', hmem⟩ := exists_of_write h.written
  rw [ruleFiles, hall] at hnames
  cases hnames
  refine ⟨all'.filter isRuleName, by rw [ruleFiles, hall'], fun other => ?_⟩
  rw [List.mem_filter, List.mem_filter, hmem]
  constructor
  · rintro ⟨rfl | hold, hrule⟩
    · exact .inl ⟨rfl, hrule⟩
    · exact .inr ⟨hold, hrule⟩
  · rintro (⟨rfl, hrule⟩ | ⟨hold, hrule⟩)
    · exact ⟨.inl rfl, hrule⟩
    · exact ⟨.inr hold, hrule⟩

end ForeignFile

/-! ## Files without a rule -/

/-- A file without a rule does not count. -/
theorem collect_filter (h : s.readRule name = .ok none) :
    s.collect found (names.filter (· != name)) = s.collect found names := by
  induction names generalizing found with
  | nil => rfl
  | cons n names ih =>
    by_cases heq : n = name
    · rw [List.filter_cons_of_neg (by simp [heq]), ih, collect, heq, h]
    · rw [List.filter_cons_of_pos (by simpa using heq), collect, collect]
      rcases s.readRule n with e | _ | rule
      · rfl
      · exact ih
      · exact ih

/-- Files that a folder has beside another one do not count if they have no rule. -/
theorem collect_of_alikeBut (h : AlikeBut name s s') (hs : s.readRule name = .ok none)
    (hs' : s'.readRule name = .ok none) : s'.collect found names = s.collect found names := by
  refine collect_congr fun n _ => ?_
  by_cases heq : n = name
  · rw [heq, hs, hs']
  · exact h.readRule_eq heq

theorem rules_of_alikeBut (h : AlikeBut name s s') (hs : s.readRule name = .ok none)
    (hs' : s'.readRule name = .ok none) : s'.rules = s.rules := by
  rw [rules, rules, rulesIn, rulesIn]
  obtain ⟨e, hfiles, hfiles'⟩ | ⟨names, names', hfiles, hfiles', heq⟩ :=
    exists_of_map_eq_map h.map_ruleFiles
  · rw [hfiles, hfiles']
  · simp only [hfiles, hfiles', ReadOrder.arrange_given]
    rw [← collect_filter hs', ← collect_filter hs, heq, collect_of_alikeBut h hs hs']

theorem listing_of_alikeBut (h : AlikeBut name s s') (hs : s.readRule name = .ok none)
    (hs' : s'.readRule name = .ok none) {listed : List Rule} (hlisted : s.Listing listed) :
    s'.Listing listed := by
  obtain ⟨names, order, t, hfiles, hperm, hcollect, hlisted⟩ := hlisted
  obtain ⟨e, hfiles', -⟩ | ⟨names', new, hfiles', hnew, heq⟩ :=
    exists_of_map_eq_map h.map_ruleFiles
  · simp [hfiles] at hfiles'
  · rw [hfiles] at hfiles'
    cases hfiles'
    -- the other files in their order, and what has the name behind them
    refine ⟨new, order.filter (· != name) ++ new.filter (! · != name), t, hnew, ?_, ?_, hlisted⟩
    · refine List.Perm.trans ?_ (List.filter_append_perm (· != name) new)
      exact (heq ▸ hperm.filter _).append_right _
    · have hfilter : (order.filter (· != name) ++ new.filter (! · != name)).filter (· != name) =
          order.filter (· != name) := by
        simp [List.filter_append, List.filter_filter]
      rw [← collect_filter hs', hfilter, collect_filter hs', collect_of_alikeBut h hs hs', hcollect]

/-! ## Files that are no text -/

/-- One file that cannot be read stops a listing. -/
theorem collect_eq_error (hother : ∀ n ∈ names, n ≠ name → ∃ rule?, s.readRule n = .ok rule?)
    (herror : s.readRule name = .error e) (hname : name ∈ names) :
    s.collect found names = .error e := by
  induction names generalizing found with
  | nil => cases hname
  | cons n names ih =>
    obtain ⟨hn, hother⟩ := List.forall_mem_cons.mp hother
    rw [collect]
    by_cases heq : n = name
    · rw [heq, herror]
    · obtain ⟨rule?, hread⟩ := hn heq
      have hrest {found : Table Rule} : s.collect found names = .error e :=
        ih hother ((List.mem_cons.mp hname).resolve_left (Ne.symm heq))
      rw [hread]
      cases rule? with
      | none => exact hrest
      | some rule => exact hrest

/-- One file that cannot be read stops a look-up. -/
theorem lookUp_eq_error {id : String}
    (hother : ∀ id' ∈ ids, isValidId id' = true → id' ≠ id →
      ∃ rule?, s.readRule (ruleName id') = .ok rule?)
    (herror : s.readRule (ruleName id) = .error e) (hid : id ∈ ids) (hvalid : isValidId id = true)
    (hnew : found.get? id = none) : s.lookUp found ids = .error e := by
  induction ids generalizing found with
  | nil => cases hid
  | cons id' ids ih =>
    obtain ⟨hread, hother⟩ := List.forall_mem_cons.mp hother
    rw [lookUp_cons]
    by_cases heq : id' = id
    · rw [heq, if_pos ⟨hvalid, hnew⟩, herror]
      rfl
    · have hid := (List.mem_cons.mp hid).resolve_left (Ne.symm heq)
      split
      next hnew' =>
        obtain ⟨rule?, hread⟩ := hread hnew'.1 heq
        rw [hread]
        refine ih hother hid ?_
        rw [Table.get?_insert?, if_neg (Ne.symm heq), hnew]
      next => exact ih hother hid hnew

/-! ## Foreign files -/

namespace ForeignFile

theorem rules_of_notText (h : ForeignFile s name content s')
    (htext : String.fromUTF8? content = none) {listed : List Rule} (hrules : s.rules = .ok listed) :
    s'.rules = if isRuleName name then .error (.io .notText) else .ok listed := by
  obtain ⟨names, t, hnames, hcollect, rfl⟩ := rules_eq_ok_iff.mp hrules
  split
  next hname =>
    obtain ⟨names', hnames', hmem⟩ := h.exists_ruleFiles hnames
    have hother : ∀ n ∈ names', n ≠ name → ∃ rule?, s'.readRule n = .ok rule? := by
      intro n hn hne
      have hold : n ∈ names := ((hmem n).mp hn).resolve_left fun hnew => hne hnew.1
      rw [h.alikeBut.readRule_eq hne]
      exact exists_collect_iff.mp ⟨t, hcollect⟩ n hold
    have hnew : name ∈ names' := (hmem name).mpr (.inl ⟨rfl, hname⟩)
    rw [rules, rulesIn, hnames']
    simp only [ReadOrder.arrange_given, collect_eq_error hother (h.readRule_of_notText htext) hnew]
    rfl
  next hname =>
    have hfiles := h.alikeBut.ruleFiles_eq (Bool.not_eq_true _ ▸ hname)
    have hread : ∀ n ∈ names, s'.readRule n = s.readRule n := by
      intro n hn
      refine h.alikeBut.readRule_eq ?_
      rintro rfl
      exact hname (isRuleName_of_mem_ruleFiles hnames hn)
    rw [rules, rulesIn, hfiles, hnames]
    simp only [ReadOrder.arrange_given, collect_congr hread, hcollect]
    rfl

theorem find_of_notText (h : ForeignFile s name content s')
    (htext : String.fromUTF8? content = none) {found : List Rule} (hfind : s.find ids = .ok found) :
    s'.find ids =
      if ∃ id ∈ ids, isValidId id = true ∧ ruleName id = name then .error (.io .notText)
      else .ok found := by
  split
  next hnamed =>
    obtain ⟨id, hid, hvalid, rfl⟩ := hnamed
    obtain ⟨t, hlookUp, -⟩ := find_eq_ok_iff.mp hfind
    have hother : ∀ id' ∈ ids, isValidId id' = true → id' ≠ id →
        ∃ rule?, s'.readRule (ruleName id') = .ok rule? := by
      intro id' hid' hvalid' hne
      rw [h.alikeBut.readRule_eq fun heq => hne (ruleName_injective heq)]
      exact exists_lookUp_iff.mp ⟨t, hlookUp⟩ id' hid' ⟨hvalid', Table.get?_empty id'⟩
    rw [find, lookUp_eq_error hother (h.readRule_of_notText htext) hid hvalid (Table.get?_empty id)]
    rfl
  next hnamed =>
    rw [← hfind]
    refine find_congr fun id hid hvalid => h.alikeBut.readRule_eq fun heq => ?_
    exact hnamed ⟨id, hid, hvalid, heq⟩

end ForeignFile

/-- A foreign file that is a text is passed over.  One that is no text makes a listing fail if it
has the name of a rule file, and a look-up if an identifier names it. -/
theorem rules_and_find_of_foreignFile {s s' : FolderStore} {name : String} {content : ByteArray}
    {listed : List Rule} (h : ForeignFile s name content s') (hrules : s.rules = .ok listed) :
    (∀ text, String.fromUTF8? content = some text →
      s'.rules = .ok listed ∧ (∀ other, s'.Listing other ↔ s.Listing other) ∧
      ∀ ids, s'.find ids = s.find ids) ∧
    (String.fromUTF8? content = none →
      s'.rules = (if isRuleName name then .error (.io .notText) else .ok listed) ∧
      ∀ ids found, s.find ids = .ok found →
        s'.find ids =
          if ∃ id ∈ ids, isValidId id = true ∧ ruleName id = name then .error (.io .notText)
          else .ok found) := by
  refine ⟨fun text htext => ?_, fun htext => ⟨h.rules_of_notText htext hrules, fun ids found =>
    h.find_of_notText htext⟩⟩
  have halike := h.alikeBut
  have hbefore := h.readRule_before
  have hafter := h.readRule_of_text htext
  refine ⟨?_, fun other => ⟨?_, ?_⟩, fun ids => find_congr fun id _ _ => ?_⟩
  · rw [rules_of_alikeBut halike hbefore hafter, hrules]
  · exact listing_of_alikeBut halike.symm hafter hbefore
  · exact listing_of_alikeBut halike hbefore hafter
  · by_cases heq : ruleName id = name
    · rw [heq, hbefore, hafter]
    · exact halike.readRule_eq heq

/-- A folder with one rule. -/
def oneRuleFolder : FolderStore :=
  ⟨.folder [("rules", .folder [("a.yaml", .file "id: a\nexpression: x > 1\n".toUTF8)])]⟩

theorem rules_oneRuleFolder : oneRuleFolder.rules = .ok [⟨"a", "x > 1"⟩] := by decide +kernel

/-- A byte that is no text. -/
def noText : ByteArray := ⟨#[0xff]⟩

theorem fromUTF8?_noText : String.fromUTF8? noText = none := by decide +kernel

theorem exists_foreignFile_noText : ∃ s', ForeignFile oneRuleFolder "b.yaml" noText s' := by
  have hok : (oneRuleFolder.root.write [rulesFolder, "b.yaml"] noText).isOk = true := by
    decide +kernel
  cases hwrite : oneRuleFolder.root.write [rulesFolder, "b.yaml"] noText with
  | error fault =>
    rw [hwrite] at hok
    cases hok
  | ok root =>
    refine ⟨⟨root⟩, by rfl, hwrite, fun text htext => ?_⟩
    rw [fromUTF8?_noText] at htext
    cases htext

/-- A byte that is no text hides the rule beside it from a listing, and from a look-up that reads
it. -/
theorem rules_and_find_of_foreignFile_noText :
    oneRuleFolder.rules = .ok [⟨"a", "x > 1"⟩] ∧
    ∃ s', ForeignFile oneRuleFolder "b.yaml" noText s' ∧
      s'.rules = .error (.io .notText) ∧ s'.find ["a"] = .ok [⟨"a", "x > 1"⟩] ∧
      s'.find ["a", "b"] = .error (.io .notText) := by
  have hfind : oneRuleFolder.find ["a"] = .ok [⟨"a", "x > 1"⟩] := by decide +kernel
  have hfind' : oneRuleFolder.find ["a", "b"] = .ok [⟨"a", "x > 1"⟩] := by decide +kernel
  obtain ⟨s', h⟩ := exists_foreignFile_noText
  obtain ⟨hlisted, hfound⟩ :=
    (rules_and_find_of_foreignFile h rules_oneRuleFolder).2 fromUTF8?_noText
  refine ⟨rules_oneRuleFolder, s', h, hlisted.trans ?_, (hfound _ _ hfind).trans ?_,
    (hfound _ _ hfind').trans ?_⟩
  · rw [if_pos (by decide +kernel)]
  · rw [if_neg (by decide +kernel)]
  · rw [if_pos (by decide +kernel)]

/-- A foreign file may hide the rules beside it. -/
theorem not_rules_and_find_of_foreignFile :
    ¬ ∀ (s s' : FolderStore) (name : String) (content : ByteArray) (listed : List Rule),
      ".yaml".toList <:+ name.toList → ForeignFile s name content s' → s.rules = .ok listed →
        s'.rules = .ok listed ∧
        ∀ ids found, s.find ids = .ok found → s'.find ids = .ok found := by
  intro hclaim
  obtain ⟨s', h⟩ := exists_foreignFile_noText
  have hlisted := h.rules_of_notText fromUTF8?_noText rules_oneRuleFolder
  rw [if_pos (by decide +kernel)] at hlisted
  have hsame := (hclaim _ _ _ _ _ (by decide) h rules_oneRuleFolder).1
  rw [hlisted] at hsame
  cases hsame

end Rulebook.FolderStore
