import Mathlib.Data.List.Basic
import Rulebook.Proofs.TableParts
import Rulebook.Store.FolderStore

/-!
# The folder of the rules

A store in a folder looks at one folder only for its rules.  `FolderStore.Holds` says what is
in it: a table of entries.  What stands beside that folder does not count.

Every operation on a file of the folder is an operation on the table.  A file is read by a
look-up, a write inserts, a removal erases, and a draft that is published is gone from the
table (`Holds.save`).  Nothing fails on its way as long as the names fit into the folder
(`Entry.Fits`) and no folder stands where a file is expected.
-/

namespace Rulebook

open Entries (lookup put)

/-- Whether a name can stand in a folder: it has no zero character and not too many bytes. -/
def Entry.Fits (name : String) : Prop :=
  Entry.hasZero [name] = false ∧ name.utf8ByteSize ≤ maxNameSize

instance (name : String) : Decidable (Entry.Fits name) := inferInstanceAs (Decidable (_ ∧ _))

theorem fromUTF8?_toUTF8 (text : String) : String.fromUTF8? text.toUTF8 = some text := by
  have hvalid : text.toUTF8.IsValidUTF8 := text.isValidUTF8
  rw [String.fromUTF8?, dif_pos hvalid]
  rfl

namespace FolderStore

open Entry (Fits)

/-! ## Names -/

theorem fits_rulesFolder : Fits rulesFolder := by decide +kernel

theorem hasZero_rulesFolder (name : String) :
    Entry.hasZero [rulesFolder, name] = Entry.hasZero [name] := by
  have h := fits_rulesFolder.1
  simp only [Entry.hasZero, List.any_cons, List.any_nil, Bool.or_false] at h ⊢
  rw [h, Bool.false_or]

theorem ruleName_injective : Function.Injective ruleName := by
  intro a b h
  have hlist := congrArg String.toList h
  simp only [ruleName, String.toList_append] at hlist
  exact String.toList_inj.mp (List.append_cancel_right hlist)

/-- A valid identifier begins with something that is no dot. -/
theorem exists_cons_of_isValidId {id : String} (h : isValidId id = true) :
    ∃ c cs, id.toList = c :: cs ∧ c ≠ '.' := by
  rw [isValidId, Bool.and_eq_true, Bool.and_eq_true] at h
  cases hid : id.toList with
  | nil =>
    rw [hid] at h
    exact absurd h.1.1 (by decide)
  | cons c cs =>
    rw [hid] at h
    exact ⟨c, cs, rfl, by simpa using h.1.2⟩

theorem isRuleName_ruleName {id : String} (h : isValidId id = true) :
    isRuleName (ruleName id) = true := by
  obtain ⟨c, cs, hid, -⟩ := exists_cons_of_isValidId h
  simp only [isRuleName, ruleName, String.toList_append, Bool.and_eq_true, decide_eq_true_eq,
    List.length_append, List.isSuffixOf_iff_suffix]
  refine ⟨List.suffix_append _ _, ?_⟩
  simp [hid]

/-- A draft begins with a dot, and no identifier does. -/
theorem draftName_ne_ruleName {id id' : String} (h : isValidId id' = true) :
    draftName id ≠ ruleName id' := by
  intro heq
  obtain ⟨c, cs, hid, hc⟩ := exists_cons_of_isValidId h
  have hlist := congrArg String.toList heq
  simp only [draftName, ruleName, String.toList_append, hid, List.append_assoc,
    List.cons_append] at hlist
  exact hc (List.cons.inj hlist).1.symm

/-! ## Entries -/

/-- Whether the folder of the rules has the given entries. -/
def Holds (s : FolderStore) (files : Table Entry) : Prop :=
  ∃ top, s.root = .folder top ∧ lookup rulesFolder top = some (.folder files.entries)

theorem holds_put (files : Table Entry) (top : List (String × Entry)) :
    (FolderStore.mk (.folder (put rulesFolder (.folder files.entries) top))).Holds files :=
  ⟨_, rfl, by rw [Entries.lookup_put, if_pos rfl]⟩

namespace Holds

variable {s : FolderStore} {files : Table Entry} {name : String} {content : ByteArray}

theorem walk (h : s.Holds files) (path : List String) :
    Entry.walk (rulesFolder :: path) s.root = Entry.walk path (.folder files.entries) := by
  obtain ⟨top, hroot, htop⟩ := h
  have hfolder := Nat.not_lt.mpr fits_rulesFolder.2
  rw [hroot, Entry.walk, if_neg hfolder, htop]

theorem find_name (h : s.Holds files) (hname : Fits name) :
    s.root.find [rulesFolder, name] =
      match files.get? name with
      | none => .error .missing
      | some e => .ok e := by
  have hlong := Nat.not_lt.mpr hname.2
  rw [Entry.find, hasZero_rulesFolder, hname.1, h.walk, Entry.walk, if_neg hlong]
  rfl

theorem names (h : s.Holds files) : s.root.names [rulesFolder] = .ok files.keys := by
  rw [Entry.names, Entry.find, fits_rulesFolder.1, h.walk]
  rfl

theorem reopen (h : s.Holds files) :
    ∃ s', openAt s.root = .ok s' ∧ s'.Holds files := by
  obtain ⟨top, hroot, htop⟩ := h
  have hfolder := Nat.not_lt.mpr fits_rulesFolder.2
  refine ⟨_, ?_, holds_put files top⟩
  rw [openAt, Entry.makeFolder, Entry.alter, fits_rulesFolder.1, hroot]
  simp only [Bool.false_eq_true, if_false, Entry.rebuild, if_neg hfolder, htop]

theorem read (h : s.Holds files) (hname : Fits name)
    (hfile : files.get? name = some (.file content)) :
    s.root.read [rulesFolder, name] = .ok content := by
  rw [Entry.read, h.find_name hname, hfile]

/-- A text that was written is read. -/
theorem readRule_of_text (h : s.Holds files) (hname : Fits name) {text : String}
    (hfile : files.get? name = some (.file text.toUTF8)) :
    s.readRule name = .ok (Rule.ofFileText? text) := by
  rw [readRule, Entry.readText, h.read hname hfile]
  simp only [fromUTF8?_toUTF8]

theorem readRule_of_missing (h : s.Holds files) (hname : Fits name)
    (hfile : files.get? name = none) : s.readRule name = .ok none := by
  rw [readRule, Entry.readText, Entry.read, h.find_name hname, hfile]

/-! ## Changes -/

theorem alter (h : s.Holds files) (hname : Fits name) {e : Option Entry}
    {change : Option Entry → Except FileFault (Option Entry)}
    (hchange : change (files.get? name) = .ok e) :
    ∃ root, s.root.alter [rulesFolder, name] change = .ok root ∧
      (FolderStore.mk root).Holds (files.update name e) := by
  obtain ⟨top, hroot, htop⟩ := h
  have hfolder := Nat.not_lt.mpr fits_rulesFolder.2
  have hlong := Nat.not_lt.mpr hname.2
  refine ⟨_, ?_, holds_put (files.update name e) top⟩
  rw [Table.get?] at hchange
  rw [Entry.alter, hasZero_rulesFolder, hname.1, hroot]
  simp only [Bool.false_eq_true, if_false, Entry.rebuild, if_neg hfolder, htop, if_neg hlong]
  cases hold : lookup name files.entries with
  | none =>
    rw [hold] at hchange
    simp only [List.isEmpty_nil, if_true, hchange]
    cases e with
    | none => rfl
    | some e => rfl
  | some old =>
    rw [hold] at hchange
    simp only [hchange]
    cases e with
    | none => rfl
    | some e => rfl

theorem write (h : s.Holds files) (hname : Fits name)
    (hfile : ∀ es, files.get? name ≠ some (.folder es)) (content : ByteArray) :
    ∃ root, s.root.write [rulesFolder, name] content = .ok root ∧
      (FolderStore.mk root).Holds (files.update name (some (.file content))) := by
  refine h.alter hname ?_
  cases hold : files.get? name with
  | none => rfl
  | some e =>
    cases e with
    | file old => rfl
    | folder es => exact absurd hold (hfile es)

theorem remove (h : s.Holds files) (hname : Fits name)
    (hfile : files.get? name = some (.file content)) :
    ∃ root, s.root.remove [rulesFolder, name] = .ok root ∧
      (FolderStore.mk root).Holds (files.update name none) := by
  refine h.alter hname ?_
  rw [hfile]

/-- A file takes another name, and what had that name is gone. -/
theorem rename (h : s.Holds files) {old new : String} (hold : Fits old) (hnew : Fits new)
    (hne : old ≠ new) (hfile : files.get? old = some (.file content))
    (htarget : ∀ es, files.get? new ≠ some (.folder es)) :
    ∃ root, s.root.rename [rulesFolder] old new = .ok root ∧
      (FolderStore.mk root).Holds ((files.update new (some (.file content))).update old none) := by
  obtain ⟨written, hwrite, hwritten⟩ := h.write hnew htarget content
  have hkept : (files.update new (some (.file content))).get? old = some (.file content) := by
    rw [Table.get?_update, if_neg hne, hfile]
  obtain ⟨removed, hremove, hremoved⟩ := hwritten.remove hold hkept
  refine ⟨removed, ?_, hremoved⟩
  rw [Entry.rename, List.singleton_append, h.read hold hfile]
  simp only [List.singleton_append, hwrite, if_neg hne, hremove]

/-- Files are removed one after another, and every other entry stays. -/
theorem removeFiles (h : s.Holds files) {names : List String} (hnodup : names.Nodup)
    (hnames : ∀ name ∈ names, Fits name ∧ ∃ content, files.get? name = some (.file content))
    (removed : Nat) :
    ∃ s' left, s.removeFiles removed names = (.ok (removed + names.length), s') ∧
      s'.Holds left ∧ ∀ key, left.get? key = if key ∈ names then none else files.get? key := by
  induction names generalizing s files removed with
  | nil => exact ⟨s, files, rfl, h, fun key => by simp⟩
  | cons name names ih =>
    obtain ⟨hmem, hnodup⟩ := List.nodup_cons.mp hnodup
    obtain ⟨hname, content, hfile⟩ := hnames name (by simp)
    obtain ⟨root, hremove, hroot⟩ := h.remove hname hfile
    have hrest : ∀ n ∈ names, Fits n ∧
        ∃ content, (files.update name none).get? n = some (.file content) := by
      intro n hn
      obtain ⟨hfits, content, hget⟩ := hnames n (by simp [hn])
      have hne : n ≠ name := by
        rintro rfl
        exact hmem hn
      exact ⟨hfits, content, by rw [Table.get?_update, if_neg hne, hget]⟩
    obtain ⟨s', left, hrun, hleft, hget⟩ := ih hroot hnodup hrest (removed + 1)
    refine ⟨s', left, ?_, hleft, fun key => ?_⟩
    · rw [FolderStore.removeFiles, hremove]
      simp only [hrun, List.length_cons]
      rw [Nat.add_assoc, Nat.add_comm 1]
    · rw [hget, Table.get?_update]
      by_cases heq : key = name <;> by_cases hn : key ∈ names <;> simp [heq, hn]

/-- A rule that is saved is in its file, and its draft is gone. -/
theorem save (h : s.Holds files) {rule : Rule} (hid : isValidId rule.id = true)
    (hdraft : Fits (draftName rule.id)) (hname : Fits (ruleName rule.id))
    (hfresh : files.get? (draftName rule.id) = none)
    (hfile : ∀ es, files.get? (ruleName rule.id) ≠ some (.folder es)) :
    ∃ s', s.save rule = (.ok (), s') ∧
      s'.Holds (files.update (ruleName rule.id) (some (.file rule.fileText.toUTF8))) := by
  have hne : draftName rule.id ≠ ruleName rule.id := draftName_ne_ruleName hid
  have hfile' : ∀ es, files.get? (draftName rule.id) ≠ some (.folder es) := by simp [hfresh]
  obtain ⟨drafted, hwrite, hdrafted⟩ := h.write hdraft hfile' rule.fileText.toUTF8
  obtain ⟨saved, hrename, hsaved⟩ := hdrafted.rename hdraft hname hne
    (by rw [Table.get?_update, if_pos rfl])
    (by rwa [Table.get?_update, if_neg hne.symm])
  have hsave : s.draft rule.id rule.fileText.toUTF8 = .ok ⟨drafted⟩ := by
    rw [draft, hwrite, Except.map]
  have hpublish : (FolderStore.mk drafted).publish rule.id = .ok ⟨saved⟩ := by
    rw [publish, hrename, Except.map]
  refine ⟨⟨saved⟩, ?_, ?_⟩
  · rw [FolderStore.save, hid]
    simp only [Bool.not_true, Bool.false_eq_true, if_false, hsave, hpublish]
  · convert hsaved using 1
    refine Table.ext_get? fun key => ?_
    simp only [Table.get?_update]
    split
    next heq => rw [if_neg (heq ▸ hne.symm)]
    next =>
      split
      next heq => rw [heq, hfresh]
      next => rfl

end Holds

end FolderStore

end Rulebook
