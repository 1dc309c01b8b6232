import Rulebook.Proofs.FolderChange
import Rulebook.Proofs.WrittenLine
import Rulebook.Run

/-!
# The file of the evaluations

A store in a folder that takes an evaluation into its journal adds a line at the end of one
file, which is made if it is not there (`HasLines.append`).  So the lines that are there stay as
they are, and whatever evaluations are noted, the file has one line for each of them in order
(`HasLines.notesAll`).

Every line is a text of its evaluation, and read as such it gives the evaluation back
(`lines_of_records`).  Only a double that is not read back from its own text comes back as
another one.
-/

namespace Rulebook

open Entries (lookup)

namespace FolderStore

open Entry (Fits)

variable {s s' : FolderStore} {lines : List (List Char)} {cs : List Char} {e : Evaluation}
  {es : List Evaluation}

/-! ## Lines -/

/-- The text of lines, each with the character that ends it. -/
def textOf (lines : List (List Char)) : String := String.ofList (lines.flatMap (· ++ ['\n']))

theorem toUTF8_textOf_append (lines others : List (List Char)) :
    (textOf (lines ++ others)).toUTF8 = (textOf lines).toUTF8 ++ (textOf others).toUTF8 := by
  rw [textOf, List.flatMap_append, String.ofList_append]
  exact String.toByteArray_append

/-- Whether the file of the evaluations has certain lines.  Without lines there is no file. -/
def HasLines (s : FolderStore) (lines : List (List Char)) : Prop :=
  if lines = [] then s.root.find [journalFile] = .error .missing
  else s.root.read [journalFile] = .ok (textOf lines).toUTF8

theorem fits_journalFile : Fits journalFile := by decide +kernel

theorem find_journalFile (top : List (String × Entry)) :
    (Entry.folder top).find [journalFile] =
      match lookup journalFile top with
      | none => .error .missing
      | some e => .ok e := by
  have hlong := Nat.not_lt.mpr fits_journalFile.2
  rw [Entry.find, fits_journalFile.1, Entry.walk, if_neg hlong]
  rfl

/-- The lines are in an entry of the folder of the store. -/
theorem hasLines_iff : s.HasLines lines ↔ ∃ top, s.root = .folder top ∧
    lookup journalFile top =
      if lines = [] then none else some (.file (textOf lines).toUTF8) := by
  obtain ⟨root⟩ := s
  cases root with
  | file content =>
    have hfind : (Entry.file content).find [journalFile] = .error .notFolder := by
      rw [Entry.find, fits_journalFile.1]
      rfl
    constructor
    · intro h
      rw [HasLines, Entry.read, hfind] at h
      split at h <;> cases h
    · rintro ⟨top, hroot, -⟩
      cases hroot
  | folder top =>
    have htop : ∀ x, (∃ top', Entry.folder top = .folder top' ∧ lookup journalFile top' = x) ↔
        lookup journalFile top = x := by
      intro x
      constructor
      · rintro ⟨top', hroot, h⟩
        cases hroot
        exact h
      · exact fun h => ⟨top, rfl, h⟩
    rw [htop, HasLines, Entry.read, find_journalFile]
    rcases lookup journalFile top with _ | content | entries
    all_goals by_cases hnil : lines = [] <;> simp [hnil]

/-- A line is added at the end. -/
theorem HasLines.append (h : s.HasLines lines) (cs : List Char) :
    ∃ root, s.root.append [journalFile] (textOf [cs]).toUTF8 = .ok root ∧
      HasLines ⟨root⟩ (lines ++ [cs]) := by
  have hlong := Nat.not_lt.mpr fits_journalFile.2
  obtain ⟨top, hroot, htop⟩ := hasLines_iff.mp h
  refine ⟨.folder (Entries.update journalFile
    (some (.file (textOf (lines ++ [cs])).toUTF8)) top), ?_, hasLines_iff.mpr ⟨_, rfl, ?_⟩⟩
  · rw [Entry.append, Entry.alter, fits_journalFile.1, hroot, Entry.rebuild_name, if_neg hlong,
      htop]
    by_cases hnil : lines = []
    · rw [if_pos hnil, hnil, List.nil_append]
      rfl
    · rw [if_neg hnil, toUTF8_textOf_append]
      rfl
  · rw [Entries.lookup_update, if_pos rfl, if_neg (by simp)]

/-! ## Evaluations -/

/-- Whether a store becomes another one when it takes an evaluation into its journal.  The fields of
the record may be written in any order. -/
def Notes (s : FolderStore) (e : Evaluation) (s' : FolderStore) : Prop :=
  ∃ cs, e.Writes cs ∧ s.root.append [journalFile] (textOf [cs]).toUTF8 = .ok s'.root

/-- Whether a store becomes another one when it takes evaluations into its journal one after the
other. -/
def NotesAll (s : FolderStore) : List Evaluation → FolderStore → Prop
  | [], s' => s' = s
  | e :: es, s' => ∃ t, s.Notes e t ∧ t.NotesAll es s'

/-- An evaluation that is noted has its line behind the others. -/
theorem HasLines.notes (h : s.HasLines lines) (hnotes : s.Notes e s') :
    ∃ cs, e.Writes cs ∧ s'.HasLines (lines ++ [cs]) := by
  obtain ⟨cs, hwrites, happend⟩ := hnotes
  obtain ⟨root, hroot, hlines⟩ := h.append cs
  rw [hroot] at happend
  cases happend
  exact ⟨cs, hwrites, hlines⟩

/-- A store takes every evaluation. -/
theorem HasLines.record (h : s.HasLines lines) (e : Evaluation) :
    (s.record e).1 = .ok () ∧ s.Notes e (s.record e).2 := by
  obtain ⟨cs, hwrites, hline⟩ := e.exists_line_eq
  obtain ⟨root, happend, -⟩ := h.append cs
  have htext : String.ofList e.line = textOf [cs] := by
    rw [hline, textOf, List.flatMap_singleton]
  have hrecord : s.record e = (.ok (), ⟨root⟩) := by
    rw [FolderStore.record, htext, happend]
  rw [hrecord]
  exact ⟨rfl, cs, hwrites, happend⟩

/-- Evaluations that are noted have their lines behind the others, one for each and in order. -/
theorem HasLines.notesAll (h : s.HasLines lines) (hnotes : s.NotesAll es s') :
    ∃ others, List.Forall₂ Evaluation.Writes es others ∧ s'.HasLines (lines ++ others) := by
  induction es generalizing s lines with
  | nil =>
    cases hnotes
    exact ⟨[], .nil, by rwa [List.append_nil]⟩
  | cons e es ih =>
    obtain ⟨t, he, hes⟩ := hnotes
    obtain ⟨cs, hwrites, ht⟩ := h.notes he
    obtain ⟨others, hothers, hs'⟩ := ih ht hes
    exact ⟨cs :: others, .cons hwrites hothers, by rwa [List.append_assoc] at hs'⟩

/-- A store takes evaluations one after the other. -/
theorem HasLines.records (h : s.HasLines lines) (es : List Evaluation) :
    (∀ call ∈ Run.transcript FolderStore.record s es, call.2 = .ok ()) ∧
      s.NotesAll es (Run.after FolderStore.record s es) := by
  induction es generalizing s lines with
  | nil => exact ⟨fun _ hcall => absurd hcall List.not_mem_nil, rfl⟩
  | cons e es ih =>
    obtain ⟨hok, hnotes⟩ := h.record e
    obtain ⟨cs, -, hlines⟩ := h.notes hnotes
    obtain ⟨hrest, hall⟩ := ih hlines
    exact ⟨List.forall_mem_cons.mpr ⟨hok, hrest⟩, _, hnotes, hall⟩

/-! ## Reading the file -/

/-- What the file of the evaluations tells of evaluations. -/
structure JournalOf (s : FolderStore) (es : List Evaluation) (lines : List (List Char)) : Prop where
  /-- The file has the lines and nothing else. -/
  hasLines : s.HasLines lines
  /-- There is one line for every evaluation, in order. -/
  writes : List.Forall₂ Evaluation.Writes es lines
  /-- No line has a character in it that could end a line. -/
  printable : ∀ l ∈ lines, Json.Printable l
  /-- The lines are found in the text. -/
  linesOf_eq : Evaluation.linesOf (textOf lines).toList = lines
  /-- The evaluations are read with their doubles as they are read back. -/
  ofLines?_eq : Evaluation.ofLines? (textOf lines) = some (es.map Evaluation.restored)
  /-- They are read as they were exactly if their doubles are. -/
  ofLines?_iff : Evaluation.ofLines? (textOf lines) = some es ↔ ∀ e ∈ es, e.KeepsDoubles

theorem mapM_ofLine? (h : List.Forall₂ Evaluation.Writes es lines) :
    (lines.mapM fun l => Evaluation.ofLine? (String.ofList l)) =
      some (es.map Evaluation.restored) := by
  induction h with
  | nil => rfl
  | cons hwrites _ ih =>
    rw [List.mapM_cons, hwrites.ofLine?_eq, ih]
    rfl

theorem HasLines.journalOf (h : s.HasLines lines)
    (hwrites : List.Forall₂ Evaluation.Writes es lines) :
    s.JournalOf es lines := by
  have hprintable : ∀ l ∈ lines, Json.Printable l := by
    clear h
    induction hwrites with
    | nil => exact fun l hl => nomatch hl
    | cons he _ ih => exact List.forall_mem_cons.mpr ⟨he.printable, ih⟩
  have hlinesOf : Evaluation.linesOf (textOf lines).toList = lines := by
    rw [textOf, String.toList_ofList, Evaluation.linesOf_flatMap hprintable]
  have hofLines : Evaluation.ofLines? (textOf lines) = some (es.map Evaluation.restored) := by
    rw [Evaluation.ofLines?, hlinesOf, mapM_ofLine? hwrites]
  refine ⟨h, hwrites, hprintable, hlinesOf, hofLines, ?_⟩
  calc Evaluation.ofLines? (textOf lines) = some es
    _ ↔ es.map Evaluation.restored = es.map id := by rw [hofLines, Option.some.injEq, List.map_id]
    _ ↔ ∀ e ∈ es, e.restored = e := List.map_inj_left
    _ ↔ ∀ e ∈ es, e.KeepsDoubles := forall₂_congr fun e _ => e.restored_eq_self_iff

/-- Evaluations that a store notes from the first on are the lines of a file, which gives them back.
All of them are taken, and what is noted later leaves the lines as they are. -/
theorem lines_of_records (hmissing : s.root.find [journalFile] = .error .missing)
    (es : List Evaluation) :
    (∀ call ∈ Run.transcript FolderStore.record s es, call.2 = .ok ()) ∧
    s.NotesAll es (Run.after FolderStore.record s es) ∧
    ∀ s', s.NotesAll es s' → ∃ lines, s'.JournalOf es lines ∧
      ∀ more s'', s'.NotesAll more s'' →
          ∃ others, s''.JournalOf (es ++ more) (lines ++ others) := by
  have hnone : s.HasLines [] := by rwa [HasLines, if_pos rfl]
  obtain ⟨hok, hall⟩ := hnone.records es
  refine ⟨hok, hall, fun s' hs' => ?_⟩
  obtain ⟨lines, hwrites, hlines⟩ := hnone.notesAll hs'
  refine ⟨lines, hlines.journalOf hwrites, fun more s'' hs'' => ?_⟩
  obtain ⟨others, hothers, hlines'⟩ := hlines.notesAll hs''
  exact ⟨others, hlines'.journalOf (List.rel_append hwrites hothers)⟩

/-- Ends of lines in a field, in a text and in a rule stay inside the line of an evaluation. -/
theorem lines_of_records_newlines :
    FolderStore.empty.root.find [journalFile] = .error .missing ∧
    ∃ lines, (Run.after FolderStore.record .empty
        [⟨.zero, true, .ofList [("a\nb", .text "x\r\ny")], "a = '\n'"⟩,
          ⟨.zero, false, .ofList [("n", .integer 7)], "n > 8"⟩]).JournalOf
        [⟨.zero, true, .ofList [("a\nb", .text "x\r\ny")], "a = '\n'"⟩,
          ⟨.zero, false, .ofList [("n", .integer 7)], "n > 8"⟩] lines := by
  have hmissing : FolderStore.empty.root.find [journalFile] = .error .missing := by
    rw [empty, find_journalFile]
    rfl
  obtain ⟨-, hall, htells⟩ := lines_of_records hmissing _
  obtain ⟨lines, hlines, -⟩ := htells _ hall
  exact ⟨hmissing, lines, hlines⟩

end FolderStore

end Rulebook
