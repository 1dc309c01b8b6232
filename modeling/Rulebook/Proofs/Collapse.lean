import Rulebook.Proofs.Blanks
import Rulebook.Rule.Cleaning

/-!
# Single spaces

Cleaning writes one space where a text has blanks, and none at the ends.  `squeeze` does
this in one walk over the characters.  Its flag says that blanks were passed and a space
is *owed* before the next character.  `collapse` leaves out the blanks in front first.

`toList_clean` says that the clean form of a text is its collapsed lower case.  The other
statements take a squeezed text apart: characters that are not blank stay where they are
(`squeeze_append`), what stands between two such characters is its collapsed form with
blanks around it (`trim_squeeze`), and blanks between them leave a space
(`space_mem_collapse`).
-/

namespace Rulebook.Text

/-- The space that is owed. -/
def gap (owed : Bool) : List Char := if owed then [' '] else []

/-- A text with a single space where it has blanks, and none behind. -/
def squeeze : Bool → List Char → List Char
  | _, [] => []
  | owed, c :: cs => if isBlank c then squeeze true cs else gap owed ++ c :: squeeze false cs

/-- A text with a single space where it has blanks between others. -/
def collapse (cs : List Char) : List Char := squeeze false (cs.dropWhile isBlank)

/-- Whether a space is owed behind a text. -/
def owes (owed : Bool) : List Char → Bool
  | [] => owed
  | c :: cs => owes (isBlank c) cs

theorem squeeze_blank (owed : Bool) {c : Char} (cs : List Char) (hc : isBlank c = true) :
    squeeze owed (c :: cs) = squeeze true cs := by
  rw [squeeze, if_pos hc]

theorem squeeze_cons (owed : Bool) {c : Char} (cs : List Char) (hc : isBlank c = false) :
    squeeze owed (c :: cs) = gap owed ++ c :: squeeze false cs := by
  rw [squeeze, if_neg (by simp [hc])]

/-- What is not blank stays. -/
theorem squeeze_append (owed : Bool) {c : Char} {cs : List Char} (ds : List Char)
    (h : ∀ d ∈ c :: cs, isBlank d = false) :
    squeeze owed (c :: cs ++ ds) = gap owed ++ (c :: cs ++ squeeze false ds) := by
  induction cs generalizing owed c with
  | nil => exact squeeze_cons owed ds (h c List.mem_cons_self)
  | cons d cs ih =>
      rw [List.cons_append, squeeze_cons owed _ (h c List.mem_cons_self),
        ih false fun d' hd' => h d' (List.mem_cons_of_mem c hd')]
      rfl

/-- A text before a character that is not blank is squeezed by itself. -/
theorem squeeze_append_cons {q : Char} (cs : List Char) (hq : isBlank q = false) :
    ∀ (owed : Bool) (text : List Char), squeeze owed (text ++ q :: cs) =
      squeeze owed text ++ gap (owes owed text) ++ q :: squeeze false cs
  | owed, [] => squeeze_cons owed cs hq
  | owed, c :: text => by
      cases hc : isBlank c with
      | true =>
          rw [List.cons_append, squeeze_blank owed _ hc, squeeze_blank owed _ hc, owes, hc]
          exact squeeze_append_cons cs hq true text
      | false =>
          rw [List.cons_append, squeeze_cons owed _ hc, squeeze_cons owed _ hc, owes, hc,
            squeeze_append_cons cs hq false text]
          simp only [List.append_assoc, List.cons_append]

theorem isBlank_of_mem_gap {owed : Bool} {c : Char} (h : c ∈ gap owed) : isBlank c = true := by
  cases owed with
  | false => cases h
  | true =>
      obtain rfl := List.mem_singleton.mp h
      decide

/-- Without the space in front a squeezed text is collapsed. -/
theorem dropWhile_squeeze :
    ∀ (owed : Bool) (cs : List Char), (squeeze owed cs).dropWhile isBlank = collapse cs
  | _, [] => rfl
  | owed, c :: cs => by
      cases hc : isBlank c with
      | true =>
          rw [squeeze_blank owed cs hc, dropWhile_squeeze true cs, collapse, collapse,
            List.dropWhile_cons_of_pos hc]
      | false =>
          rw [squeeze_cons owed cs hc,
            List.dropWhile_append_of_pos fun d hd => isBlank_of_mem_gap hd,
            List.dropWhile_cons_of_neg (by simp [hc]), collapse,
            List.dropWhile_cons_of_neg (by simp [hc]), squeeze_cons false cs hc]
          rfl

/-- A squeezed text ends with no blank. -/
theorem getLast?_squeeze :
    ∀ (owed : Bool) (cs : List Char), ∀ c ∈ (squeeze owed cs).getLast?, isBlank c = false
  | _, [], c, h => by cases h
  | owed, d :: cs, c, h => by
      cases hd : isBlank d with
      | true =>
          rw [squeeze_blank owed cs hd] at h
          exact getLast?_squeeze true cs c h
      | false =>
          rw [squeeze_cons owed cs hd, List.getLast?_append_cons] at h
          cases hrest : squeeze false cs with
          | nil =>
              rw [hrest] at h
              cases h
              exact hd
          | cons d' ds =>
              rw [hrest, List.getLast?_cons_cons, ← hrest] at h
              exact getLast?_squeeze false cs c h

theorem ends_of_collapse (cs : List Char) : (∀ c ∈ (collapse cs).head?, isBlank c = false) ∧
    ∀ c ∈ (collapse cs).getLast?, isBlank c = false := by
  refine ⟨fun c hc => ?_, getLast?_squeeze false _⟩
  have hhead := List.head?_dropWhile_not isBlank (squeeze false cs)
  rw [dropWhile_squeeze] at hhead
  rw [Option.mem_def] at hc
  rw [hc] at hhead
  exact hhead

/-- Between characters that are not blank stands the collapsed text with blanks around it. -/
theorem trim_squeeze (owed owed' : Bool) (cs : List Char) :
    trim (squeeze owed cs ++ gap owed') = collapse cs := by
  have hsplit := List.takeWhile_append_dropWhile (p := isBlank) (l := squeeze owed cs)
  rw [dropWhile_squeeze] at hsplit
  rw [← hsplit]
  exact trim_append (fun c hc => List.mem_takeWhile_imp hc) (fun c hc => isBlank_of_mem_gap hc)
    (ends_of_collapse cs)

/-- Blanks behind make no difference. -/
theorem squeeze_append_blanks {after : List Char} (h : ∀ c ∈ after, isBlank c = true) :
    ∀ (owed : Bool) (cs : List Char), squeeze owed (cs ++ after) = squeeze owed cs
  | owed, [] => by
      induction after generalizing owed with
      | nil => rfl
      | cons c after ih =>
          rw [List.nil_append, squeeze_blank owed _ (h c List.mem_cons_self)]
          exact ih (fun d hd => h d (List.mem_cons_of_mem c hd)) true
  | owed, c :: cs => by
      cases hc : isBlank c with
      | true =>
          rw [List.cons_append, squeeze_blank owed _ hc, squeeze_blank owed _ hc]
          exact squeeze_append_blanks h true cs
      | false =>
          rw [List.cons_append, squeeze_cons owed _ hc, squeeze_cons owed _ hc,
            squeeze_append_blanks h false cs]

/-- Blanks at the ends make no difference to a collapsed text. -/
theorem collapse_append {before cs after : List Char} (hbefore : ∀ c ∈ before, isBlank c = true)
    (hafter : ∀ c ∈ after, isBlank c = true) : collapse (before ++ cs ++ after) = collapse cs := by
  rw [← dropWhile_squeeze false (before ++ cs ++ after), squeeze_append_blanks hafter,
    dropWhile_squeeze, collapse, List.dropWhile_append_of_pos hbefore, collapse]

/-- What is not blank is still there, and nothing new is but spaces. -/
theorem mem_squeeze {d : Char} (hd : isBlank d = false) :
    ∀ (owed : Bool) (cs : List Char), d ∈ squeeze owed cs ↔ d ∈ cs
  | _, [] => Iff.rfl
  | owed, c :: cs => by
      have hgap : d ∉ gap owed := fun hmem => by
        rw [isBlank_of_mem_gap hmem] at hd
        cases hd
      cases hc : isBlank c with
      | true =>
          have hne : d ≠ c := fun heq => by
            rw [heq, hc] at hd
            cases hd
          rw [squeeze_blank owed cs hc, mem_squeeze hd true cs, List.mem_cons, or_iff_right hne]
      | false =>
          rw [squeeze_cons owed cs hc, List.mem_append, or_iff_right hgap, List.mem_cons,
            List.mem_cons, mem_squeeze hd false cs]

theorem mem_collapse {d : Char} (hd : isBlank d = false) (cs : List Char) :
    d ∈ collapse cs ↔ d ∈ cs := by
  rw [collapse, mem_squeeze hd]
  refine ⟨fun h => (List.dropWhile_sublist _).subset h, fun h => ?_⟩
  rw [← List.takeWhile_append_dropWhile (p := isBlank) (l := cs), List.mem_append] at h
  refine h.resolve_left fun htake => ?_
  rw [List.mem_takeWhile_imp htake] at hd
  cases hd

/-- A text without blanks is collapsed. -/
theorem collapse_of_not_blank {cs : List Char} (h : ∀ c ∈ cs, isBlank c = false) :
    collapse cs = cs := by
  cases cs with
  | nil => rfl
  | cons c cs =>
      have hsqueeze := squeeze_append false [] h
      rw [List.append_nil, squeeze, List.append_nil] at hsqueeze
      rw [collapse, List.dropWhile_cons_of_neg (by simp [h c List.mem_cons_self])]
      exact hsqueeze

/-- A space that is owed is written before a character that is not blank. -/
theorem space_mem_squeeze {cs : List Char} (h : ∃ d ∈ cs, isBlank d = false) :
    ' ' ∈ squeeze true cs := by
  induction cs with
  | nil =>
      obtain ⟨d, hd, -⟩ := h
      cases hd
  | cons c cs ih =>
      cases hc : isBlank c with
      | true =>
          rw [squeeze_blank true cs hc]
          refine ih ?_
          obtain ⟨d, hd, hblank⟩ := h
          obtain rfl | hd := List.mem_cons.mp hd
          · rw [hblank] at hc
            cases hc
          · exact ⟨d, hd, hblank⟩
      | false =>
          rw [squeeze_cons true cs hc]
          exact List.mem_cons_self

/-- A blank between characters that are not blank leaves a space. -/
theorem space_mem_collapse {before after : List Char} {c : Char} (hc : isBlank c = true)
    (hbefore : ∃ d ∈ before, isBlank d = false) (hafter : ∃ d ∈ after, isBlank d = false) :
    ' ' ∈ collapse (before ++ c :: after) := by
  have key : ∀ (owed : Bool) (cs : List Char), ' ' ∈ squeeze owed (cs ++ c :: after) := by
    intro owed cs
    induction cs generalizing owed with
    | nil =>
        rw [List.nil_append, squeeze_blank owed after hc]
        exact space_mem_squeeze hafter
    | cons d cs ih =>
        cases hd : isBlank d with
        | true =>
            rw [List.cons_append, squeeze_blank owed _ hd]
            exact ih true
        | false =>
            rw [List.cons_append, squeeze_cons owed _ hd]
            exact List.mem_append_right _ (List.mem_cons_of_mem d (ih false))
  obtain ⟨d, hd, hblank⟩ := hbefore
  have hne : before.dropWhile isBlank ≠ [] := fun hnil => by
    rw [List.dropWhile_eq_nil_iff.mp hnil d hd] at hblank
    cases hblank
  rw [collapse, List.dropWhile_append, if_neg (by rwa [List.isEmpty_iff])]
  exact key false _

/-! ## Words -/

/-- The pieces of a text that are not empty, each with a space in front. -/
def spaced (pieces : List (List Char)) : List Char :=
  (pieces.filter (!·.isEmpty)).flatMap (' ' :: ·)

theorem spaced_nil (pieces : List (List Char)) : spaced ([] :: pieces) = spaced pieces := rfl

theorem spaced_cons (c : Char) (cs : List Char) (pieces : List (List Char)) :
    spaced ((c :: cs) :: pieces) = ' ' :: c :: cs ++ spaced pieces := rfl

/-- A squeezed text is its pieces with single spaces between them. -/
theorem squeeze_pieces :
    ∀ cs : List Char, ∃ piece pieces, cs.splitOnP isBlank = piece :: pieces ∧
      squeeze false cs = piece ++ spaced pieces ∧ squeeze true cs = spaced (piece :: pieces)
  | [] => ⟨[], [], rfl, rfl, rfl⟩
  | c :: cs => by
      obtain ⟨piece, pieces, hsplit, hfalse, htrue⟩ := squeeze_pieces cs
      rw [List.splitOnP_cons_eq_if_modifyHead, hsplit]
      cases hc : isBlank c with
      | true =>
          refine ⟨[], piece :: pieces, rfl, ?_, ?_⟩
          · rw [squeeze_blank false cs hc, htrue, List.nil_append]
          · rw [squeeze_blank true cs hc, htrue, spaced_nil]
      | false =>
          refine ⟨c :: piece, pieces, rfl, ?_, ?_⟩
          · rw [squeeze_cons false cs hc, hfalse]
            rfl
          · rw [squeeze_cons true cs hc, hfalse, spaced_cons]
            rfl

/-- Pieces with single spaces between them have one less space than pieces. -/
theorem intercalate_cons (piece : List Char) :
    ∀ pieces : List (List Char),
      [' '].intercalate (piece :: pieces) = piece ++ pieces.flatMap (' ' :: ·)
  | [] => by simp
  | piece' :: pieces => by
      rw [List.intercalate_cons_cons, intercalate_cons piece' pieces]
      simp

/-- The words of a text with single spaces between them are the collapsed text. -/
theorem intercalate_words : ∀ cs : List Char, [' '].intercalate (words cs) = collapse cs
  | [] => rfl
  | c :: cs => by
      cases hc : isBlank c with
      | true =>
          have hwords : words (c :: cs) = words cs := by
            rw [words, words, List.splitOnP_cons_eq_if_modifyHead, if_pos hc]
            rfl
          rw [hwords, intercalate_words cs, collapse, collapse, List.dropWhile_cons_of_pos hc]
      | false =>
          obtain ⟨piece, pieces, hsplit, hfalse, -⟩ := squeeze_pieces cs
          have hwords : words (c :: cs) = (c :: piece) :: pieces.filter (!·.isEmpty) := by
            rw [words, List.splitOnP_cons_eq_if_modifyHead, hsplit, hc]
            rfl
          rw [hwords, intercalate_cons, collapse, List.dropWhile_cons_of_neg (by simp [hc]),
            squeeze_cons false cs hc, hfalse]
          rfl

end Rulebook.Text

namespace Rulebook

open Rulebook.Text

/-- The clean form of a text is its collapsed lower case. -/
theorem toList_clean (text : String) : (clean text).toList = collapse (lower text.toList) := by
  have hmap : ∀ ws : List (List Char), (ws.map String.ofList).map String.toList = ws := by
    intro ws
    rw [List.map_map]
    exact List.map_id'' (fun w => String.toList_ofList) ws
  rw [clean, String.toList_intercalate, hmap, ← intercalate_words]
  rfl

end Rulebook
