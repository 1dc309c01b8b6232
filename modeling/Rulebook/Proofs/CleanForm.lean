import Mathlib.Data.List.Basic
import Mathlib.Data.List.Chain
import Rulebook.Proofs.CombinedText

/-!
# The clean form of a text

`IsClean` says what a clean text looks like: it is in lower case, it begins and ends with no
blank, its only blanks are spaces, and no two of them are next to each other.

Cleaning keeps the words of the lower case of a text (`words_collapse`), and a clean text is
known by its words (`IsClean.clean_eq`).  So the clean form of a text is the one clean text that
has these words, and cleaning it again changes nothing (`clean_normalizes`).
-/

namespace Rulebook

open Rulebook.Text (collapse gap isBlank lower lowered squeeze words)

namespace Text

/-! ## Blanks of a squeezed text -/

/-- The only blanks of a squeezed text are spaces. -/
theorem eq_space_of_mem_squeeze {d : Char} (hd : isBlank d = true) :
    ∀ (owed : Bool) (cs : List Char), d ∈ squeeze owed cs → d = ' '
  | _, [], h => by cases h
  | owed, c :: cs, h => by
      cases hc : isBlank c with
      | true =>
          rw [squeeze_blank owed cs hc] at h
          exact eq_space_of_mem_squeeze hd true cs h
      | false =>
          rw [squeeze_cons owed cs hc, List.mem_append, List.mem_cons] at h
          obtain h | rfl | h := h
          · cases owed with
            | false => cases h
            | true => exact List.mem_singleton.mp h
          · rw [hc] at hd
            cases hd
          · exact eq_space_of_mem_squeeze hd false cs h

/-- Whether no two blanks of a text are next to each other. -/
def Spread (cs : List Char) : Prop :=
  cs.IsChain fun c d => isBlank c = true → isBlank d = false

theorem spread_cons {c : Char} (hc : isBlank c = false) {cs : List Char} (h : Spread cs) :
    Spread (c :: cs) :=
  List.isChain_cons.mpr ⟨fun _ _ hblank => absurd (hc.symm.trans hblank) Bool.false_ne_true, h⟩

theorem spread_squeeze : ∀ (owed : Bool) (cs : List Char), Spread (squeeze owed cs)
  | _, [] => .nil
  | owed, c :: cs => by
      cases hc : isBlank c with
      | true =>
          rw [squeeze_blank owed cs hc]
          exact spread_squeeze true cs
      | false =>
          have hrest := spread_cons hc (spread_squeeze false cs)
          rw [squeeze_cons owed cs hc]
          cases owed with
          | false => exact hrest
          | true =>
              refine List.isChain_cons.mpr ⟨fun d hd _ => ?_, hrest⟩
              cases hd
              exact hc

/-- Two spaces that are next to each other are no part of a text whose blanks are spread. -/
theorem Spread.not_two_spaces {cs : List Char} (h : Spread cs) : ¬ [' ', ' '] <:+: cs := by
  rintro ⟨before, after, rfl⟩
  have hpair := (List.isChain_cons_cons.mp h.left_of_append.right_of_append).1
  exact absurd (hpair (by decide)) (by decide)

/-- A text whose blanks are single spaces, with none at its end, is squeezed. -/
theorem squeeze_eq_self : ∀ {cs : List Char}, (∀ c ∈ cs, isBlank c = true → c = ' ') →
    ¬ [' ', ' '] <:+: cs → (∀ c ∈ cs.getLast?, isBlank c = false) → squeeze false cs = cs
  | [], _, _, _ => rfl
  | c :: cs, hspace, hsingle, hlast => by
      obtain ⟨hc, hspace'⟩ := List.forall_mem_cons.mp hspace
      have hsingle' : ¬ [' ', ' '] <:+: cs := fun h =>
        hsingle (h.trans (List.suffix_cons c cs).isInfix)
      have hlast' : ∀ d ∈ cs.getLast?, isBlank d = false := by
        intro d hd
        cases cs with
        | nil => cases hd
        | cons d' cs => exact hlast d (by rwa [List.getLast?_cons_cons])
      have ih := squeeze_eq_self hspace' hsingle' hlast'
      cases hblank : isBlank c with
      | false => rw [squeeze_cons false cs hblank, ih]; rfl
      | true =>
          obtain rfl := hc hblank
          -- behind a space stands a character that is not blank
          cases cs with
          | nil => exact absurd (hlast _ rfl) (by decide)
          | cons d ds =>
              have hd : isBlank d = false := by
                cases hd : isBlank d with
                | false => rfl
                | true =>
                    obtain rfl := hspace' d List.mem_cons_self hd
                    exact absurd (List.prefix_append [' ', ' '] ds).isInfix hsingle
              rw [squeeze_blank false _ hblank, squeeze_cons true ds hd]
              rw [squeeze_cons false ds hd] at ih
              exact congrArg (' ' :: ·) ih

/-! ## Words -/

theorem not_isBlank_of_mem_splitOnP : ∀ {cs piece : List Char}, piece ∈ cs.splitOnP isBlank →
    ∀ c ∈ piece, isBlank c = false
  | [], piece, h => by
      obtain rfl := List.mem_singleton.mp h
      exact fun c hc => absurd hc List.not_mem_nil
  | d :: ds, piece, h => by
      rw [List.splitOnP_cons_eq_if_modifyHead] at h
      split at h
      next =>
        obtain rfl | h := List.mem_cons.mp h
        · exact fun c hc => absurd hc List.not_mem_nil
        · exact not_isBlank_of_mem_splitOnP h
      next hd =>
        obtain ⟨first, pieces, hsplit, -⟩ := squeeze_pieces ds
        have ih : ∀ {piece}, piece ∈ ds.splitOnP isBlank → ∀ c ∈ piece, isBlank c = false :=
          not_isBlank_of_mem_splitOnP
        rw [hsplit] at h ih
        obtain rfl | h := List.mem_cons.mp h
        · exact List.forall_mem_cons.mpr ⟨Bool.eq_false_iff.mpr hd, ih List.mem_cons_self⟩
        · exact ih (List.mem_cons_of_mem _ h)

/-- A word has characters, and none of them is blank. -/
theorem word_of_mem_words {cs w : List Char} (h : w ∈ words cs) :
    w ≠ [] ∧ ∀ c ∈ w, isBlank c = false := by
  obtain ⟨hmem, hne⟩ := List.mem_filter.mp h
  exact ⟨by simpa using hne, not_isBlank_of_mem_splitOnP hmem⟩

/-- The words of words with single spaces between them are these. -/
theorem words_intercalate : ∀ {ws : List (List Char)},
    (∀ w ∈ ws, w ≠ [] ∧ ∀ c ∈ w, isBlank c = false) → words ([' '].intercalate ws) = ws
  | [], _ => rfl
  | [w], h => by
      obtain ⟨hne, hblank⟩ := h w List.mem_cons_self
      rw [List.intercalate_singleton, words, List.splitOnP_eq_singleton hblank]
      simp [hne]
  | w :: w' :: ws, h => by
      obtain ⟨⟨hne, hblank⟩, hrest⟩ := List.forall_mem_cons.mp h
      have ih := words_intercalate hrest
      rw [words] at ih
      rw [List.intercalate_cons_cons, List.append_assoc, List.singleton_append, words,
        List.splitOnP_append_cons_of_forall_mem hblank ' ' (by decide), List.filter_cons, ih]
      simp [hne]

/-- Collapsing a text keeps its words. -/
theorem words_collapse (cs : List Char) : words (collapse cs) = words cs := by
  rw [← intercalate_words, words_intercalate fun w => word_of_mem_words]

end Text

/-! ## Clean texts -/

/-- Whether a text is clean. -/
structure IsClean (s : String) : Prop where
  /-- It is in lower case. -/
  lowered_eq : lowered s = s
  /-- It begins with no blank. -/
  head : ∀ c ∈ s.toList.head?, isBlank c = false
  /-- It ends with no blank. -/
  last : ∀ c ∈ s.toList.getLast?, isBlank c = false
  /-- Its blanks are spaces. -/
  space : ∀ c ∈ s.toList, isBlank c = true → c = ' '
  /-- There is no space next to another. -/
  single : ¬ [' ', ' '] <:+: s.toList

theorem isClean_clean (t : String) : IsClean (clean t) where
  lowered_eq := lowered_clean t
  head := by
    rw [toList_clean]
    exact (Text.ends_of_collapse _).1
  last := by
    rw [toList_clean]
    exact (Text.ends_of_collapse _).2
  space := by
    rw [toList_clean]
    exact fun c hc hblank => Text.eq_space_of_mem_squeeze hblank false _ hc
  single := by
    rw [toList_clean]
    exact (Text.spread_squeeze false _).not_two_spaces

/-- A clean text is its own clean form. -/
theorem IsClean.clean_eq {s : String} (h : IsClean s) : clean s = s := by
  have hdrop : s.toList.dropWhile isBlank = s.toList := by
    cases hs : s.toList with
    | nil => rfl
    | cons c cs => exact List.dropWhile_cons_of_neg (by simp [h.head c (by rw [hs]; rfl)])
  rw [← String.toList_inj, toList_clean, ← Text.toList_lowered, h.lowered_eq, collapse, hdrop,
    Text.squeeze_eq_self h.space h.single h.last]

/-- The clean form of a text is clean, and it is the only clean text whose words are those of the
lower case of the text.  So cleaning it once more changes nothing. -/
theorem clean_normalizes (t : String) :
    clean (clean t) = clean t ∧ IsClean (clean t) ∧
      ∀ s, s = clean t ↔ IsClean s ∧ words s.toList = words (lower t.toList) := by
  refine ⟨clean_clean t, isClean_clean t, fun s => ⟨?_, fun ⟨hs, hwords⟩ => ?_⟩⟩
  · rintro rfl
    refine ⟨isClean_clean t, ?_⟩
    rw [toList_clean, Text.words_collapse]
  · have hlower : lower s.toList = s.toList := by rw [← Text.toList_lowered, hs.lowered_eq]
    rw [← hs.clean_eq, clean, clean, hlower, hwords]

example : clean "\tΟΔΟΣ\u3000 İ " = "οδος i\u0307" := by decide +kernel

end Rulebook
