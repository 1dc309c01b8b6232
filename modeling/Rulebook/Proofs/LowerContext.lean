import Rulebook.Proofs.LetterCase

/-!
# Lower case inside a text

`lowerWithin before text after` is what `text` becomes inside a longer text, and
`lowerAfter_append` cuts the lower case of a text there.  The context matters for the
capital sigma only, and of the context only whether a cased letter comes next on either
side, where case-ignorable characters are passed over.  So a text has the same lower case
in two contexts that agree on that (`lowerWithin_congr`).  A mark on either side is as good
as the end of the text (`casedNext_mark`).
-/

namespace Rulebook.Text

theorem lowerWithin_append :
    ∀ (before text text' after : List Char), lowerWithin before (text ++ text') after =
      lowerWithin before text (text' ++ after) ++ lowerWithin (text.reverse ++ before) text' after
  | before, [], text', after => rfl
  | before, c :: cs, text', after => by
      rw [List.cons_append, lowerWithin, lowerWithin_append (c :: before) cs text' after,
        lowerWithin, List.append_assoc, List.append_assoc, List.reverse_cons, List.append_assoc]
      rfl

theorem lowerAfter_append (before text after : List Char) : lowerAfter before (text ++ after) =
    lowerWithin before text after ++ lowerAfter (text.reverse ++ before) after := by
  rw [← lowerWithin_nil, lowerWithin_append, List.append_nil, lowerWithin_nil]

/-! ## What matters of the context -/

theorem casedNext_nil : casedNext [] = false := rfl

/-- No cased letter comes next at a mark. -/
theorem casedNext_mark {c : Char} (cs : List Char) (h : Mark c) : casedNext (c :: cs) = false := by
  rw [casedNext, List.dropWhile_cons_of_neg (by simp [h.not_ignorable])]
  exact h.not_cased

/-- An ignorable character is passed over. -/
theorem casedNext_ignorable {c : Char} (cs : List Char) (h : isCaseIgnorable c = true) :
    casedNext (c :: cs) = casedNext cs := by
  rw [casedNext, casedNext, List.dropWhile_cons_of_pos h]

theorem casedNext_append_congr {cs cs' : List Char} (h : casedNext cs = casedNext cs') :
    ∀ text : List Char, casedNext (text ++ cs) = casedNext (text ++ cs')
  | [] => h
  | c :: text => by
      cases hc : isCaseIgnorable c with
      | true =>
          rw [List.cons_append, List.cons_append, casedNext_ignorable _ hc,
            casedNext_ignorable _ hc]
          exact casedNext_append_congr h text
      | false =>
          rw [List.cons_append, List.cons_append, casedNext, casedNext,
            List.dropWhile_cons_of_neg (by simp [hc]), List.dropWhile_cons_of_neg (by simp [hc])]

/-- A text has the same lower case wherever a cased letter comes next on the same sides. -/
theorem lowerWithin_congr {after after' : List Char} (hafter : casedNext after = casedNext after') :
    ∀ {before before' : List Char} (text : List Char), casedNext before = casedNext before' →
      lowerWithin before text after = lowerWithin before' text after'
  | before, before', [], _ => rfl
  | before, before', c :: cs, hbefore => by
      have hnext : casedNext (c :: before) = casedNext (c :: before') :=
        casedNext_append_congr hbefore [c]
      rw [lowerWithin, lowerWithin, lowerBetween, lowerBetween, hbefore,
        casedNext_append_congr hafter cs, lowerWithin_congr hafter cs hnext]

/-- Between places where no cased letter comes next a text has its own lower case. -/
theorem lowerWithin_eq_lower {before after : List Char} (hbefore : casedNext before = false)
    (hafter : casedNext after = false) (text : List Char) :
    lowerWithin before text after = lower text := by
  rw [lowerWithin_congr (hafter.trans casedNext_nil.symm) text (hbefore.trans casedNext_nil.symm),
    lowerWithin_nil, lower]

/-! ## Characters -/

/-- What a character of a text becomes is part of what the text becomes. -/
theorem exists_lowerBetween_subset {c : Char} :
    ∀ {text : List Char} (before after : List Char), c ∈ text →
      ∃ before' after', ∀ d ∈ lowerBetween before' c after', d ∈ lowerWithin before text after
  | c' :: cs, before, after, h => by
      rw [lowerWithin]
      obtain rfl | h := List.mem_cons.mp h
      · exact ⟨before, cs ++ after, fun d hd => List.mem_append_left _ hd⟩
      · obtain ⟨before', after', hsub⟩ := exists_lowerBetween_subset (c' :: before) after h
        exact ⟨before', after', fun d hd => List.mem_append_right _ (hsub d hd)⟩

/-- No blank is made of another character. -/
theorem not_isBlank_of_mem_lowerBetween {c d : Char} {before after : List Char}
    (hc : isBlank c = false) (h : d ∈ lowerBetween before c after) : isBlank d = false := by
  obtain rfl | halpha | rfl := mem_lowerBetween h
  · exact hc
  · exact not_isBlank_of_isAlphanumeric (isAlphanumeric_of_isAlphabetic halpha)
  · decide

theorem not_isBlank_of_mem_lowerWithin {d : Char} {text before after : List Char}
    (htext : ∀ c ∈ text, isBlank c = false) (h : d ∈ lowerWithin before text after) :
    isBlank d = false := by
  obtain ⟨c, hc, before', after', hd⟩ := exists_of_mem_lowerWithin h
  exact not_isBlank_of_mem_lowerBetween (htext c hc) hd

/-- Lower-casing adds letters and combining dots only. -/
theorem mem_of_mem_lowerWithin {x : Char} (halpha : isAlphabetic x = false) (hdot : x ≠ '\u0307')
    {text before after : List Char} (h : x ∈ lowerWithin before text after) : x ∈ text := by
  obtain ⟨c, hc, before', after', hx⟩ := exists_of_mem_lowerWithin h
  obtain rfl | halpha' | rfl := mem_lowerBetween hx
  · exact hc
  · rw [halpha'] at halpha
    cases halpha
  · exact absurd rfl hdot

/-- A settled character is passed. -/
theorem lowerAfter_cons {c : Char} (h : Settled c) (before cs : List Char) :
    lowerAfter before (c :: cs) = c :: lowerAfter (c :: before) cs := by
  rw [lowerAfter, h.lowerBetween_eq]
  rfl

/-- Without the two characters of many forms every character has its own lower case. -/
theorem lowerWithin_eq_map :
    ∀ {text : List Char} (before after : List Char), (∀ c ∈ text, c ≠ 'Σ' ∧ c ≠ 'İ') →
      lowerWithin before text after = text.map lowerChar
  | [], _, _, _ => rfl
  | c :: cs, before, after, h => by
      obtain ⟨hsigma, hdotted⟩ := h c List.mem_cons_self
      rw [lowerWithin, lowerBetween, if_neg hsigma, if_neg hdotted,
        lowerWithin_eq_map _ _ fun d hd => h d (List.mem_cons_of_mem c hd)]
      rfl

/-- The characters of a keyword are of ASCII. -/
theorem ascii_of_keyword {w : List Char} {k : Connective}
    (h : Connective.ofKeyword? (String.ofList w) = some k) : ∀ c ∈ w, c.toNat < 128 := by
  have key : ∀ s : List Char, (s.all fun x => decide (x.toNat < 128)) = true →
      w.map Char.toLower = s → ∀ c ∈ w, c.toNat < 128 := by
    rintro s hs rfl c hc
    refine Nat.lt_of_not_le fun hge => ?_
    have hlow := of_decide_eq_true (List.all_eq_true.mp hs c.toLower (List.mem_map_of_mem hc))
    rw [toLower_of_not_ascii hge] at hlow
    omega
  rw [Connective.ofKeyword?] at h
  split at h
  case isTrue hand => exact key _ (by decide) (sameIgnoringAsciiCase_iff.mp hand)
  case isFalse =>
    split at h
    case isTrue hor => exact key _ (by decide) (sameIgnoringAsciiCase_iff.mp hor)
    case isFalse => cases h

/-- A keyword is lower-cased in the same way everywhere. -/
theorem lowerWithin_keyword {w : List Char} {k : Connective}
    (h : Connective.ofKeyword? (String.ofList w) = some k) (before after : List Char) :
    lowerWithin before w after = lower w := by
  have hplain : ∀ c ∈ w, c ≠ 'Σ' ∧ c ≠ 'İ' := by
    refine fun c hc => ⟨?_, ?_⟩
    · rintro rfl
      exact absurd (ascii_of_keyword h _ hc) (by decide)
    · rintro rfl
      exact absurd (ascii_of_keyword h _ hc) (by decide)
  rw [lower, ← lowerWithin_nil, lowerWithin_eq_map _ _ hplain, lowerWithin_eq_map _ _ hplain]

/-- The lower case of a keyword is a word. -/
theorem isWord_lower_keyword {w : List Char} {k : Connective} (hw : IsWord w)
    (h : Connective.ofKeyword? (String.ofList w) = some k) : IsWord (lower w) := by
  refine hw.lower fun hdot => ?_
  rw [← ofKeyword?_lower] at h
  exact absurd (ascii_of_keyword h _ hdot) (by decide)

end Rulebook.Text
