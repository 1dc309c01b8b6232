import Rulebook.Rule.Operator
import Rulebook.Text.Blank
import Rulebook.Text.Letter

/-!
# Facts of letter case

What lower-casing leaves alone, by the tables of Unicode.  The tables are compared run
by run and span by span, never character by character: the lower cases of a run lie in
one interval, and that interval lies inside a span or outside of all of them.

* A character that is not its own lower case is a letter, and so is its lower case
  (`lowerChar_eq_iff`).  So no blank, quote or other mark of a rule comes or goes.
* `lowerBetween_cases` says what one character becomes, and every character of a
  lower-cased text is part of what one character became (`exists_of_mem_lowerWithin`).
* A character is *settled* if lower-casing keeps it whatever stands around it.  A
  lower-cased text holds settled characters only (`settled_of_mem_lowerAfter`), so `lower`
  is idempotent.
* The capital `İ` is the one character that becomes two.  The combining dot it leaves is
  not alphanumeric, so a word that holds an `İ` is no word in lower case.
* A text is a keyword exactly if its lower case is (`ofKeyword?_lower`).
-/

namespace Rulebook.Text

/-! ## Runs against spans -/

/-- The interval that the lower cases of a run lie in. -/
def CaseRun.lowers (r : CaseRun) : Span :=
  match r.distance with
  | .ofNat d => (r.first + d, r.last + d)
  | .negSucc d => (r.first - (d + 1), r.last - (d + 1))

/-- Whether only every second code point of the interval is a lower case, counted from the first. -/
def CaseRun.alternates (r : CaseRun) : Bool := Nat.beq r.step 2 || Nat.beq r.first r.last

/-- Whether a span of the table holds an interval. -/
def covers (table : List Span) (i : Span) : Bool :=
  table.any fun s => Nat.ble s.1 i.1 && Nat.ble i.2 s.2

/-- Whether an interval avoids the runs of a table, read up to the first run beyond it.  An
alternating interval may meet a run of step two whose members have the other parity. -/
def avoids (alternating : Bool) (i : Span) : List CaseRun → Bool
  | [] => true
  | q :: rest =>
      Nat.blt i.2 q.first ||
        ((Nat.blt q.last i.1 ||
            (alternating && Nat.beq q.step 2 && Nat.beq ((i.1 + q.first) % 2) 1)) &&
          avoids alternating i rest)

/-- Whether a code point is a member of a run. -/
structure CaseRun.Holds (r : CaseRun) (n : Nat) : Prop where
  /-- The code point is not below the run. -/
  first_le : r.first ≤ n
  /-- The code point is not beyond the run. -/
  le_last : n ≤ r.last
  /-- The code point is a number of steps away from the first. -/
  steps : (n - r.first) % r.step = 0

/-- A lower case by a table is the code point itself, or one that a run gives. -/
theorem lowerIn_eq (table : List CaseRun) (n : Nat) :
    lowerIn table n = n ∨ ∃ r ∈ table, r.Holds n ∧ lowerIn table n = (n + r.distance).toNat := by
  induction table with
  | nil => exact Or.inl rfl
  | cons r rest ih =>
      rw [lowerIn]
      split
      case isTrue => exact Or.inl rfl
      case isFalse hfirst =>
        split
        case isTrue h =>
          rw [Bool.and_eq_true, decide_eq_true_eq, beq_iff_eq] at h
          exact Or.inr ⟨r, List.mem_cons_self, ⟨Nat.le_of_not_lt hfirst, h.1, h.2⟩, rfl⟩
        case isFalse =>
          obtain h | ⟨q, hq, hn, h⟩ := ih
          · exact Or.inl h
          · exact Or.inr ⟨q, List.mem_cons_of_mem r hq, hn, h⟩

/-- The lower case of a member lies in the interval of the run. -/
theorem CaseRun.Holds.mem_lowers {r : CaseRun} {n : Nat} (h : r.Holds n) :
    r.lowers.1 ≤ (n + r.distance).toNat ∧ (n + r.distance).toNat ≤ r.lowers.2 := by
  have hfirst := h.first_le
  have hlast := h.le_last
  rw [CaseRun.lowers]
  cases r.distance with
  | ofNat d => simp only [Int.ofNat_eq_natCast]; omega
  | negSucc d => simp only [Int.negSucc_eq]; omega

/-- The lower cases of an alternating run have the parity of the first. -/
theorem CaseRun.Holds.parity {r : CaseRun} {n : Nat} (h : r.Holds n) (hr : r.alternates = true)
    (hpos : 0 < r.lowers.1) : ((n + r.distance).toNat + r.lowers.1) % 2 = 0 := by
  have hfirst := h.first_le
  have hlast := h.le_last
  have hn : (n - r.first) % 2 = 0 := by
    rw [CaseRun.alternates, Bool.or_eq_true, Nat.beq_eq, Nat.beq_eq] at hr
    obtain hr | hr := hr
    · exact hr ▸ h.steps
    · omega
  rw [CaseRun.lowers] at hpos ⊢
  cases hd : r.distance with
  | ofNat d => rw [hd] at hpos; simp only [Int.ofNat_eq_natCast] at hpos ⊢; omega
  | negSucc d => rw [hd] at hpos; simp only [Int.negSucc_eq] at hpos ⊢; omega

/-- A code point of an interval that avoids a table is its own lower case by the table. -/
theorem lowerIn_of_avoids {alternating : Bool} {i : Span} {n : Nat} (hfirst : i.1 ≤ n)
    (hlast : n ≤ i.2) (hparity : alternating = true → (n + i.1) % 2 = 0) :
    ∀ {table : List CaseRun}, avoids alternating i table = true → lowerIn table n = n
  | [], _ => rfl
  | q :: rest, h => by
      rw [avoids, Bool.or_eq_true, Bool.and_eq_true, Bool.or_eq_true, Bool.and_eq_true,
        Bool.and_eq_true, Nat.blt_eq, Nat.blt_eq, Nat.beq_eq, Nat.beq_eq] at h
      rw [lowerIn]
      split
      case isTrue => rfl
      case isFalse hge =>
        obtain hlt | ⟨hq, hrest⟩ := h
        · omega
        · rw [if_neg]
          · exact lowerIn_of_avoids hfirst hlast hparity hrest
          · rw [Bool.and_eq_true, decide_eq_true_eq, beq_iff_eq]
            rintro ⟨hle, hsteps⟩
            obtain hlt | ⟨⟨halt, hstep⟩, hodd⟩ := hq
            · omega
            · have := hparity halt
              rw [hstep] at hsteps
              omega

/-! ## The tables -/

theorem ascending_alphabetic : Ascending alphabeticSpans = true := by decide +kernel

theorem all_alphabetic : caseRuns.all (fun r => covers alphabeticSpans r.lowers) = true := by
  decide +kernel

/-- One run lies in no span, because only every second code point there is a letter. -/
theorem all_members_alphabetic : caseRuns.all (fun r =>
    covers alphabeticSpans (r.first, r.last) ||
      (List.range' r.first ((r.last - r.first) / r.step + 1) r.step).all
        (inSpans alphabeticSpans)) = true := by
  decide +kernel

theorem all_settled : caseRuns.all (fun r => avoids r.alternates r.lowers caseRuns) = true := by
  decide +kernel

theorem all_undotted : caseRuns.all
    (fun r => Nat.blt r.lowers.2 0x130 || Nat.blt 0x130 r.lowers.1) = true := by
  decide +kernel

theorem all_valid : caseRuns.all (fun r => Nat.blt 0 r.lowers.1 &&
    (Nat.blt r.lowers.2 0xD800 || (Nat.blt 0xDFFF r.lowers.1 && Nat.blt r.lowers.2 0x110000))) =
      true := by
  decide +kernel

/-- Of the runs beyond ASCII only the kelvin sign, with `k`, has a lower case in ASCII. -/
theorem all_ascii : caseRuns.all (fun r => Nat.ble 0x80 r.lowers.1 || Nat.blt r.last 0x80 ||
    (Nat.beq r.lowers.1 0x6B && Nat.beq r.lowers.2 0x6B)) = true := by
  decide +kernel

/-! ## One character -/

theorem toNat_ofNat {n : Nat} (h : n.isValidChar) : (Char.ofNat n).toNat = n := by
  rw [Char.ofNat, dif_pos h]
  rfl

/-- A character is its own lower case, or a run gives its lower case. -/
theorem lowerChar_eq (c : Char) : lowerChar c = c ∨
    ∃ r ∈ caseRuns, r.Holds c.toNat ∧ (lowerChar c).toNat = (c.toNat + r.distance).toNat := by
  obtain h | ⟨r, hr, hn, h⟩ := lowerIn_eq caseRuns c.toNat
  · exact Or.inl (by rw [lowerChar, h, Char.ofNat_toNat])
  · refine Or.inr ⟨r, hr, hn, ?_⟩
    obtain ⟨hfirst, hlast⟩ := hn.mem_lowers
    have hvalid := List.all_eq_true.mp all_valid r hr
    simp only [Bool.and_eq_true, Bool.or_eq_true, Nat.blt_eq] at hvalid
    rw [lowerChar, h, toNat_ofNat]
    rw [Nat.isValidChar]
    omega

/-- A character is its own lower case, or its lower case is a letter. -/
theorem lowerChar_eq_or_isAlphabetic (c : Char) :
    lowerChar c = c ∨ isAlphabetic (lowerChar c) = true := by
  obtain h | ⟨r, hr, hn, h⟩ := lowerChar_eq c
  · exact Or.inl h
  · obtain ⟨hfirst, hlast⟩ := hn.mem_lowers
    obtain ⟨s, hs, hcovers⟩ := List.any_eq_true.mp (List.all_eq_true.mp all_alphabetic r hr)
    rw [Bool.and_eq_true, Nat.ble_eq, Nat.ble_eq] at hcovers
    refine Or.inr ((inSpans_iff ascending_alphabetic).mpr ⟨s, hs, ?_⟩)
    omega

/-- A lower case is its own lower case. -/
theorem lowerChar_lowerChar (c : Char) : lowerChar (lowerChar c) = lowerChar c := by
  obtain h | ⟨r, hr, hn, h⟩ := lowerChar_eq c
  · rw [h, h]
  · obtain ⟨hfirst, hlast⟩ := hn.mem_lowers
    have hvalid := List.all_eq_true.mp all_valid r hr
    rw [Bool.and_eq_true, Nat.blt_eq] at hvalid
    have hfix := lowerIn_of_avoids (h ▸ hfirst) (h ▸ hlast)
      (fun halt => h ▸ hn.parity halt hvalid.1) (List.all_eq_true.mp all_settled r hr)
    rw [lowerChar, hfix, Char.ofNat_toNat]

theorem lowerChar_ne_dotted {c : Char} (hc : c ≠ 'İ') : lowerChar c ≠ 'İ' := by
  obtain h | ⟨r, hr, hn, h⟩ := lowerChar_eq c
  · rw [h]
    exact hc
  · intro heq
    obtain ⟨hfirst, hlast⟩ := hn.mem_lowers
    have hdotted := List.all_eq_true.mp all_undotted r hr
    rw [Bool.or_eq_true, Nat.blt_eq, Nat.blt_eq] at hdotted
    have hnum : (lowerChar c).toNat = 0x130 := congrArg Char.toNat heq
    omega

/-- The lower case of a character of ASCII is that of ASCII. -/
theorem lowerChar_of_ascii {c : Char} (hc : c.toNat < 128) : lowerChar c = c.toLower := by
  have table : ∀ n < 128, Char.ofNat (lowerIn caseRuns n) = (Char.ofNat n).toLower := by
    decide +kernel
  have h := table c.toNat hc
  rwa [Char.ofNat_toNat] at h

theorem toLower_of_not_ascii {c : Char} (hc : 128 ≤ c.toNat) : c.toLower = c := by
  refine dif_neg ?_
  rintro ⟨-, hle⟩
  have : c.toNat ≤ 90 := hle
  omega

/-- Lower-casing before the case of ASCII is dropped makes no difference to a character that drops
to one of ASCII, the letter `k` apart. -/
theorem toLower_lowerChar {c x : Char} (hx : x.toNat < 128) (hk : x ≠ 'k') :
    (lowerChar c).toLower = x ↔ c.toLower = x := by
  by_cases hc : c.toNat < 128
  · rw [lowerChar_of_ascii hc]
    by_cases hlow : c.toLower.toNat < 128
    · rw [← lowerChar_of_ascii hlow, ← lowerChar_of_ascii hc, lowerChar_lowerChar]
    · rw [toLower_of_not_ascii (Nat.le_of_not_lt hlow)]
  · rw [toLower_of_not_ascii (Nat.le_of_not_lt hc)]
    obtain h | ⟨r, hr, hn, h⟩ := lowerChar_eq c
    · rw [h, toLower_of_not_ascii (Nat.le_of_not_lt hc)]
    · obtain ⟨hfirst, hlast⟩ := hn.mem_lowers
      have hbeyond := hn.le_last
      have hascii := List.all_eq_true.mp all_ascii r hr
      simp only [Bool.or_eq_true, Bool.and_eq_true, Nat.ble_eq, Nat.blt_eq, Nat.beq_eq] at hascii
      refine iff_of_false ?_ (fun heq => hc (heq ▸ hx))
      intro heq
      obtain (hle | hlt) | ⟨hle, hge⟩ := hascii
      · rw [toLower_of_not_ascii (by omega)] at heq
        exact absurd (heq ▸ hx) (by omega)
      · omega
      · have hkelvin : lowerChar c = 'k' := by
          rw [← Char.ofNat_toNat (lowerChar c), show (lowerChar c).toNat = 0x6B by omega]
        rw [hkelvin] at heq
        exact hk heq.symm

/-- The members of the runs are letters. -/
theorem CaseRun.Holds.isAlphabetic {r : CaseRun} {c : Char} (h : r.Holds c.toNat)
    (hr : r ∈ caseRuns) : isAlphabetic c = true := by
  have hfirst := h.first_le
  have hlast := h.le_last
  have hmembers := List.all_eq_true.mp all_members_alphabetic r hr
  rw [Bool.or_eq_true] at hmembers
  obtain hcovers | hall := hmembers
  · obtain ⟨s, hs, hcovers⟩ := List.any_eq_true.mp hcovers
    rw [Bool.and_eq_true, Nat.ble_eq, Nat.ble_eq] at hcovers
    refine (inSpans_iff ascending_alphabetic).mpr ⟨s, hs, ?_⟩
    exact ⟨Nat.le_trans hcovers.1 hfirst, Nat.le_trans hlast hcovers.2⟩
  · refine List.all_eq_true.mp hall c.toNat
      (List.mem_range'.mpr ⟨(c.toNat - r.first) / r.step, ?_, ?_⟩)
    · exact Nat.lt_succ_of_le (Nat.div_le_div_right (by omega))
    · rw [Nat.mul_div_cancel' (Nat.dvd_of_mod_eq_zero h.steps)]
      omega

/-- Nothing but itself becomes a character that is not alphabetic. -/
theorem lowerChar_eq_iff {c x : Char} (halpha : isAlphabetic x = false) :
    lowerChar c = x ↔ c = x := by
  have key : ∀ d, isAlphabetic d = false → lowerChar d = d := by
    intro d hd
    obtain h | ⟨r, hr, hn, -⟩ := lowerChar_eq d
    · exact h
    · rw [hn.isAlphabetic hr] at hd
      cases hd
  constructor
  · rintro rfl
    obtain h | h := lowerChar_eq_or_isAlphabetic c
    · exact h.symm
    · rw [h] at halpha
      cases halpha
  · rintro rfl
    exact key c halpha

/-! ## Lower case inside a text -/

/-- The lower case of a text between the characters before it, nearest first, and those after it. -/
def lowerWithin (before : List Char) : List Char → List Char → List Char
  | [], _ => []
  | c :: cs, after => lowerBetween before c (cs ++ after) ++ lowerWithin (c :: before) cs after

/-- At the end of a text nothing comes after it. -/
theorem lowerWithin_nil : ∀ before text : List Char,
    lowerWithin before text [] = lowerAfter before text
  | before, [] => rfl
  | before, c :: cs => by
      rw [lowerWithin, List.append_nil, lowerWithin_nil (c :: before) cs, lowerAfter]

/-! ## Settled characters -/

/-- A character that lower-casing keeps, whatever stands around it. -/
structure Settled (c : Char) : Prop where
  /-- It has no final form. -/
  ne_sigma : c ≠ 'Σ'
  /-- It does not become two. -/
  ne_dotted : c ≠ 'İ'
  /-- It is its own lower case. -/
  lowerChar_eq : lowerChar c = c

theorem Settled.lowerBetween_eq {c : Char} (h : Settled c) (before after : List Char) :
    lowerBetween before c after = [c] := by
  rw [lowerBetween, if_neg h.ne_sigma, if_neg h.ne_dotted, h.lowerChar_eq]

theorem settled_lowerChar {c : Char} (hc : c ≠ 'İ') : Settled (lowerChar c) := by
  refine ⟨?_, lowerChar_ne_dotted hc, lowerChar_lowerChar c⟩
  intro heq
  have h := lowerChar_lowerChar c
  rw [heq] at h
  exact absurd h (by decide +kernel)

theorem settled_of_fixed {c : Char} (h : lowerChar c = c) (hc : c ≠ 'İ') : Settled c :=
  h ▸ settled_lowerChar hc

/-- Letter case is for letters. -/
theorem settled_of_not_isAlphabetic {c : Char} (h : isAlphabetic c = false) : Settled c := by
  refine settled_of_fixed ((lowerChar_eq_iff h).mpr rfl) ?_
  rintro rfl
  exact absurd h (by decide +kernel)

/-- The two characters of many forms, and all others. -/
theorem lowerBetween_cases (before : List Char) (c : Char) (after : List Char) :
    (c = 'Σ' ∧ (lowerBetween before c after = ['σ'] ∨ lowerBetween before c after = ['ς'])) ∨
    (c = 'İ' ∧ lowerBetween before c after = ['i', '\u0307']) ∨
    (c ≠ 'İ' ∧ lowerBetween before c after = [lowerChar c]) := by
  rw [lowerBetween]
  split
  case isTrue hsigma =>
    refine Or.inl ⟨hsigma, ?_⟩
    split
    · exact Or.inr rfl
    · exact Or.inl rfl
  case isFalse =>
    split
    case isTrue hdotted => exact Or.inr (Or.inl ⟨hdotted, rfl⟩)
    case isFalse hdotted => exact Or.inr (Or.inr ⟨hdotted, rfl⟩)

/-- What a character becomes is settled. -/
theorem settled_of_mem_lowerBetween {before after : List Char} {c d : Char}
    (h : d ∈ lowerBetween before c after) : Settled d := by
  obtain ⟨-, heq | heq⟩ | ⟨-, heq⟩ | ⟨hc, heq⟩ := lowerBetween_cases before c after
  · obtain rfl := List.mem_singleton.mp (heq ▸ h)
    exact settled_of_fixed (by decide +kernel) (by decide)
  · obtain rfl := List.mem_singleton.mp (heq ▸ h)
    exact settled_of_fixed (by decide +kernel) (by decide)
  · rw [heq, List.mem_cons, List.mem_singleton] at h
    obtain rfl | rfl := h
    · exact settled_of_fixed (by decide +kernel) (by decide)
    · exact settled_of_fixed (by decide +kernel) (by decide)
  · obtain rfl := List.mem_singleton.mp (heq ▸ h)
    exact settled_lowerChar hc

/-- Every character of a lower-cased text comes from a character of the text. -/
theorem exists_of_mem_lowerWithin {d : Char} :
    ∀ {text before after : List Char}, d ∈ lowerWithin before text after →
      ∃ c ∈ text, ∃ before' after', d ∈ lowerBetween before' c after'
  | c :: cs, before, after, h => by
      rw [lowerWithin, List.mem_append] at h
      obtain h | h := h
      · exact ⟨c, List.mem_cons_self, before, cs ++ after, h⟩
      · obtain ⟨c', hc', hd⟩ := exists_of_mem_lowerWithin h
        exact ⟨c', List.mem_cons_of_mem c hc', hd⟩

/-- A lower-cased text holds settled characters only. -/
theorem settled_of_mem_lowerAfter {d : Char} {cs before : List Char}
    (h : d ∈ lowerAfter before cs) : Settled d := by
  rw [← lowerWithin_nil] at h
  obtain ⟨c, -, before', after', hd⟩ := exists_of_mem_lowerWithin h
  exact settled_of_mem_lowerBetween hd

/-- A text of settled characters is in lower case. -/
theorem lowerWithin_of_settled :
    ∀ {text : List Char} (before after : List Char), (∀ c ∈ text, Settled c) →
      lowerWithin before text after = text
  | [], _, _, _ => rfl
  | c :: cs, before, after, h => by
      rw [lowerWithin, (h c List.mem_cons_self).lowerBetween_eq,
        lowerWithin_of_settled _ _ fun d hd => h d (List.mem_cons_of_mem c hd)]
      rfl

theorem lowerAfter_of_settled {cs : List Char} (before : List Char) (h : ∀ c ∈ cs, Settled c) :
    lowerAfter before cs = cs := by
  rw [← lowerWithin_nil, lowerWithin_of_settled before [] h]

theorem lower_lower (cs : List Char) : lower (lower cs) = lower cs :=
  lowerAfter_of_settled [] fun _ => settled_of_mem_lowerAfter

/-! ## Marks and words -/

/-- A mark: a character that ends a word and that no rule of letter case looks beyond. -/
structure Mark (c : Char) : Prop where
  /-- It stands in no word. -/
  not_alphanumeric : isAlphanumeric c = false
  /-- It is no cased letter. -/
  not_cased : isCased c = false
  /-- It is not passed over when a cased letter is looked for. -/
  not_ignorable : isCaseIgnorable c = false

theorem Mark.settled {c : Char} (h : Mark c) : Settled c := by
  have halpha := h.not_alphanumeric
  rw [isAlphanumeric, Bool.or_eq_false_iff] at halpha
  exact settled_of_not_isAlphabetic halpha.1

/-- A code point that a table finds has what every code point of its spans has. -/
theorem of_inSpans {table : List Span} {p : Nat → Bool}
    (h : (table.all fun s => (List.range' s.1 (s.2 + 1 - s.1)).all p) = true) {n : Nat}
    (hn : inSpans table n = true) : p n = true := by
  obtain ⟨s, hs, hfirst, hlast⟩ := exists_span_of_inSpans hn
  refine List.all_eq_true.mp (List.all_eq_true.mp h s hs) n ?_
  rw [List.mem_range'_1]
  omega

/-- Whether a code point is that of a mark. -/
def isMarkCode (n : Nat) : Bool :=
  !inSpans alphabeticSpans n && !inSpans numericSpans n && !inSpans casedSpans n &&
    !inSpans caseIgnorableSpans n

theorem mark_of_isMarkCode {c : Char} (h : isMarkCode c.toNat = true) : Mark c := by
  simp only [isMarkCode, Bool.and_eq_true, Bool.not_eq_true'] at h
  obtain ⟨⟨⟨halpha, hnumeric⟩, hcased⟩, hignorable⟩ := h
  refine ⟨?_, hcased, hignorable⟩
  rw [isAlphanumeric, isAlphabetic, halpha, hnumeric]
  rfl

theorem mark_of_isBlank {c : Char} (h : isBlank c = true) : Mark c :=
  mark_of_isMarkCode (of_inSpans (by decide +kernel) h)

/-- A word is an alphabetic character and alphanumeric ones after it. -/
structure IsWord (cs : List Char) : Prop where
  /-- The first character is alphabetic. -/
  head : ∃ c rest, cs = c :: rest ∧ isAlphabetic c = true
  /-- Every character is alphanumeric. -/
  all : ∀ c ∈ cs, isAlphanumeric c = true

theorem isAlphanumeric_of_isAlphabetic {c : Char} (h : isAlphabetic c = true) :
    isAlphanumeric c = true := by
  rw [isAlphanumeric, h, Bool.true_or]

theorem not_isBlank_of_isAlphanumeric {c : Char} (h : isAlphanumeric c = true) :
    isBlank c = false := by
  rw [Bool.eq_false_iff]
  intro hblank
  rw [(mark_of_isBlank hblank).not_alphanumeric] at h
  cases h

theorem isAlphabetic_lowerChar {c : Char} (h : isAlphabetic c = true) :
    isAlphabetic (lowerChar c) = true := by
  obtain heq | halpha := lowerChar_eq_or_isAlphabetic c
  · rw [heq]
    exact h
  · exact halpha

/-- An alphabetic character becomes a letter and perhaps more. -/
theorem exists_lowerBetween_eq_cons {c : Char} (h : isAlphabetic c = true)
    (before after : List Char) :
    ∃ d ds, lowerBetween before c after = d :: ds ∧ isAlphabetic d = true := by
  obtain ⟨-, heq | heq⟩ | ⟨-, heq⟩ | ⟨-, heq⟩ := lowerBetween_cases before c after
  · exact ⟨_, _, heq, by decide +kernel⟩
  · exact ⟨_, _, heq, by decide +kernel⟩
  · exact ⟨_, _, heq, by decide +kernel⟩
  · exact ⟨_, _, heq, isAlphabetic_lowerChar h⟩

/-- A character stays, or is a letter and becomes letters and perhaps a combining dot. -/
theorem mem_lowerBetween {before after : List Char} {c d : Char}
    (h : d ∈ lowerBetween before c after) : d = c ∨ isAlphabetic d = true ∨ d = '\u0307' := by
  cases hc : isAlphabetic c with
  | false =>
      rw [(settled_of_not_isAlphabetic hc).lowerBetween_eq] at h
      exact Or.inl (List.mem_singleton.mp h)
  | true =>
      refine Or.inr ?_
      obtain ⟨-, heq | heq⟩ | ⟨-, heq⟩ | ⟨-, heq⟩ := lowerBetween_cases before c after
      · obtain rfl := List.mem_singleton.mp (heq ▸ h)
        exact Or.inl (by decide +kernel)
      · obtain rfl := List.mem_singleton.mp (heq ▸ h)
        exact Or.inl (by decide +kernel)
      · rw [heq, List.mem_cons, List.mem_singleton] at h
        obtain rfl | rfl := h
        · exact Or.inl (by decide +kernel)
        · exact Or.inr rfl
      · obtain rfl := List.mem_singleton.mp (heq ▸ h)
        exact Or.inl (isAlphabetic_lowerChar hc)

theorem isAlphanumeric_of_mem_lowerAfter {d : Char} (hdot : d ≠ '\u0307') {cs before : List Char}
    (h : ∀ c ∈ cs, isAlphanumeric c = true) (hd : d ∈ lowerAfter before cs) :
    isAlphanumeric d = true := by
  rw [← lowerWithin_nil] at hd
  obtain ⟨c, hc, before', after', hd⟩ := exists_of_mem_lowerWithin hd
  obtain rfl | halpha | rfl := mem_lowerBetween hd
  · exact h d hc
  · exact isAlphanumeric_of_isAlphabetic halpha
  · exact absurd rfl hdot

/-- The lower case of a word begins with a letter. -/
theorem IsWord.exists_lower_eq_cons {cs : List Char} (h : IsWord cs) :
    ∃ d ds, Text.lower cs = d :: ds ∧ isAlphabetic d = true := by
  obtain ⟨c, rest, rfl, hc⟩ := h.head
  obtain ⟨d, ds, hd, halpha⟩ := exists_lowerBetween_eq_cons hc [] rest
  exact ⟨d, ds ++ lowerAfter [c] rest, by rw [Text.lower, lowerAfter, hd]; rfl, halpha⟩

/-- A word without a combining dot in its lower case is a word in lower case. -/
theorem IsWord.lower {cs : List Char} (h : IsWord cs) (hdot : '\u0307' ∉ Text.lower cs) :
    IsWord (Text.lower cs) := by
  refine ⟨h.exists_lower_eq_cons, fun d hd => ?_⟩
  exact isAlphanumeric_of_mem_lowerAfter (fun heq => hdot (heq ▸ hd)) h.all hd

/-! ## Keywords -/

/-- Lower-casing makes no difference to a text that is compared with a text of ASCII in which no `k`
stands and the case of ASCII is dropped. -/
theorem map_toLower_lowerAfter :
    ∀ {s : List Char}, (∀ x ∈ s, x.toNat < 128 ∧ x ≠ 'k') → ∀ (cs before : List Char),
      (lowerAfter before cs).map Char.toLower = s ↔ cs.map Char.toLower = s
  | s, _, [], _ => Iff.rfl
  | [], _, c :: cs, before => by
      obtain ⟨d, ds, hd⟩ := List.exists_cons_of_ne_nil (lowerBetween_ne_nil before c cs)
      rw [lowerAfter, hd]
      exact iff_of_false (List.cons_ne_nil _ _) (List.cons_ne_nil _ _)
  | x :: s, h, c :: cs, before => by
      obtain ⟨hx, hk⟩ := h x List.mem_cons_self
      have ih :=
        map_toLower_lowerAfter (fun y hy => h y (List.mem_cons_of_mem x hy)) cs (c :: before)
      have far : ∀ d : Char, 128 ≤ d.toNat → d.toLower ≠ x := by
        intro d hd heq
        rw [toLower_of_not_ascii hd] at heq
        exact absurd hx (Nat.not_lt.mpr (heq ▸ hd))
      rw [lowerAfter, List.map_append, List.map_cons, List.cons.injEq]
      obtain ⟨rfl, heq | heq⟩ | ⟨rfl, heq⟩ | ⟨-, heq⟩ := lowerBetween_cases before c cs
      · rw [heq, List.map_singleton, List.singleton_append, List.cons.injEq]
        exact iff_of_false (fun h => far 'σ' (by decide) h.1) fun h => far 'Σ' (by decide) h.1
      · rw [heq, List.map_singleton, List.singleton_append, List.cons.injEq]
        exact iff_of_false (fun h => far 'ς' (by decide) h.1) fun h => far 'Σ' (by decide) h.1
      · refine iff_of_false (fun hmap => ?_) fun h => far 'İ' (by decide) h.1
        -- the dot after the small letter is in no text of ASCII
        rw [heq] at hmap
        obtain ⟨-, htail⟩ := List.cons.inj hmap
        have hdot : '\u0307' ∈ x :: s := by
          rw [← htail]
          exact List.mem_cons_of_mem x List.mem_cons_self
        exact absurd (h _ hdot).1 (by decide)
      · rw [heq, List.map_singleton, List.singleton_append, List.cons.injEq,
          toLower_lowerChar hx hk, ih]

theorem sameIgnoringAsciiCase_iff {cs : List Char} {s : String} :
    sameIgnoringAsciiCase (String.ofList cs) s = true ↔
      cs.map Char.toLower = s.toList.map Char.toLower := by
  rw [sameIgnoringAsciiCase, String.toList_ofList, beq_iff_eq]

/-- A text is a keyword exactly if its lower case is. -/
theorem ofKeyword?_lower (cs : List Char) :
    Connective.ofKeyword? (String.ofList (lower cs)) =
      Connective.ofKeyword? (String.ofList cs) := by
  have same : ∀ s : String,
      ((s.toList.map Char.toLower).all fun x => decide (x.toNat < 128 ∧ x ≠ 'k')) = true →
      sameIgnoringAsciiCase (String.ofList (lower cs)) s =
        sameIgnoringAsciiCase (String.ofList cs) s := by
    intro s hs
    rw [Bool.eq_iff_iff, sameIgnoringAsciiCase_iff, sameIgnoringAsciiCase_iff]
    exact map_toLower_lowerAfter
      (fun x hx => of_decide_eq_true (List.all_eq_true.mp hs x hx)) cs []
  rw [Connective.ofKeyword?, Connective.ofKeyword?, same "and" (by decide), same "or" (by decide)]

end Rulebook.Text
