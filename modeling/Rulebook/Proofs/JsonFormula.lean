import Rulebook.Proofs.CanonicalText
import Rulebook.Proofs.JsonText
import Rulebook.Rule.Json

/-!
# Formulas in JSON

A formula that was read from a text is written as JSON and read back (`ofJsonText?_compact`).
Two things can go wrong.

* A reader of JSON takes no more than 127 arrays and objects inside one another.  A joined
  formula is an object with an array in it, so a formula of height `n` needs `2 * n - 1`
  levels (`levels_toJson`), and one that is higher than 64 is refused.  The language itself
  allows eight times this height (`ofJsonText?_stack`).
* A double may come back as another one.

Everything else is kept.  So a formula of at most that height comes back with its doubles
as they are read back, and is the same formula exactly if each of them is the same double.
-/

namespace Rulebook

/-- A double keeps its sign in JSON, so an equal double comes back only where the same one does. -/
theorem Binary64.same_restored_iff (x : Binary64) : x.same x.restored = true ↔ x.restored = x := by
  constructor
  · intro h
    have hsigned := eq_of_beq h
    have hmagnitude : x.numeral.magnitude = x.rank := by
      simp only [signedRank, restored] at hsigned
      split at hsigned <;> omega
    rw [restored]
    simp only [hmagnitude]
  · intro h
    rw [h, same, beq_self_eq_true]

/-! ## Values -/

namespace Value

/-- A value as it comes back from JSON. -/
def restored : Value → Value
  | .integer i => .integer i
  | .real x => .real x.restored
  | .text s => .text s

theorem ofJson?_toJson (v : Value) : ofJson? v.toJson = some v := by
  cases v with
  | integer i => simp only [toJson, ofJson?, wholeOf?_toInt]
  | real x => rfl
  | text s => rfl

theorem restored_toJson (v : Value) : v.toJson.restored = v.restored.toJson := by
  cases v
  all_goals rw [toJson, Json.restored, restored, toJson]

theorem fits_toJson (v : Value) : v.toJson.Fits := by
  cases v with
  | integer i =>
      have hle := i.le_toInt
      have hlt := i.toInt_lt
      have h63 : pow2 63 = 9223372036854775808 := rfl
      have h64 : pow2 64 = 18446744073709551616 := rfl
      rw [toJson, Json.Fits]
      omega
  | real x =>
      rw [toJson, Json.Fits]
      trivial
  | text s =>
      rw [toJson, Json.Fits]
      trivial

theorem levels_toJson (v : Value) : v.toJson.levels = 0 := by
  cases v
  all_goals rw [toJson, Json.levels]

/-- A value comes back as an equal one if it is not a double, or if the double is the same. -/
theorem same_restored_iff (v : Value) :
    v.same v.restored = true ↔ ∀ x, v = .real x → x.restored = x := by
  cases v with
  | integer i =>
      rw [restored, same_self]
      exact iff_of_true rfl fun x h => nomatch h
  | text s =>
      rw [restored, same_self]
      exact iff_of_true rfl fun x h => nomatch h
  | real x =>
      rw [restored, same, x.same_restored_iff]
      constructor
      · intro h y hy
        cases hy
        exact h
      · exact fun h => h x rfl

end Value

/-- A comparison as it comes back from JSON. -/
def Comparison.restored (c : Comparison) : Comparison := ⟨c.field, c.comparator, c.literal.restored⟩

namespace Formula

mutual

/-- A formula as it comes back from JSON. -/
def restored : Formula → Formula
  | .leaf c => .leaf c.restored
  | .joined k parts => .joined k (restoredAll parts)

/-- Formulas as they come back from JSON. -/
def restoredAll : List Formula → List Formula
  | [] => []
  | f :: fs => restored f :: restoredAll fs

end

/-! ## The JSON of a formula -/

mutual

theorem restored_toJson : ∀ f : Formula, f.toJson.restored = f.restored.toJson
  | .leaf c => by
      simp only [toJson, restored, Comparison.restored, Json.restored, Json.restoredMembers,
        Value.restored_toJson]
  | .joined k parts => by
      simp only [toJson, restored, Json.restored, Json.restoredMembers,
        restoredAll_toJsonAll parts]

theorem restoredAll_toJsonAll : ∀ fs : List Formula,
    Json.restoredAll (toJsonAll fs) = toJsonAll (restoredAll fs)
  | [] => by rw [toJsonAll, Json.restoredAll, restoredAll, toJsonAll]
  | f :: fs => by
      rw [toJsonAll, Json.restoredAll, restoredAll, toJsonAll, restored_toJson f,
        restoredAll_toJsonAll fs]

end

mutual

theorem fits_toJson : ∀ f : Formula, f.toJson.Fits
  | .leaf c => by
      simp only [toJson, Json.Fits, Json.FitMembers, c.literal.fits_toJson, and_self]
  | .joined k parts => by
      simp only [toJson, Json.Fits, Json.FitMembers, fitAll_toJsonAll parts, and_self]

theorem fitAll_toJsonAll : ∀ fs : List Formula, Json.FitAll (toJsonAll fs)
  | [] => by
      rw [toJsonAll, Json.FitAll]
      trivial
  | f :: fs => by
      rw [toJsonAll, Json.FitAll]
      exact ⟨fits_toJson f, fitAll_toJsonAll fs⟩

end

/-- A formula needs a level of JSON, and two more for every operator above it. -/
theorem levels_toJson {f : Formula} (h : f.Paired) : f.toJson.levels + 1 = 2 * f.height := by
  induction h with
  | leaf c =>
      simp only [toJson, Json.levels, Json.levelsOfMembers, c.literal.levels_toJson, height,
        Nat.max_self]
  | @pair k f g _ _ hf hg =>
      simp only [toJson, toJsonAll, Json.levels, Json.levelsOfMembers, Json.levelsOfAll, height,
        heightOfAll]
      omega

mutual

/-- The JSON of a formula stands for the formula. -/
theorem read?_toJson : ∀ (f : Formula) (child : Bool), read? child f.toJson = some f
  | .leaf c, child => by
      simp only [toJson, read?, gather, String.reduceEq, ↓reduceIte, ofMembers?, kindOf?, leafOf?,
        nameOf?, Option.bind_some, Comparator.ofSymbol?_symbol, c.literal.ofJson?_toJson,
        Option.bind_eq_bind, Option.pure_def]
  | .joined k parts, child => by
      have hkeyword : connectiveOf? k.keyword = some k := by cases k <;> decide
      simp only [toJson, read?, gather, String.reduceEq, ↓reduceIte, ofMembers?, kindOf?,
        joinedOf?, nameOf?, childrenOf, Option.bind_some, hkeyword, readAll?_toJsonAll parts,
        Option.bind_eq_bind, Option.pure_def]

theorem readAll?_toJsonAll : ∀ fs : List Formula, readAll? (toJsonAll fs) = some fs
  | [] => by rw [toJsonAll, readAll?]
  | f :: fs => by
      rw [toJsonAll, readAll?, read?_toJson f true]
      simp only [readAll?_toJsonAll fs]

end

mutual

/-- What comes back is the same formula exactly if every double is. -/
theorem same_restored_iff : ∀ f : Formula, f.same f.restored = true ↔
    ∀ c ∈ f.comparisons, ∀ x, c.literal = .real x → x.restored = x
  | .leaf c => by
      rw [restored, Comparison.restored, same, comparisons]
      simp only [beq_self_eq_true, Bool.true_and, c.literal.same_restored_iff,
        List.mem_singleton, forall_eq]
  | .joined k parts => by
      rw [restored, same, comparisons]
      simp only [beq_self_eq_true, Bool.true_and, sameAll_restoredAll_iff parts]

theorem sameAll_restoredAll_iff : ∀ fs : List Formula, sameAll fs (restoredAll fs) = true ↔
    ∀ c ∈ comparisonsOfAll fs, ∀ x, c.literal = .real x → x.restored = x
  | [] => by
      rw [restoredAll, sameAll, comparisonsOfAll]
      exact iff_of_true rfl fun c hc => nomatch hc
  | f :: fs => by
      rw [restoredAll, sameAll, comparisonsOfAll, Bool.and_eq_true, same_restored_iff f,
        sameAll_restoredAll_iff fs, List.forall_mem_append]

end

mutual

theorem restored_eq_self : ∀ f : Formula,
    (∀ c ∈ f.comparisons, ∀ x, c.literal = .real x → x.restored = x) → f.restored = f
  | .leaf c, h => by
      rw [comparisons] at h
      have hc : c.literal.restored = c.literal := by
        cases hv : c.literal with
        | integer i => rfl
        | real x => rw [Value.restored, h c (List.mem_singleton_self c) x hv]
        | text s => rfl
      rw [restored, Comparison.restored, hc]
  | .joined k parts, h => by
      rw [comparisons] at h
      rw [restored, restoredAll_eq_self parts h]

theorem restoredAll_eq_self : ∀ fs : List Formula,
    (∀ c ∈ comparisonsOfAll fs, ∀ x, c.literal = .real x → x.restored = x) → restoredAll fs = fs
  | [], _ => by rw [restoredAll]
  | f :: fs, h => by
      rw [comparisonsOfAll, List.forall_mem_append] at h
      rw [restoredAll, restored_eq_self f h.1, restoredAll_eq_self fs h.2]

end

/-! ## The text of the JSON -/

/-- The JSON of a formula whose operators all join two parts is read back up to a height of 64. -/
theorem ofJsonText?_compact {f : Formula} (h : f.Paired) :
    ofJsonText? f.toJson.compact = if f.height ≤ 64 then some f.restored else none := by
  have hlevels := levels_toJson h
  have hnesting : Json.maxNesting = 127 := rfl
  have hread : ofJson? f.restored.toJson = some f.restored := read?_toJson f.restored false
  rw [ofJsonText?, Json.parse?_compact f.fits_toJson, restored_toJson]
  by_cases hheight : f.height ≤ 64
  · rw [if_pos (by omega), if_pos hheight, Option.bind_some, hread]
  · rw [if_neg (by omega), if_neg hheight, Option.bind_none]

/-- A chain of comparisons, each with the rest of them to its right. -/
def stack : Nat → Formula
  | 0 => .leaf ⟨"a", .gt, .integer 1⟩
  | n + 1 => .joined .and [.leaf ⟨"a", .gt, .integer 1⟩, stack n]

theorem paired_stack : ∀ n, (stack n).Paired
  | 0 => .leaf _
  | n + 1 => .pair .and (.leaf _) (paired_stack n)

theorem height_stack : ∀ n, (stack n).height = n + 1
  | 0 => by rw [stack, height]
  | n + 1 => by
      rw [stack, height, heightOfAll, heightOfAll, heightOfAll, height, height_stack n]
      omega

theorem eq_of_mem_comparisons_stack {c : Comparison} : ∀ {n}, c ∈ (stack n).comparisons →
    c = ⟨"a", .gt, .integer 1⟩
  | 0, h => by
      rw [stack, comparisons] at h
      exact List.mem_singleton.mp h
  | n + 1, h => by
      rw [stack, comparisons_pair, comparisons, List.singleton_append] at h
      exact (List.mem_cons.mp h).elim id eq_of_mem_comparisons_stack

/-- A chain of up to 512 comparisons is a rule, and beyond 64 of them its JSON is not read. -/
theorem ofJsonText?_stack {n : Nat} (h : n < maxNesting) :
    parseRule (stack n).text = .ok (stack n) ∧
      (ofJsonText? (stack n).toJson.compact = none ↔ 64 ≤ n) := by
  have hplain : Comparison.Plain ⟨"a", .gt, .integer 1⟩ :=
    ⟨⟨0, by decide +kernel⟩, Or.inl rfl, by
      rw [Value.Plain]
      decide⟩
  have hreread : Comparison.reread ⟨"a", .gt, .integer 1⟩ = ⟨"a", .gt, .integer 1⟩ := by
    rw [Comparison.reread, Value.reread_integer (by decide)]
  have hlexemes : lexemes? (stack n).text.toList = some (stack n).chain.lexemes := by
    have hscans : ∀ c ∈ (stack n).comparisons, c.Scans := fun c hc =>
      eq_of_mem_comparisons_stack hc ▸ hplain.scans
    have := lexemes?_text (stack n) [] (paired_stack n).one_le hscans fun c hc => by cases hc
    rw [List.append_nil, lexemes?_nil, Option.map_some, List.append_nil] at this
    exact this
  have hchain : (stack n).chain.formula = stack n := (paired_stack n).formula_chain fun c hc => by
    rw [eq_of_mem_comparisons_stack hc, hreread]
  have hnesting := (paired_stack n).nesting_chain_le_height
  rw [height_stack] at hnesting
  rw [parseRule_of_lexemes hlexemes, if_pos (Nat.le_trans hnesting h), hchain,
    ofJsonText?_compact (paired_stack n), height_stack]
  refine ⟨rfl, ?_⟩
  split
  case isTrue hle => exact iff_of_false (Option.some_ne_none _) (by omega)
  case isFalse hgt => exact iff_of_true rfl (by omega)

end Formula

/-! ## Rules that were read -/

/-- Whether a value is no double, or one with few digits and a small power of ten. -/
def Value.Short : Value → Prop
  | .real x =>
      x.numeral.decimal.coefficient < pow2 53 ∧ x.numeral.decimal.exponent.natAbs ≤ 22
  | .integer _ | .text _ => True

open Formula (ofJsonText?) in
/-- A formula that was read from a text comes back from its JSON exactly if it is no higher than 64,
and then it is the same exactly if its doubles are.  Short doubles are. -/
theorem ofJsonText?_of_parseRule {text : String} {f : Formula} (h : parseRule text = .ok f) :
    (ofJsonText? f.toJson.compact = if f.height ≤ 64 then some f.restored else none) ∧
    ((∃ g, ofJsonText? f.toJson.compact = some g ∧ f.same g = true) ↔
      f.height ≤ 64 ∧ ∀ c ∈ f.comparisons, ∀ x, c.literal = .real x → x.restored = x) ∧
    (f.height ≤ 64 → (∀ c ∈ f.comparisons, c.literal.Short) →
      ofJsonText? f.toJson.compact = some f) := by
  have hpaired := (parseRule_text h).1
  have hread := Formula.ofJsonText?_compact hpaired
  refine ⟨hread, ?_, fun hheight hshort => ?_⟩
  · rw [← f.same_restored_iff, hread]
    constructor
    · rintro ⟨g, hg, hsame⟩
      split at hg
      case isTrue hheight =>
        cases hg
        exact ⟨hheight, hsame⟩
      case isFalse => cases hg
    · rintro ⟨hheight, hsame⟩
      exact ⟨f.restored, if_pos hheight, hsame⟩
  · have hself : f.restored = f := f.restored_eq_self fun c hc x hx => by
      have := hshort c hc
      rw [hx] at this
      exact Binary64.restored_eq_self this.1 this.2
    rw [hread, if_pos hheight, hself]

/-- A rule with a double, a text and a whole number comes back as it was. -/
theorem ofJsonText?_of_parseRule_short :
    ∃ f, parseRule "a > 0.125 and (b = 'x' or c < 3)" = .ok f ∧ f.height ≤ 64 ∧
      (∀ c ∈ f.comparisons, c.literal.Short) ∧ Formula.ofJsonText? f.toJson.compact = some f := by
  have htok : tokenize "a > 0.125 and (b = 'x' or c < 3)" = .ok [⟨.field "a", 0⟩,
      ⟨.comparator .gt, 2⟩, ⟨.value (.real (Binary64.ofQuotient false 1 8)), 4⟩,
      ⟨.connective .and, 10⟩, ⟨.opening, 14⟩, ⟨.field "b", 15⟩, ⟨.comparator .eq, 17⟩,
      ⟨.value (.text "x"), 19⟩, ⟨.connective .or, 23⟩, ⟨.field "c", 26⟩, ⟨.comparator .lt, 28⟩,
      ⟨.value (.integer 3), 30⟩, ⟨.closing, 31⟩] := by
    decide +kernel
  have hread : parseRule "a > 0.125 and (b = 'x' or c < 3)" = .ok (.joined .and
      [.leaf ⟨"a", .gt, .real (Binary64.ofQuotient false 1 8)⟩,
        .joined .or [.leaf ⟨"b", .eq, .text "x"⟩, .leaf ⟨"c", .lt, .integer 3⟩]]) := by
    simp only [parseRule, htok]
    rfl
  have hshort : ∀ c ∈ ([⟨"a", .gt, .real (Binary64.ofQuotient false 1 8)⟩, ⟨"b", .eq, .text "x"⟩,
      ⟨"c", .lt, .integer 3⟩] : List Comparison), c.literal.Short := by
    have hreal : Value.Short (.real (Binary64.ofQuotient false 1 8)) := by
      rw [Value.Short]
      decide +kernel
    exact List.forall_mem_cons.mpr ⟨hreal, List.forall_mem_cons.mpr ⟨trivial,
      List.forall_mem_singleton.mpr trivial⟩⟩
  exact ⟨_, hread, by decide, hshort, (ofJsonText?_of_parseRule hread).2.2 (by decide) hshort⟩

/-- A double of sixteen digits comes back as the one below it. -/
theorem not_ofJsonText?_of_parseRule :
    ¬ ∀ (text : String) (f : Formula), parseRule text = .ok f →
      ∃ g, Formula.ofJsonText? f.toJson.compact = some g ∧ f.same g = true := by
  have htok : tokenize "v = 9007199254740991.0" = .ok [⟨.field "v", 0⟩, ⟨.comparator .eq, 2⟩,
      ⟨.value (.real (Binary64.ofQuotient false (pow2 53 - 1) 1)), 4⟩] := by
    decide +kernel
  have hread : parseRule "v = 9007199254740991.0" =
      .ok (.leaf ⟨"v", .eq, .real (Binary64.ofQuotient false (pow2 53 - 1) 1)⟩) := by
    simp only [parseRule, htok]
    rfl
  have hdouble : (Binary64.ofQuotient false (pow2 53 - 1) 1).restored =
      Binary64.ofQuotient false (pow2 53 - 2) 1 := by
    decide +kernel
  have hne : Binary64.ofQuotient false (pow2 53 - 2) 1 ≠
      Binary64.ofQuotient false (pow2 53 - 1) 1 := by
    decide +kernel
  intro hclaim
  obtain ⟨g, hg, hsame⟩ := hclaim _ _ hread
  rw [Formula.ofJsonText?_compact (.leaf _), if_pos (by decide)] at hg
  cases hg
  have hrestored := (Formula.same_restored_iff _).mp hsame _
    (by rw [Formula.comparisons]; exact List.mem_singleton_self _) _ rfl
  rw [hdouble] at hrestored
  exact hne hrestored

end Rulebook
