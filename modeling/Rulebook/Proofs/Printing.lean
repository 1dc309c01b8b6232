import Rulebook.Proofs.Literal

/-!
# The text of a formula and its tree

`chain` is the syntax tree of the text that is written for a formula.  The text shows the
parts of a joined formula one after the other and encloses all but the last, so the tree
is a chain whose links are the parts.  A formula that joins one part has the tree of that
part, and a formula that joins three groups them to the right.  So the tree means another
formula in general, `chain.formula`.

* `lexemes?_text` says that the text has the lexemes of the tree, if the scanner gets
  through every comparison, and `lexemes?_text_fault` that it has none if some comparison
  stops the scanner.  Both hold for any operator that has a part.
* `verdict_chain` says that the tree means a formula with the same verdicts.
* A *paired* formula is one whose operators all join two parts, as those of a formula
  that is read do.  Its tree means the formula itself, if the literals come back as they
  were (`Paired.formula_chain`), and nests no deeper than the formula is high
  (`Paired.nesting_chain_le_height`), nor than any tree that means the formula
  (`Chain.nesting_chain_formula`).
-/

namespace Rulebook

open Rulebook.Token (isNumeral)

namespace Formula

/-! ## Operators -/

mutual

/-- The numbers of parts that the operators of a formula join. -/
def arities : Formula → List Nat
  | .leaf _ => []
  | .joined _ parts => parts.length :: aritiesOfAll parts

/-- The numbers of parts that the operators of several formulas join. -/
def aritiesOfAll : List Formula → List Nat
  | [] => []
  | f :: fs => arities f ++ aritiesOfAll fs

end

mutual

/-- The number of formulas on the longest way from a formula to a comparison. -/
def height : Formula → Nat
  | .leaf _ => 1
  | .joined _ parts => heightOfAll parts + 1

/-- The greatest height of several formulas. -/
def heightOfAll : List Formula → Nat
  | [] => 0
  | f :: fs => max (height f) (heightOfAll fs)

end

end Formula

/-- A comparison with its literal as it is read back. -/
def Comparison.reread (c : Comparison) : Comparison := ⟨c.field, c.comparator, c.literal.reread⟩

/-- Whether the scanner gets through the text of a comparison. -/
def Comparison.Scans (c : Comparison) : Prop :=
  ∀ cs, Ends isNumeral cs → lexemes? ((Formula.comparisonText c).toList ++ cs) =
    (lexemes? cs).map ((Primary.comparison c.reread).lexemes ++ ·)

/-- Whether the text of a comparison stops the scanner. -/
def Comparison.Faults (c : Comparison) : Prop :=
  ∀ cs, lexemes? ((Formula.comparisonText c).toList ++ cs) = none

namespace Formula

/-! ## The tree of a text -/

mutual

/-- The tree of the text of a formula. -/
def chain : Formula → Chain
  | .leaf c => .last (.comparison c.reread)
  | .joined k parts => chainOfAll k parts

/-- The tree of the text of joined formulas.  Without any formula there is no text, and the tree is
of no account. -/
def chainOfAll (k : Connective) : List Formula → Chain
  | [] => .last (.comparison ⟨"", .eq, .text ""⟩)
  | [f] => chain f
  | f :: g :: fs => .link (primaryOf f) k (chainOfAll k (g :: fs))

/-- The tree of a formula that others follow. -/
def primaryOf : Formula → Primary
  | .leaf c => .comparison c.reread
  | .joined k parts => .group (chainOfAll k parts)

end

theorem primaryOf_formula : ∀ f : Formula, f.primaryOf.formula = f.chain.formula
  | .leaf c => by rw [primaryOf, chain, Chain.formula]
  | .joined k parts => by rw [primaryOf, chain, Primary.formula]

/-! ## Scanning -/

/-- The keyword of a connective with blanks around it. -/
theorem lexemes?_keyword (k : Connective) (cs : List Char) :
    lexemes? (' ' :: (k.keyword.toList ++ ' ' :: cs)) = (lexemes? cs).map (.connective k :: ·) := by
  have hblank : Ends Text.isAlphanumeric (' ' :: cs) := fun c hc => by cases hc; decide +kernel
  have hspace : Text.isBlank ' ' = true := by decide
  rw [lexemes?_blank _ hspace]
  cases k with
  | and =>
      have hword : Text.IsWord Connective.and.keyword.toList :=
        ⟨⟨'A', ['N', 'D'], rfl, by decide⟩, List.all_eq_true.mp (by decide)⟩
      rw [lexemes?_word _ hword hblank, lexemes?_blank _ hspace]
      rfl
  | or =>
      have hword : Text.IsWord Connective.or.keyword.toList :=
        ⟨⟨'O', ['R'], rfl, by decide⟩, List.all_eq_true.mp (by decide)⟩
      rw [lexemes?_word _ hword hblank, lexemes?_blank _ hspace]
      rfl

theorem ends_isNumeral {c : Char} (h : isNumeral c = false) (cs : List Char) :
    Ends isNumeral (c :: cs) := fun d hd => by cases hd; exact h

/-- The text of several joined formulas. -/
theorem textOfAll_cons (k : Connective) (f g : Formula) (fs : List Formula) (cs : List Char) :
    (textOfAll k (f :: g :: fs)).toList ++ cs =
      (enclosed f).toList ++
        ' ' :: (k.keyword.toList ++ ' ' :: ((textOfAll k (g :: fs)).toList ++ cs)) := by
  show (enclosed f ++ " " ++ k.keyword ++ " " ++ textOfAll k (g :: fs)).toList ++ cs = _
  simp only [String.toList_append, List.append_assoc]
  rfl

theorem enclosed_joined (k : Connective) (parts : List Formula) (cs : List Char) :
    (enclosed (.joined k parts)).toList ++ cs =
      '(' :: ((textOfAll k parts).toList ++ ')' :: cs) := by
  rw [enclosed]
  simp only [String.toList_append, List.append_assoc]
  rfl

mutual

/-- The text of a formula has the lexemes of its tree. -/
theorem lexemes?_text : ∀ (f : Formula) (cs : List Char), (∀ n ∈ f.arities, 1 ≤ n) →
    (∀ c ∈ f.comparisons, c.Scans) → Ends isNumeral cs →
    lexemes? (f.text.toList ++ cs) = (lexemes? cs).map (f.chain.lexemes ++ ·)
  | .leaf c, cs, _, h, hend => by
      rw [text, chain, Chain.lexemes]
      exact h c (by rw [comparisons]; exact List.mem_singleton_self c) cs hend
  | .joined k parts, cs, hn, h, hend => by
      rw [arities] at hn
      rw [comparisons] at h
      rw [text, chain]
      exact lexemes?_textOfAll k parts cs (hn _ List.mem_cons_self)
        (fun n hmem => hn n (List.mem_cons_of_mem _ hmem)) h hend

/-- The text of joined formulas has the lexemes of their tree. -/
theorem lexemes?_textOfAll : ∀ (k : Connective) (fs : List Formula) (cs : List Char),
    1 ≤ fs.length → (∀ n ∈ aritiesOfAll fs, 1 ≤ n) → (∀ c ∈ comparisonsOfAll fs, c.Scans) →
    Ends isNumeral cs →
    lexemes? ((textOfAll k fs).toList ++ cs) = (lexemes? cs).map ((chainOfAll k fs).lexemes ++ ·)
  | k, [f], cs, _, hn, h, hend => by
      rw [aritiesOfAll, aritiesOfAll, List.append_nil] at hn
      rw [comparisonsOfAll, comparisonsOfAll, List.append_nil] at h
      rw [textOfAll, chainOfAll]
      exact lexemes?_text f cs hn h hend
  | k, f :: g :: fs, cs, _, hn, h, hend => by
      rw [aritiesOfAll] at hn
      rw [comparisonsOfAll] at h
      have hf := lexemes?_enclosed f
        (' ' :: (k.keyword.toList ++ ' ' :: ((textOfAll k (g :: fs)).toList ++ cs)))
        (fun n hmem => hn n (List.mem_append_left _ hmem))
        (fun c hmem => h c (List.mem_append_left _ hmem)) (ends_isNumeral (by decide) _)
      have hfs := lexemes?_textOfAll k (g :: fs) cs (Nat.succ_pos _)
        (fun n hmem => hn n (List.mem_append_right _ hmem))
        (fun c hmem => h c (List.mem_append_right _ hmem)) hend
      rw [textOfAll_cons, hf, lexemes?_keyword, hfs, chainOfAll, Chain.lexemes, Option.map_map,
        Option.map_map]
      congr 1
      funext ls
      simp only [Function.comp_apply, List.append_assoc, List.cons_append]

/-- The text of a formula that others follow has the lexemes of its tree. -/
theorem lexemes?_enclosed : ∀ (f : Formula) (cs : List Char), (∀ n ∈ f.arities, 1 ≤ n) →
    (∀ c ∈ f.comparisons, c.Scans) → Ends isNumeral cs →
    lexemes? ((enclosed f).toList ++ cs) = (lexemes? cs).map (f.primaryOf.lexemes ++ ·)
  | .leaf c, cs, _, h, hend => by
      rw [enclosed, primaryOf]
      exact h c (by rw [comparisons]; exact List.mem_singleton_self c) cs hend
  | .joined k parts, cs, hn, h, hend => by
      rw [arities] at hn
      rw [comparisons] at h
      have hparts := lexemes?_textOfAll k parts (')' :: cs) (hn _ List.mem_cons_self)
        (fun n hmem => hn n (List.mem_cons_of_mem _ hmem)) h (ends_isNumeral (by decide) cs)
      rw [enclosed_joined, lexemes?_mark _ (l := .opening) (by simp [marks]), hparts,
        lexemes?_mark cs (l := .closing) (by simp [marks]), primaryOf, Primary.lexemes,
        Option.map_map, Option.map_map]
      congr 1
      funext ls
      simp only [Function.comp_apply, List.append_assoc, List.cons_append, List.nil_append]

end

mutual

/-- A comparison that stops the scanner stops it in the text of a formula. -/
theorem lexemes?_text_fault : ∀ (f : Formula) (cs : List Char), (∀ n ∈ f.arities, 1 ≤ n) →
    (∀ c ∈ f.comparisons, c.Scans ∨ c.Faults) → (∃ c ∈ f.comparisons, c.Faults) →
    lexemes? (f.text.toList ++ cs) = none
  | .leaf c, cs, _, _, hfault => by
      obtain ⟨d, hd, hfault⟩ := hfault
      rw [comparisons, List.mem_singleton] at hd
      rw [text]
      exact hd ▸ hfault cs
  | .joined k parts, cs, hn, h, hfault => by
      rw [arities] at hn
      rw [comparisons] at h hfault
      rw [text]
      exact lexemes?_textOfAll_fault k parts cs (hn _ List.mem_cons_self)
        (fun n hmem => hn n (List.mem_cons_of_mem _ hmem)) h hfault

/-- A comparison that stops the scanner stops it in the text of joined formulas. -/
theorem lexemes?_textOfAll_fault : ∀ (k : Connective) (fs : List Formula) (cs : List Char),
    1 ≤ fs.length → (∀ n ∈ aritiesOfAll fs, 1 ≤ n) →
    (∀ c ∈ comparisonsOfAll fs, c.Scans ∨ c.Faults) → (∃ c ∈ comparisonsOfAll fs, c.Faults) →
    lexemes? ((textOfAll k fs).toList ++ cs) = none
  | k, [f], cs, _, hn, h, hfault => by
      rw [aritiesOfAll, aritiesOfAll, List.append_nil] at hn
      rw [comparisonsOfAll, comparisonsOfAll, List.append_nil] at h hfault
      rw [textOfAll]
      exact lexemes?_text_fault f cs hn h hfault
  | k, f :: g :: fs, cs, _, hn, h, hfault => by
      rw [aritiesOfAll] at hn
      rw [comparisonsOfAll] at h hfault
      have hnf : ∀ n ∈ f.arities, 1 ≤ n := fun n hmem => hn n (List.mem_append_left _ hmem)
      have hf : ∀ c ∈ f.comparisons, c.Scans ∨ c.Faults :=
        fun c hmem => h c (List.mem_append_left _ hmem)
      rw [textOfAll_cons]
      by_cases hfirst : ∃ c ∈ f.comparisons, c.Faults
      · exact lexemes?_enclosed_fault f _ hnf hf hfirst
      · -- the first part is scanned, so the fault is in the others
        have hscans : ∀ c ∈ f.comparisons, c.Scans :=
          fun c hmem => (hf c hmem).resolve_right fun hc => hfirst ⟨c, hmem, hc⟩
        have hrest : ∃ c ∈ comparisonsOfAll (g :: fs), c.Faults := by
          obtain ⟨c, hmem, hc⟩ := hfault
          obtain hmem | hmem := List.mem_append.mp hmem
          · exact absurd ⟨c, hmem, hc⟩ hfirst
          · exact ⟨c, hmem, hc⟩
        have hfs := lexemes?_textOfAll_fault k (g :: fs) cs (Nat.succ_pos _)
          (fun n hmem => hn n (List.mem_append_right _ hmem))
          (fun c hmem => h c (List.mem_append_right _ hmem)) hrest
        rw [lexemes?_enclosed f _ hnf hscans (ends_isNumeral (by decide) _), lexemes?_keyword, hfs]
        rfl

/-- A comparison that stops the scanner stops it in the text of a formula that others follow. -/
theorem lexemes?_enclosed_fault : ∀ (f : Formula) (cs : List Char), (∀ n ∈ f.arities, 1 ≤ n) →
    (∀ c ∈ f.comparisons, c.Scans ∨ c.Faults) → (∃ c ∈ f.comparisons, c.Faults) →
    lexemes? ((enclosed f).toList ++ cs) = none
  | .leaf c, cs, _, _, hfault => by
      obtain ⟨d, hd, hfault⟩ := hfault
      rw [comparisons, List.mem_singleton] at hd
      rw [enclosed]
      exact hd ▸ hfault cs
  | .joined k parts, cs, hn, h, hfault => by
      rw [arities] at hn
      rw [comparisons] at h hfault
      rw [enclosed_joined, lexemes?_mark _ (l := .opening) (by simp [marks]),
        lexemes?_textOfAll_fault k parts _ (hn _ List.mem_cons_self)
          (fun n hmem => hn n (List.mem_cons_of_mem _ hmem)) h hfault]
      rfl

end

/-! ## Verdicts -/

/-- To join a verdict with the joined rest is to join them all. -/
theorem combine_cons (k : Connective) (v w : Bool) (vs : List Bool) :
    k.combine [v, k.combine (w :: vs)] = k.combine (v :: w :: vs) := by
  cases k with
  | and => simp [Connective.combine]
  | or => simp [Connective.combine]

theorem combine_singleton (k : Connective) (v : Bool) : k.combine [v] = v := by
  cases k with
  | and => simp [Connective.combine]
  | or => simp [Connective.combine]

/-- What a formula with one part is worth. -/
theorem verdict_joined_one (record : Record) (k : Connective) (f : Formula) :
    (Formula.joined k [f]).verdict record = f.verdict record := by
  rw [verdict, verdicts, verdicts]
  cases f.verdict record with
  | error e => rfl
  | ok v => exact congrArg Except.ok (combine_singleton k v)

/-- A formula with more parts is worth what the first is worth joined with the others. -/
theorem verdict_joined_cons (record : Record) (k : Connective) (f g : Formula) (fs : List Formula) :
    (Formula.joined k [f, .joined k (g :: fs)]).verdict record =
      (Formula.joined k (f :: g :: fs)).verdict record := by
  simp only [verdict, verdicts]
  cases f.verdict record with
  | error e => rfl
  | ok v =>
      cases g.verdict record with
      | error e => rfl
      | ok w =>
          cases verdicts record fs with
          | error e => rfl
          | ok vs => exact congrArg Except.ok (combine_cons k v w vs)

/-- Equal verdicts of two parts are joined to equal verdicts. -/
theorem verdict_joined_congr (record : Record) (k : Connective) {f f' g g' : Formula}
    (hf : f.verdict record = f'.verdict record) (hg : g.verdict record = g'.verdict record) :
    (Formula.joined k [f, g]).verdict record = (Formula.joined k [f', g']).verdict record := by
  simp only [verdict, verdicts, hf, hg]

mutual

/-- The tree of the text of a formula means a formula with the same verdicts. -/
theorem verdict_chain (record : Record) : ∀ f : Formula, (∀ n ∈ f.arities, 1 ≤ n) →
    (∀ c ∈ f.comparisons, c.reread.verdict record = c.verdict record) →
    f.chain.formula.verdict record = f.verdict record
  | .leaf c, _, h => by
      rw [chain, Chain.formula, Primary.formula, verdict, verdict]
      exact h c (by rw [comparisons]; exact List.mem_singleton_self c)
  | .joined k parts, hn, h => by
      rw [arities] at hn
      rw [comparisons] at h
      rw [chain]
      exact verdict_chainOfAll record k parts (hn _ List.mem_cons_self)
        (fun n hmem => hn n (List.mem_cons_of_mem _ hmem)) h

/-- The tree of joined formulas means a formula with the verdicts of the joined formula. -/
theorem verdict_chainOfAll (record : Record) : ∀ (k : Connective) (fs : List Formula),
    1 ≤ fs.length → (∀ n ∈ aritiesOfAll fs, 1 ≤ n) →
    (∀ c ∈ comparisonsOfAll fs, c.reread.verdict record = c.verdict record) →
    (chainOfAll k fs).formula.verdict record = (Formula.joined k fs).verdict record
  | k, [f], _, hn, h => by
      rw [aritiesOfAll, aritiesOfAll, List.append_nil] at hn
      rw [comparisonsOfAll, comparisonsOfAll, List.append_nil] at h
      rw [chainOfAll, verdict_joined_one]
      exact verdict_chain record f hn h
  | k, f :: g :: fs, _, hn, h => by
      rw [aritiesOfAll] at hn
      rw [comparisonsOfAll] at h
      have hf := verdict_chain record f (fun n hmem => hn n (List.mem_append_left _ hmem))
        (fun c hmem => h c (List.mem_append_left _ hmem))
      have hfs := verdict_chainOfAll record k (g :: fs) (Nat.succ_pos _)
        (fun n hmem => hn n (List.mem_append_right _ hmem))
        (fun c hmem => h c (List.mem_append_right _ hmem))
      rw [chainOfAll, Chain.formula, primaryOf_formula, verdict_joined_congr record k hf hfs,
        verdict_joined_cons]

end

/-! ## Operators with two parts -/

/-- A formula whose operators all join two parts. -/
inductive Paired : Formula → Prop where
  /-- A comparison has no operator. -/
  | leaf (c : Comparison) : Paired (.leaf c)
  /-- An operator joins two such formulas. -/
  | pair (k : Connective) {f g : Formula} (hf : Paired f) (hg : Paired g) :
    Paired (.joined k [f, g])

theorem paired_of_arities : ∀ f : Formula, (∀ n ∈ f.arities, n = 2) → Paired f
  | .leaf c, _ => .leaf c
  | .joined k [f, g], h => by
      rw [arities, aritiesOfAll, aritiesOfAll, aritiesOfAll, List.append_nil] at h
      exact .pair k
        (paired_of_arities f fun n hmem =>
          h n (List.mem_cons_of_mem _ (List.mem_append_left _ hmem)))
        (paired_of_arities g fun n hmem =>
          h n (List.mem_cons_of_mem _ (List.mem_append_right _ hmem)))
  | .joined k [], h => by
      rw [arities] at h
      exact absurd (h _ List.mem_cons_self) (by decide)
  | .joined k [f], h => by
      rw [arities] at h
      exact absurd (h _ List.mem_cons_self) (by simp)
  | .joined k (f :: g :: g' :: fs), h => by
      rw [arities] at h
      exact absurd (h _ List.mem_cons_self) (by simp)

theorem Paired.one_le {f : Formula} (h : Paired f) : ∀ n ∈ f.arities, 1 ≤ n := by
  induction h with
  | leaf c =>
      rw [arities]
      exact fun n hmem => absurd hmem List.not_mem_nil
  | @pair k f g _ _ hf hg =>
      rw [arities, aritiesOfAll, aritiesOfAll, aritiesOfAll, List.append_nil]
      intro n hmem
      obtain rfl | hmem := List.mem_cons.mp hmem
      · exact Nat.succ_pos 1
      obtain hmem | hmem := List.mem_append.mp hmem
      · exact hf n hmem
      · exact hg n hmem

theorem chain_pair (k : Connective) (f g : Formula) :
    (Formula.joined k [f, g]).chain = .link f.primaryOf k g.chain := by
  rw [chain, chainOfAll, chainOfAll]

theorem comparisons_pair (k : Connective) (f g : Formula) :
    (Formula.joined k [f, g]).comparisons = f.comparisons ++ g.comparisons := by
  rw [comparisons, comparisonsOfAll, comparisonsOfAll, comparisonsOfAll, List.append_nil]

/-- The inside of a formula that others follow nests no deeper than the formula by itself. -/
theorem inside_primaryOf_le : ∀ f : Formula, f.primaryOf.inside ≤ f.chain.nesting
  | .leaf c => by
      rw [primaryOf, Primary.inside]
      exact Nat.zero_le _
  | .joined k parts => by rw [primaryOf, Primary.inside_group, chain]

/-- The tree of a formula nests no deeper than the formula is high. -/
theorem Paired.nesting_chain_le_height {f : Formula} (h : Paired f) :
    f.chain.nesting ≤ f.height := by
  induction h with
  | leaf c =>
      rw [chain, Chain.nesting_last, Primary.inside, height]
  | @pair k f g _ _ hf hg =>
      have hinside := inside_primaryOf_le f
      rw [chain_pair, Chain.nesting_link, height, heightOfAll, heightOfAll, heightOfAll]
      omega

/-- The tree of a formula means the formula, if its literals come back as they were. -/
theorem Paired.formula_chain {f : Formula} (h : Paired f) :
    (∀ c ∈ f.comparisons, c.reread = c) → f.chain.formula = f := by
  induction h with
  | leaf c =>
      intro hc
      rw [comparisons] at hc
      rw [chain, Chain.formula, Primary.formula, hc c (List.mem_singleton_self c)]
  | @pair k f g _ _ hf hg =>
      intro hc
      rw [comparisons_pair] at hc
      rw [chain_pair, Chain.formula, primaryOf_formula,
        hf fun c hmem => hc c (List.mem_append_left _ hmem),
        hg fun c hmem => hc c (List.mem_append_right _ hmem)]

theorem Paired.same_self {f : Formula} (h : Paired f) : f.same f = true := by
  induction h with
  | leaf c =>
      rw [same, beq_self_eq_true, beq_self_eq_true, Value.same_self]
      rfl
  | @pair k f g _ _ hf hg =>
      rw [same, sameAll, sameAll, sameAll, hf, hg, beq_self_eq_true]
      rfl

/-- The tree of a formula means the same formula exactly if every literal comes back the same. -/
theorem Paired.same_formula_chain {f : Formula} (h : Paired f) :
    f.same f.chain.formula = true ↔
      ∀ c ∈ f.comparisons, c.literal.same c.literal.reread = true := by
  induction h with
  | leaf c =>
      rw [chain, Chain.formula, Primary.formula, same, comparisons, List.forall_mem_singleton,
        Comparison.reread, beq_self_eq_true, beq_self_eq_true, Bool.true_and, Bool.true_and]
  | @pair k f g _ _ hf hg =>
      rw [chain_pair, Chain.formula, primaryOf_formula, same, sameAll, sameAll, sameAll,
        beq_self_eq_true, Bool.true_and, Bool.and_true, Bool.and_eq_true, hf, hg, comparisons_pair,
        List.forall_mem_append]

end Formula

/-! ## Formulas of chains -/

open Formula (chain primaryOf)

mutual

/-- A chain means a formula whose operators join two parts. -/
theorem Chain.paired_formula : ∀ e : Chain, e.formula.Paired
  | .last p => by
      rw [Chain.formula]
      exact Primary.paired_formula p
  | .link p k rest => by
      rw [Chain.formula]
      exact .pair k (Primary.paired_formula p) (Chain.paired_formula rest)

/-- A primary means a formula whose operators join two parts. -/
theorem Primary.paired_formula : ∀ p : Primary, p.formula.Paired
  | .comparison c => by
      rw [Primary.formula]
      exact .leaf c
  | .group e => by
      rw [Primary.formula]
      exact Chain.paired_formula e

end

mutual

/-- The text of what a chain means nests no deeper than the chain: it encloses only what the chain
encloses too. -/
theorem Chain.nesting_chain_formula : ∀ e : Chain, e.formula.chain.nesting ≤ e.nesting
  | .last p => by
      rw [Chain.formula, Chain.nesting_last]
      exact (Primary.nesting_chain_formula p).1
  | .link p k rest => by
      have hp := (Primary.nesting_chain_formula p).2
      have hrest := Chain.nesting_chain_formula rest
      rw [Chain.formula, Formula.chain_pair, Chain.nesting_link, Chain.nesting_link]
      omega

/-- The text of what a primary means nests no deeper than the primary. -/
theorem Primary.nesting_chain_formula : ∀ p : Primary,
    p.formula.chain.nesting ≤ p.inside + 1 ∧ p.formula.primaryOf.inside ≤ p.inside
  | .comparison c => by
      rw [Primary.formula, chain, primaryOf, Chain.nesting_last, Primary.inside, Primary.inside]
      exact ⟨Nat.le_refl 1, Nat.le_refl 0⟩
  | .group e => by
      have he := Chain.nesting_chain_formula e
      have hinside := Formula.inside_primaryOf_le e.formula
      rw [Primary.formula, Primary.inside_group]
      exact ⟨Nat.le_succ_of_le he, hinside.trans he⟩

end

end Rulebook
