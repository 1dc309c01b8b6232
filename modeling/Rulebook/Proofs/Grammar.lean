import Rulebook.Rule.Parser

/-!
# The grammar and its parser

A *chain* is a derivation of the rule `expression`: primaries with a connective
between each and the next.  A *primary* is a comparison, or a chain in parentheses.
So a value of `Chain` is a syntax tree.  It keeps the parentheses that the formula
drops.

* `lexemes` is what the tree derives.
* `formula` is what the tree means: a connective joins the primary on its left with
  the whole chain on its right, and a group is what it holds.
* `nesting` is the maximum, over the places `j` of the primaries counted from one, of
  `j` plus the nesting inside the `j`-th primary.

The parser counts levels down and the nesting counts them up.  `expression_sound`
reads a tree off every run that ends well.  `expression_of_lexemes` says that the
parser finds every tree that fits into its levels, and stops behind it, and
`expression_tooDeep` that it refuses every other tree for its nesting.  All three are
stated for any tokens behind the chain, since the two rules call each other in the
middle of the tokens.

Different trees derive different lexemes.  `lexemes_append_inj` says so for chains
that other lexemes follow.  What follows must not begin with a connective, because a
connective continues the chain.
-/

namespace Rulebook

mutual

/-- A derivation of `expression`. -/
inductive Chain where
  /-- A primary that nothing follows. -/
  | last (p : Primary)
  /-- A primary, a connective and the rest of the chain. -/
  | link (p : Primary) (k : Connective) (rest : Chain)

/-- A derivation of `primary`. -/
inductive Primary where
  /-- A field, a comparator and a literal. -/
  | comparison (c : Comparison)
  /-- A chain in parentheses. -/
  | group (inner : Chain)

end

/-! ## What a tree derives and means -/

mutual

/-- The lexemes a chain derives. -/
def Chain.lexemes : Chain → List Lexeme
  | .last p => p.lexemes
  | .link p k rest => p.lexemes ++ .connective k :: rest.lexemes

/-- The lexemes a primary derives. -/
def Primary.lexemes : Primary → List Lexeme
  | .comparison c => [.field c.field, .comparator c.comparator, .value c.literal]
  | .group inner => .opening :: (inner.lexemes ++ [.closing])

end

mutual

/-- The formula of a chain. -/
def Chain.formula : Chain → Formula
  | .last p => p.formula
  | .link p k rest => .joined k [p.formula, rest.formula]

/-- The formula of a primary. -/
def Primary.formula : Primary → Formula
  | .comparison c => .leaf c
  | .group inner => inner.formula

end

mutual

/-- The maximum of `j` plus the nesting inside the `j`-th primary, where the first primary has place
`first`. -/
def Chain.nestingFrom (first : Nat) : Chain → Nat
  | .last p => first + p.inside
  | .link p _ rest => max (first + p.inside) (rest.nestingFrom (first + 1))

/-- The nesting inside the parentheses of a primary. -/
def Primary.inside : Primary → Nat
  | .comparison _ => 0
  | .group inner => inner.nestingFrom 1

end

/-- The nesting of a chain. -/
def Chain.nesting (e : Chain) : Nat := e.nestingFrom 1

/-! ## Levels -/

/-- A chain that begins one place later nests one level deeper. -/
theorem Chain.nestingFrom_succ :
    ∀ (e : Chain) (first : Nat), e.nestingFrom (first + 1) = e.nestingFrom first + 1
  | .last p, first => by
      rw [Chain.nestingFrom, Chain.nestingFrom]
      omega
  | .link p _ rest, first => by
      rw [Chain.nestingFrom, Chain.nestingFrom, Chain.nestingFrom_succ rest (first + 1)]
      omega

theorem Chain.nesting_last (p : Primary) : (Chain.last p).nesting = p.inside + 1 := by
  rw [Chain.nesting, Chain.nestingFrom, Nat.add_comm]

theorem Chain.nesting_link (p : Primary) (k : Connective) (rest : Chain) :
    (Chain.link p k rest).nesting = max p.inside rest.nesting + 1 := by
  rw [Chain.nesting, Chain.nestingFrom, Chain.nestingFrom_succ, Chain.nesting]
  omega

theorem Primary.inside_group (e : Chain) : (Primary.group e).inside = e.nesting := by
  rw [Primary.inside, Chain.nesting]

/-! ## What may follow a chain -/

/-- A list of lexemes that does not continue a chain. -/
def Stops : List Lexeme → Prop
  | .connective _ :: _ => False
  | _ => True

@[simp] theorem stops_nil : Stops [] := trivial

@[simp] theorem stops_closing (ls : List Lexeme) : Stops (.closing :: ls) := trivial

@[simp] theorem not_stops_connective (k : Connective) (ls : List Lexeme) :
    ¬ Stops (.connective k :: ls) := id

namespace Formula

/-- The lexemes of tokens. -/
abbrev lexemesOf (ts : List Token) : List Lexeme := ts.map (·.lexeme)

/-! ## Soundness -/

/-- What `comparisonOf` reads is a comparator and a literal. -/
theorem comparisonOf_ok {field : String} {ts rest : List Token} {f : Formula}
    (h : comparisonOf field ts = .ok (f, rest)) :
    ∃ c v, lexemesOf ts = .comparator c :: .value v :: lexemesOf rest ∧
      f = .leaf ⟨field, c, v⟩ := by
  unfold comparisonOf at h
  split at h
  case h_1 c _ v _ rest' =>
    cases h
    exact ⟨c, v, rfl, rfl⟩
  case h_2 => cases h
  case h_3 => cases h

/-- A primary that is read has a tree, if the reader of groups reads chains. -/
theorem primary_sound {inner : List Token → Except ParseError (Formula × List Token)}
    {levels : Nat} {ts rest : List Token} {f : Formula}
    (hinner : ∀ {ts rest f}, inner ts = .ok (f, rest) →
      ∃ e : Chain, lexemesOf ts = e.lexemes ++ lexemesOf rest ∧ e.formula = f ∧ e.nesting ≤ levels)
    (h : primary inner ts = .ok (f, rest)) :
    ∃ p : Primary, lexemesOf ts = p.lexemes ++ lexemesOf rest ∧ p.formula = f ∧
      p.inside ≤ levels := by
  cases ts with
  | nil => cases h
  | cons t ts =>
      obtain ⟨l, offset⟩ := t
      simp only [primary] at h
      cases l with
      | opening =>
          simp only at h
          split at h
          case h_1 => cases h
          case h_2 f' close rest' hi =>
            cases h
            obtain ⟨e, hl, hf, hn⟩ := hinner hi
            refine ⟨.group e, ?_, hf, ?_⟩
            · simp [lexemesOf, Primary.lexemes] at hl ⊢
              exact hl
            · rw [Primary.inside_group]
              exact hn
          case h_3 => cases h
      | field name =>
          obtain ⟨c, v, hl, hf⟩ := comparisonOf_ok h
          refine ⟨.comparison ⟨name, c, v⟩, ?_, hf.symm, Nat.zero_le _⟩
          simp [lexemesOf, Primary.lexemes] at hl ⊢
          exact hl
      | closing => cases h
      | value v => cases h
      | comparator c => cases h
      | connective k => cases h

/-- An expression that is read has a tree that fits into the levels. -/
theorem expression_sound :
    ∀ (levels : Nat) {ts rest : List Token} {f : Formula},
      expression levels ts = .ok (f, rest) →
      ∃ e : Chain, lexemesOf ts = e.lexemes ++ lexemesOf rest ∧ e.formula = f ∧ e.nesting ≤ levels
  | 0, _, _, _, h => by cases h
  | levels + 1, ts, rest, f, h => by
      simp only [expression] at h
      split at h
      case h_1 => cases h
      case h_2 f' k _ rest' hp =>
        obtain ⟨p, hl, hf, hn⟩ := primary_sound (expression_sound levels) hp
        split at h
        case h_1 => cases h
        case h_2 g rest'' hr =>
          cases h
          obtain ⟨e, hl', hf', hn'⟩ := expression_sound levels hr
          refine ⟨.link p k e, ?_, ?_, ?_⟩
          · rw [hl, Chain.lexemes, lexemesOf, List.map_cons]
            rw [lexemesOf] at hl'
            rw [hl', List.append_assoc, List.cons_append]
          · rw [Chain.formula, hf, hf']
          · rw [Chain.nesting_link]
            omega
      case h_3 f' rest' _ hp =>
        cases h
        obtain ⟨p, hl, hf, hn⟩ := primary_sound (expression_sound levels) hp
        refine ⟨.last p, by rw [Chain.lexemes, hl], hf, ?_⟩
        rw [Chain.nesting_last]
        omega

/-! ## Completeness -/

/-- A comparison is read, and what follows it is left. -/
theorem comparisonOf_lexemes (field : String) {c : Comparator} {v : Value} {ts : List Token}
    {ls : List Lexeme} (h : lexemesOf ts = .comparator c :: .value v :: ls) :
    ∃ rest, comparisonOf field ts = .ok (.leaf ⟨field, c, v⟩, rest) ∧ lexemesOf rest = ls := by
  obtain ⟨⟨_, o⟩, ts', rfl, hc, h'⟩ := List.map_eq_cons_iff.mp h
  obtain ⟨⟨_, o'⟩, rest, rfl, hv, hrest⟩ := List.map_eq_cons_iff.mp h'
  cases hc
  cases hv
  exact ⟨rest, rfl, hrest⟩

mutual

/-- The parser finds every chain that fits into its levels and that nothing continues. -/
theorem expression_of_lexemes :
    ∀ (e : Chain) {levels : Nat} {ts : List Token} {ls : List Lexeme},
      lexemesOf ts = e.lexemes ++ ls → Stops ls → e.nesting ≤ levels →
      ∃ rest, expression levels ts = .ok (e.formula, rest) ∧ lexemesOf rest = ls
  | .last p, levels, ts, ls, h, hstop, hn => by
      rw [Chain.nesting_last] at hn
      obtain ⟨levels, rfl⟩ : ∃ n, levels = n + 1 := ⟨levels - 1, by omega⟩
      rw [Chain.lexemes] at h
      obtain ⟨rest, hp, hrest⟩ := primary_of_lexemes p h (by omega : p.inside ≤ levels)
      refine ⟨rest, ?_, hrest⟩
      simp only [expression, hp]
      -- the parser looks at the next token for a connective, and `hstop` says there is none
      split
      case h_1 he => cases he
      case h_2 k o rest' he =>
        cases he
        subst hrest
        exact absurd hstop (not_stops_connective _ _)
      case h_3 he =>
        cases he
        rfl
  | .link p k e, levels, ts, ls, h, hstop, hn => by
      rw [Chain.nesting_link] at hn
      obtain ⟨levels, rfl⟩ : ∃ n, levels = n + 1 := ⟨levels - 1, by omega⟩
      rw [Chain.lexemes, List.append_assoc, List.cons_append] at h
      obtain ⟨rest, hp, hrest⟩ := primary_of_lexemes p h (by omega : p.inside ≤ levels)
      obtain ⟨⟨_, o⟩, rest', rfl, hk, hrest'⟩ := List.map_eq_cons_iff.mp hrest
      cases hk
      obtain ⟨rest'', he, hrest''⟩ :=
        expression_of_lexemes e hrest' hstop (by omega : e.nesting ≤ levels)
      refine ⟨rest'', ?_, hrest''⟩
      simp only [expression, hp, he, Chain.formula]

/-- The parser finds every primary whose inside fits into the levels below. -/
theorem primary_of_lexemes :
    ∀ (p : Primary) {levels : Nat} {ts : List Token} {ls : List Lexeme},
      lexemesOf ts = p.lexemes ++ ls → p.inside ≤ levels →
      ∃ rest, primary (expression levels) ts = .ok (p.formula, rest) ∧ lexemesOf rest = ls
  | .comparison c, levels, ts, ls, h, _ => by
      rw [Primary.lexemes] at h
      obtain ⟨⟨_, o⟩, ts', rfl, hf, h'⟩ := List.map_eq_cons_iff.mp h
      cases hf
      obtain ⟨rest, hc, hrest⟩ := comparisonOf_lexemes c.field h'
      exact ⟨rest, hc, hrest⟩
  | .group e, levels, ts, ls, h, hn => by
      rw [Primary.inside_group] at hn
      rw [Primary.lexemes, List.cons_append, List.append_assoc] at h
      obtain ⟨⟨_, o⟩, ts', rfl, ho, h'⟩ := List.map_eq_cons_iff.mp h
      cases ho
      obtain ⟨rest, he, hrest⟩ := expression_of_lexemes e h' (stops_closing ls) hn
      obtain ⟨⟨_, o'⟩, rest', rfl, hc, hrest'⟩ := List.map_eq_cons_iff.mp hrest
      cases hc
      refine ⟨rest', ?_, hrest'⟩
      simp only [primary, he, Primary.formula]

end

mutual

/-- The parser refuses every chain that nests deeper than its levels. -/
theorem expression_tooDeep :
    ∀ (e : Chain) {levels : Nat} {ts : List Token} {ls : List Lexeme},
      lexemesOf ts = e.lexemes ++ ls → levels < e.nesting →
      expression levels ts = .error .tooDeep
  | _, 0, _, _, _, _ => rfl
  | .last p, levels + 1, ts, ls, h, hn => by
      rw [Chain.nesting_last] at hn
      rw [Chain.lexemes] at h
      simp only [expression, primary_tooDeep p h (by omega : levels < p.inside)]
  | .link p k e, levels + 1, ts, ls, h, hn => by
      rw [Chain.nesting_link] at hn
      rw [Chain.lexemes, List.append_assoc, List.cons_append] at h
      by_cases hp : levels < p.inside
      · simp only [expression, primary_tooDeep p h hp]
      · -- the primary fits, so the rest of the chain is what is too deep
        obtain ⟨rest, hok, hrest⟩ := primary_of_lexemes p h (Nat.le_of_not_lt hp)
        obtain ⟨⟨_, o⟩, rest', rfl, hk, hrest'⟩ := List.map_eq_cons_iff.mp hrest
        cases hk
        simp only [expression, hok, expression_tooDeep e hrest' (by omega : levels < e.nesting)]

/-- The parser refuses every primary whose inside nests deeper than its levels. -/
theorem primary_tooDeep :
    ∀ (p : Primary) {levels : Nat} {ts : List Token} {ls : List Lexeme},
      lexemesOf ts = p.lexemes ++ ls → levels < p.inside →
      primary (expression levels) ts = .error .tooDeep
  | .group e, levels, ts, ls, h, hn => by
      rw [Primary.inside_group] at hn
      rw [Primary.lexemes, List.cons_append, List.append_assoc] at h
      obtain ⟨⟨_, o⟩, ts', rfl, ho, h'⟩ := List.map_eq_cons_iff.mp h
      cases ho
      simp only [primary, expression_tooDeep e h' hn]

end

/-- A chain that fits is the formula of its tokens. -/
theorem ofTokens_of_lexemes {e : Chain} {ts : List Token} (h : lexemesOf ts = e.lexemes)
    (hn : e.nesting ≤ maxNesting) : ofTokens ts = .ok e.formula := by
  obtain ⟨rest, he, hrest⟩ :=
    expression_of_lexemes e (h.trans (List.append_nil _).symm) stops_nil hn
  rw [List.map_eq_nil_iff] at hrest
  subst hrest
  cases ts with
  | nil =>
      have := he
      simp [maxNesting, expression, primary] at this
  | cons t ts => simp only [ofTokens, he]

/-- A chain that does not fit is refused for its nesting and for nothing else. -/
theorem ofTokens_tooDeep {e : Chain} {ts : List Token} (h : lexemesOf ts = e.lexemes)
    (hn : maxNesting < e.nesting) : ofTokens ts = .error .tooDeep := by
  have he := expression_tooDeep e (h.trans (List.append_nil _).symm) hn
  cases ts with
  | nil => simp [maxNesting, expression, primary] at he
  | cons t ts => simp only [ofTokens, he]

/-- Tokens that make up a formula derive it. -/
theorem lexemes_of_ofTokens {ts : List Token} {f : Formula} (h : ofTokens ts = .ok f) :
    ∃ e : Chain, e.lexemes = lexemesOf ts ∧ e.formula = f ∧ e.nesting ≤ maxNesting := by
  unfold ofTokens at h
  split at h
  case h_1 => cases h
  case h_2 =>
    split at h
    case h_1 => cases h
    case h_2 f' he =>
      cases h
      obtain ⟨e, hl, hf, hn⟩ := expression_sound maxNesting he
      exact ⟨e, (hl.trans (List.append_nil _)).symm, hf, hn⟩
    case h_3 => cases h

end Formula

/-! ## One tree for each list of lexemes -/

mutual

/-- Chains that nothing continues are told apart by what they derive. -/
theorem Chain.lexemes_append_inj :
    ∀ (e e' : Chain) {ls ls' : List Lexeme}, e.lexemes ++ ls = e'.lexemes ++ ls' →
      Stops ls → Stops ls' → e = e' ∧ ls = ls'
  | .last p, .last p', ls, ls', h, _, _ => by
      obtain ⟨rfl, rfl⟩ := Primary.lexemes_append_inj p p' h
      exact ⟨rfl, rfl⟩
  | .last p, .link p' k' e', ls, ls', h, hs, _ => by
      rw [Chain.lexemes, Chain.lexemes, List.append_assoc] at h
      obtain ⟨-, rfl⟩ := Primary.lexemes_append_inj p p' h
      exact absurd hs (not_stops_connective _ _)
  | .link p k e, .last p', ls, ls', h, _, hs' => by
      rw [Chain.lexemes, Chain.lexemes, List.append_assoc] at h
      obtain ⟨-, rfl⟩ := Primary.lexemes_append_inj p p' h
      exact absurd hs' (not_stops_connective _ _)
  | .link p k e, .link p' k' e', ls, ls', h, hs, hs' => by
      rw [Chain.lexemes, Chain.lexemes, List.append_assoc, List.append_assoc] at h
      obtain ⟨rfl, h'⟩ := Primary.lexemes_append_inj p p' h
      obtain ⟨hk, h''⟩ := List.cons.inj h'
      cases hk
      obtain ⟨rfl, rfl⟩ := Chain.lexemes_append_inj e e' h'' hs hs'
      exact ⟨rfl, rfl⟩

/-- Primaries are told apart by what they derive, whatever follows. -/
theorem Primary.lexemes_append_inj :
    ∀ (p p' : Primary) {ls ls' : List Lexeme}, p.lexemes ++ ls = p'.lexemes ++ ls' →
      p = p' ∧ ls = ls'
  | .comparison ⟨_, _, _⟩, .comparison ⟨_, _, _⟩, ls, ls', h => by
      cases h
      exact ⟨rfl, rfl⟩
  | .comparison c, .group e', ls, ls', h => by cases h
  | .group e, .comparison c', ls, ls', h => by cases h
  | .group e, .group e', ls, ls', h => by
      rw [Primary.lexemes, Primary.lexemes, List.cons_append, List.cons_append,
        List.append_assoc, List.append_assoc] at h
      obtain ⟨rfl, h'⟩ := Chain.lexemes_append_inj e e' (List.cons.inj h).2
        (stops_closing ls) (stops_closing ls')
      exact ⟨rfl, (List.cons.inj h').2⟩

end

/-- A list of lexemes is derived by one chain at most. -/
theorem Chain.lexemes_inj {e e' : Chain} (h : e.lexemes = e'.lexemes) : e = e' :=
  (Chain.lexemes_append_inj e e' (congrArg (· ++ []) h) stops_nil stops_nil).1

/-- The parser is exact.  Tokens make up a formula exactly if a chain derives their lexemes, means
the formula and nests no deeper than the language allows, and no other chain derives these
lexemes. -/
theorem ofTokens_eq_ok_iff_exists_chain (ts : List Token) (f : Formula) :
    (Formula.ofTokens ts = .ok f ↔
      ∃ e : Chain, e.lexemes = ts.map (·.lexeme) ∧ e.formula = f ∧ e.nesting ≤ maxNesting) ∧
    ∀ e e' : Chain, e.lexemes = ts.map (·.lexeme) → e'.lexemes = ts.map (·.lexeme) → e = e' := by
  refine ⟨⟨Formula.lexemes_of_ofTokens, ?_⟩, fun e e' h h' => Chain.lexemes_inj (h.trans h'.symm)⟩
  rintro ⟨e, hl, rfl, hn⟩
  exact Formula.ofTokens_of_lexemes hl.symm hn

end Rulebook
