import Rulebook.Proofs.Grammar

/-!
# Where reading goes wrong

Lexemes are *viable* if they begin what some chain derives, however deep it nests.  Two
statements say what the parser makes of them.

* `expression_tooDeep_iff`: the parser finds the nesting too deep exactly if it is led
  there.  `Leads n ls` says that `ls` opens `n` levels that are still open and ends where
  the last of them begins.  These are the viable lexemes that end in one that opens a level
  (`exists_leads`), and `levelFrom` counts their levels (`Leads.levelFrom_eq`).
* `expression_blamed`: every other error blames a token, or the end of the tokens.  What
  stands before the token can be continued to a chain that fits into the levels, and with
  the token it cannot.

Both are proved along the recursion of the parser, for any number of levels.
`ofTokens_error_position` puts them together for the levels of the language.
-/

namespace Rulebook

/-- Whether lexemes begin what a chain derives. -/
def Viable (ls : List Lexeme) : Prop := ∃ e : Chain, ls <+: e.lexemes

/-- Whether a lexeme opens a level of nesting. -/
def Lexeme.Deepens : Lexeme → Prop
  | .opening | .connective _ => True
  | _ => False

/-- The level of nesting behind lexemes that begin at a level, where `outer` are the levels around
the groups that are open.  A group goes back to the level around it when it is closed. -/
def levelFrom : List Nat → Nat → List Lexeme → Nat
  | _, level, [] => level
  | outer, level, .opening :: ls => levelFrom (level :: outer) (level + 1) ls
  | outer, level, .connective _ :: ls => levelFrom outer (level + 1) ls
  | level :: outer, _, .closing :: ls => levelFrom outer level ls
  | outer, level, _ :: ls => levelFrom outer level ls

/-- Whether an error is about a token of a text, or about the end of the tokens. -/
inductive Blames : ParseError → Option Token → Prop where
  /-- A comparator is needed. -/
  | comparison (field : String) (found : Option Token) :
      Blames (.expectedComparison field (found.map (·.lexeme))) found
  /-- A literal is needed. -/
  | value (field : String) (c : Comparator) (found : Option Token) :
      Blames (.expectedValue field c (found.map (·.lexeme))) found
  /-- A group has to be closed. -/
  | closing (found : Option Token) : Blames (.expectedClosing (found.map (·.lexeme))) found
  /-- An expression is needed. -/
  | unexpected (t : Token) : Blames (.unexpected t) (some t)
  /-- An expression is needed at the end. -/
  | unexpectedEnd : Blames .unexpectedEnd none
  /-- Nothing more is needed. -/
  | trailing (t : Token) : Blames (.trailing t) (some t)

/-- The message of an error shows the token that it is about. -/
theorem Blames.message_eq {e : ParseError} {found : Option Token} (h : Blames e found) :
    ∃ front back, e.message = front ++ ParseError.foundText (found.map (·.lexeme)) ++ back := by
  cases h with
  | comparison field found =>
      exact ⟨"Expected comparison operator after field '" ++ field ++ "', found ", "",
        String.append_empty.symm⟩
  | value field c found =>
      exact ⟨"Expected value after '" ++ field ++ " " ++ c.symbol ++ "', found ", "",
        String.append_empty.symm⟩
  | closing found =>
      exact ⟨"Expected closing parenthesis, found ", "", String.append_empty.symm⟩
  | unexpected t =>
      exact ⟨"Unexpected token ", " at offset " ++ toString t.offset, String.append_assoc⟩
  | unexpectedEnd => exact ⟨"Unexpected ", "", by decide⟩
  | trailing t =>
      exact ⟨"Unexpected tokens remaining after parsing, starting with ",
        " at offset " ++ toString t.offset, String.append_assoc⟩

/-! ## Levels -/

theorem levelFrom_opening (outer : List Nat) (level : Nat) (ls : List Lexeme) :
    levelFrom outer level (.opening :: ls) = levelFrom (level :: outer) (level + 1) ls := by
  rw [levelFrom]

theorem levelFrom_connective (outer : List Nat) (level : Nat) (k : Connective) (ls : List Lexeme) :
    levelFrom outer level (.connective k :: ls) = levelFrom outer (level + 1) ls := by
  rw [levelFrom]

theorem levelFrom_closing (outer : List Nat) (level level' : Nat) (ls : List Lexeme) :
    levelFrom (level :: outer) level' (.closing :: ls) = levelFrom outer level ls := by
  rw [levelFrom]

theorem levelFrom_comparison (outer : List Nat) (level : Nat) (c : Comparison) (ls : List Lexeme) :
    levelFrom outer level (.field c.field :: .comparator c.comparator :: .value c.literal :: ls) =
      levelFrom outer level ls := by
  cases outer with
  | nil => simp [levelFrom]
  | cons level' outer => simp [levelFrom]

mutual

/-- Behind a group the level is what it was around it. -/
theorem Chain.levelFrom_eq : ∀ (e : Chain) (outer : List Nat) (level level' : Nat)
    (ls : List Lexeme),
    levelFrom (level :: outer) level' (e.lexemes ++ .closing :: ls) = levelFrom outer level ls
  | .last p, outer, level, level', ls => by
      rw [Chain.lexemes, Primary.levelFrom_eq p, levelFrom_closing]
  | .link p k rest, outer, level, level', ls => by
      rw [Chain.lexemes, List.append_assoc, Primary.levelFrom_eq p, List.cons_append,
        levelFrom_connective, Chain.levelFrom_eq rest]

/-- A primary leaves the level as it was. -/
theorem Primary.levelFrom_eq : ∀ (p : Primary) (outer : List Nat) (level : Nat) (ls : List Lexeme),
    levelFrom outer level (p.lexemes ++ ls) = levelFrom outer level ls
  | .comparison c, outer, level, ls => by
      rw [Primary.lexemes]
      exact levelFrom_comparison outer level c ls
  | .group e, outer, level, ls => by
      rw [Primary.lexemes, List.cons_append, levelFrom_opening, List.append_assoc,
        List.singleton_append, Chain.levelFrom_eq e]

end

/-! ## What leads into a level -/

/-- Lexemes that open a number of levels that are still open, and that end where the last of them
begins. -/
inductive Leads : Nat → List Lexeme → Prop where
  /-- No level is opened. -/
  | here : Leads 0 []
  /-- A group is opened. -/
  | group {n : Nat} {ls : List Lexeme} (h : Leads n ls) : Leads (n + 1) (.opening :: ls)
  /-- A primary is passed and joined with what follows. -/
  | link {n : Nat} {ls : List Lexeme} (p : Primary) (k : Connective) (h : Leads n ls) :
      Leads (n + 1) (p.lexemes ++ .connective k :: ls)

theorem Leads.levelFrom_eq {n : Nat} {ls : List Lexeme} (h : Leads n ls) :
    ∀ (outer : List Nat) (level : Nat), levelFrom outer level ls = level + n := by
  induction h with
  | here => exact fun outer level => by rw [levelFrom, Nat.add_zero]
  | @group n ls _ ih =>
      intro outer level
      rw [levelFrom_opening, ih, Nat.add_assoc, Nat.add_comm 1 n]
  | @link n ls p k _ ih =>
      intro outer level
      rw [p.levelFrom_eq, levelFrom_connective, ih, Nat.add_assoc, Nat.add_comm 1 n]

/-- A comparison to stand where one is needed. -/
def someComparison : Primary := .comparison ⟨"a", .eq, .integer 0⟩

/-- What leads into a level can go on with any chain, and with what closes the groups. -/
theorem Leads.viable {n : Nat} {ls : List Lexeme} (h : Leads n ls) : Viable ls := by
  induction h with
  | here => exact ⟨.last someComparison, List.nil_prefix⟩
  | group _ ih =>
      obtain ⟨e, rest, he⟩ := ih
      refine ⟨.last (.group e), rest ++ [.closing], ?_⟩
      rw [Chain.lexemes, Primary.lexemes, ← he, List.cons_append, List.append_assoc]
  | link p k _ ih =>
      obtain ⟨e, rest, he⟩ := ih
      refine ⟨.link p k e, rest, ?_⟩
      rw [Chain.lexemes, ← he, List.append_assoc, List.cons_append]

/-- What leads into a level ends in the lexeme that opens it. -/
theorem Leads.exists_last {n : Nat} {ls : List Lexeme} (h : Leads n ls) (hn : n ≠ 0) :
    ∃ init l, ls = init ++ [l] ∧ l.Deepens := by
  induction h with
  | here => exact absurd rfl hn
  | @group n ls h ih =>
      cases n with
      | zero =>
          cases h
          exact ⟨[], .opening, rfl, trivial⟩
      | succ n =>
          obtain ⟨init, l, rfl, hl⟩ := ih (Nat.succ_ne_zero n)
          exact ⟨.opening :: init, l, rfl, hl⟩
  | @link n ls p k h ih =>
      cases n with
      | zero =>
          cases h
          exact ⟨p.lexemes, .connective k, rfl, trivial⟩
      | succ n =>
          obtain ⟨init, l, rfl, hl⟩ := ih (Nat.succ_ne_zero n)
          exact ⟨p.lexemes ++ .connective k :: init, l, by simp, hl⟩

/-- A lexeme of two lists is one of the first, or one of the second. -/
theorem append_eq_append_cons {init rest ls ls' : List Lexeme} {l : Lexeme}
    (h : ls ++ ls' = init ++ l :: rest) : (∃ rest', ls = init ++ l :: rest') ∨
      ∃ init', init = ls ++ init' ∧ ls' = init' ++ l :: rest := by
  obtain ⟨mid, hinit, hrest⟩ | ⟨mid, hls, hrest⟩ := List.append_eq_append_iff.mp h
  · exact Or.inr ⟨mid, hinit, hrest⟩
  · cases mid with
    | nil =>
        rw [List.append_nil] at hls
        exact Or.inr ⟨[], by rw [hls, List.append_nil], hrest.symm⟩
    | cons l' mid =>
        obtain ⟨rfl, -⟩ := List.cons.inj hrest
        exact Or.inl ⟨mid, hls⟩

mutual

/-- Up to a lexeme that opens a level a chain leads into that level. -/
theorem Chain.exists_leads : ∀ (e : Chain) {init rest : List Lexeme} {l : Lexeme}, l.Deepens →
    e.lexemes = init ++ l :: rest → ∃ n, Leads n (init ++ [l])
  | .last p, init, rest, l, hl, h => by
      rw [Chain.lexemes] at h
      exact Primary.exists_leads p hl h
  | .link p k e, init, rest, l, hl, h => by
      rw [Chain.lexemes] at h
      obtain ⟨rest', hp⟩ | ⟨init', rfl, h'⟩ := append_eq_append_cons h
      · exact Primary.exists_leads p hl hp
      · cases init' with
        | nil =>
            obtain ⟨rfl, -⟩ := List.cons.inj h'
            rw [List.append_nil]
            exact ⟨1, .link p k .here⟩
        | cons l' init' =>
            obtain ⟨rfl, he⟩ := List.cons.inj h'
            obtain ⟨n, hn⟩ := Chain.exists_leads e hl he
            refine ⟨n + 1, ?_⟩
            rw [List.append_assoc]
            exact .link p k hn

/-- Up to a lexeme that opens a level a primary leads into that level. -/
theorem Primary.exists_leads : ∀ (p : Primary) {init rest : List Lexeme} {l : Lexeme}, l.Deepens →
    p.lexemes = init ++ l :: rest → ∃ n, Leads n (init ++ [l])
  | .comparison c, init, rest, l, hl, h => by
      have hmem : l ∈ (Primary.comparison c).lexemes := by
        rw [h]
        exact List.mem_append_right _ List.mem_cons_self
      rw [Primary.lexemes] at hmem
      simp only [List.mem_cons, List.not_mem_nil, or_false] at hmem
      obtain rfl | rfl | rfl := hmem
      all_goals cases hl
  | .group e, init, rest, l, hl, h => by
      rw [Primary.lexemes] at h
      cases init with
      | nil =>
          obtain ⟨rfl, -⟩ := List.cons.inj h
          exact ⟨1, .group .here⟩
      | cons l' init =>
          obtain ⟨rfl, hinner⟩ := List.cons.inj h
          obtain ⟨rest', he⟩ | ⟨init', -, h'⟩ := append_eq_append_cons hinner
          · obtain ⟨n, hn⟩ := Chain.exists_leads e hl he
            exact ⟨n + 1, .group hn⟩
          · -- the last lexeme of a group closes it
            have hmem : l ∈ [Lexeme.closing] := by
              rw [h']
              exact List.mem_append_right _ List.mem_cons_self
            rw [List.mem_singleton] at hmem
            rw [hmem] at hl
            cases hl

end

namespace Formula

/-! ## Where the readers fail -/

theorem front_eq (ts : List Token) : front ts = ts.head?.map (·.lexeme) := by
  cases ts with
  | nil => rfl
  | cons t ts => rfl

/-- A comparison fails for want of a comparator, or of a literal behind it. -/
theorem comparisonOf_error {field : String} {ts : List Token} {e : ParseError}
    (h : comparisonOf field ts = .error e) :
    (∃ c o rest, ts = ⟨.comparator c, o⟩ :: rest ∧ e = .expectedValue field c (front rest) ∧
      ∀ t ∈ rest.head?, ∀ v, t.lexeme ≠ .value v) ∨
    (e = .expectedComparison field (front ts) ∧ ∀ t ∈ ts.head?, ∀ c, t.lexeme ≠ .comparator c) := by
  unfold comparisonOf at h
  split at h
  case h_1 => cases h
  case h_2 c o rest hvalue =>
    cases h
    refine Or.inl ⟨c, o, rest, rfl, rfl, ?_⟩
    rintro ⟨_, o'⟩ ht v rfl
    obtain ⟨rest', rfl⟩ := List.head?_eq_some_iff.mp ht
    exact hvalue v o' rest' rfl
  case h_3 hcomparator =>
    cases h
    refine Or.inr ⟨rfl, ?_⟩
    rintro ⟨_, o⟩ ht c rfl
    obtain ⟨rest, rfl⟩ := List.head?_eq_some_iff.mp ht
    exact hcomparator c o rest rfl

/-- A primary fails at its first token, inside or behind a group, or behind a field. -/
theorem primary_error {inner : List Token → Except ParseError (Formula × List Token)}
    {ts : List Token} {e : ParseError} (h : primary inner ts = .error e) :
    (ts = [] ∧ e = .unexpectedEnd) ∨
    (∃ t rest, ts = t :: rest ∧ e = .unexpected t ∧ t.lexeme ≠ .opening ∧
      ∀ name, t.lexeme ≠ .field name) ∨
    (∃ o rest, ts = ⟨.opening, o⟩ :: rest ∧ inner rest = .error e) ∨
    (∃ o rest f rest', ts = ⟨.opening, o⟩ :: rest ∧ inner rest = .ok (f, rest') ∧
      e = .expectedClosing (front rest') ∧ ∀ t ∈ rest'.head?, t.lexeme ≠ .closing) ∨
    ∃ name o rest, ts = ⟨.field name, o⟩ :: rest ∧ comparisonOf name rest = .error e := by
  cases ts with
  | nil =>
      cases h
      exact Or.inl ⟨rfl, rfl⟩
  | cons t rest =>
      obtain ⟨l, o⟩ := t
      simp only [primary] at h
      cases l with
      | opening =>
          simp only at h
          split at h
          case h_1 e' hinner =>
            cases h
            exact Or.inr (Or.inr (Or.inl ⟨o, rest, rfl, hinner⟩))
          case h_2 => cases h
          case h_3 f rest' hclosing hinner =>
            cases h
            refine Or.inr (Or.inr (Or.inr (Or.inl ⟨o, rest, f, rest', rfl, hinner, rfl, ?_⟩)))
            rintro ⟨_, o'⟩ ht rfl
            obtain ⟨rest'', rfl⟩ := List.head?_eq_some_iff.mp ht
            exact hclosing o' rest'' rfl
      | field name => exact Or.inr (Or.inr (Or.inr (Or.inr ⟨name, o, rest, rfl, h⟩)))
      | _ =>
          cases h
          exact Or.inr (Or.inl ⟨_, rest, rfl, rfl, nofun, nofun⟩)

/-- An expression fails in its first primary, or behind a connective. -/
theorem expression_error {levels : Nat} {ts : List Token} {e : ParseError}
    (h : expression (levels + 1) ts = .error e) :
    primary (expression levels) ts = .error e ∨
    ∃ f k o rest, primary (expression levels) ts = .ok (f, ⟨.connective k, o⟩ :: rest) ∧
      expression levels rest = .error e := by
  simp only [expression] at h
  split at h
  case h_1 e' hp =>
    cases h
    exact Or.inl hp
  case h_2 f k o rest hp =>
    split at h
    case h_1 e' he =>
      cases h
      exact Or.inr ⟨f, k, o, rest, hp, he⟩
    case h_2 => cases h
  case h_3 => cases h

/-! ## Nesting -/

/-- A comparison does not nest. -/
theorem comparisonOf_ne_tooDeep (field : String) (ts : List Token) :
    comparisonOf field ts ≠ .error .tooDeep := by
  intro h
  obtain ⟨c, o, rest, -, he, -⟩ | ⟨he, -⟩ := comparisonOf_error h
  · cases he
  · cases he

/-- A primary nests too deep only if it is a group that does. -/
theorem of_primary_tooDeep {inner : List Token → Except ParseError (Formula × List Token)}
    {ts : List Token} (h : primary inner ts = .error .tooDeep) :
    ∃ o rest, ts = ⟨.opening, o⟩ :: rest ∧ inner rest = .error .tooDeep := by
  obtain ⟨-, he⟩ | ⟨t, rest, -, he, -⟩ | hinner | ⟨o, rest, f, rest', -, -, he, -⟩ |
    ⟨name, o, rest, -, hc⟩ := primary_error h
  · cases he
  · cases he
  · exact hinner
  · cases he
  · exact absurd hc (comparisonOf_ne_tooDeep name rest)

/-- The parser finds the nesting too deep exactly if it is led to where no level is left. -/
theorem expression_tooDeep_iff {levels : Nat} {ts : List Token} :
    expression levels ts = .error .tooDeep ↔
      ∃ ls rest, lexemesOf ts = ls ++ rest ∧ Leads levels ls := by
  constructor
  · intro h
    induction levels generalizing ts with
    | zero => exact ⟨[], lexemesOf ts, rfl, .here⟩
    | succ levels ih =>
        obtain hp | ⟨f, k, o, rest, hp, he⟩ := expression_error h
        · obtain ⟨o, rest, rfl, hinner⟩ := of_primary_tooDeep hp
          obtain ⟨ls, rest', hls, hleads⟩ := ih hinner
          exact ⟨.opening :: ls, rest', congrArg (Lexeme.opening :: ·) hls, .group hleads⟩
        · obtain ⟨p, hl, -, -⟩ := primary_sound (expression_sound levels) hp
          obtain ⟨ls, rest', hls, hleads⟩ := ih he
          refine ⟨p.lexemes ++ .connective k :: ls, rest', ?_, .link p k hleads⟩
          rw [hl, lexemesOf, List.map_cons, ← lexemesOf, hls, List.append_assoc]
          rfl
  · rintro ⟨ls, rest, hls, hleads⟩
    induction hleads generalizing ts with
    | here => rfl
    | @group n ls _ ih =>
        obtain ⟨⟨_, o⟩, ts, rfl, ho, hts⟩ := List.map_eq_cons_iff.mp hls
        cases ho
        simp only [expression, primary, ih hts]
    | @link n ls p k _ ih =>
        rw [List.append_assoc, List.cons_append] at hls
        by_cases hn : p.inside ≤ n
        · obtain ⟨rest', hp, hrest'⟩ := primary_of_lexemes p hls hn
          obtain ⟨⟨_, o⟩, ts', rfl, hk, hts'⟩ := List.map_eq_cons_iff.mp hrest'
          cases hk
          simp only [expression, hp, ih hts']
        · simp only [expression, primary_tooDeep p hls (Nat.lt_of_not_le hn)]

/-! ## What is left -/

/-- Whether a chain goes on is seen from the first lexeme behind it. -/
theorem stops_cons {l : Lexeme} {ls : List Lexeme} (h : Stops (l :: ls)) (ls' : List Lexeme) :
    Stops (l :: ls') := by
  cases l with
  | connective k => exact absurd h (not_stops_connective k ls)
  | _ => trivial

theorem comparisonOf_suffix {field : String} {ts rest : List Token} {f : Formula}
    (h : comparisonOf field ts = .ok (f, rest)) : rest <:+ ts := by
  unfold comparisonOf at h
  split at h
  case h_1 c o v o' rest' =>
    cases h
    exact List.suffix_append [⟨.comparator c, o⟩, ⟨.value v, o'⟩] rest
  case h_2 => cases h
  case h_3 => cases h

theorem primary_suffix {inner : List Token → Except ParseError (Formula × List Token)}
    (hinner : ∀ {ts rest f}, inner ts = .ok (f, rest) → rest <:+ ts)
    {ts rest : List Token} {f : Formula} (h : primary inner ts = .ok (f, rest)) : rest <:+ ts := by
  cases ts with
  | nil => cases h
  | cons t ts =>
      obtain ⟨l, o⟩ := t
      simp only [primary] at h
      cases l with
      | opening =>
          simp only at h
          split at h
          case h_1 => cases h
          case h_2 f' o' rest' hi =>
            cases h
            exact ((List.suffix_cons _ _).trans (hinner hi)).trans (List.suffix_cons _ _)
          case h_3 => cases h
      | field name => exact (comparisonOf_suffix h).trans (List.suffix_cons _ _)
      | closing => cases h
      | value v => cases h
      | comparator c => cases h
      | connective k => cases h

/-- What an expression leaves are the last tokens, and no connective is in front. -/
theorem expression_suffix : ∀ (levels : Nat) {ts rest : List Token} {f : Formula},
    expression levels ts = .ok (f, rest) → rest <:+ ts ∧ Stops (lexemesOf rest)
  | 0, _, _, _, h => by cases h
  | levels + 1, ts, rest, f, h => by
      have hsuffix : ∀ {ts rest f}, primary (expression levels) ts = .ok (f, rest) → rest <:+ ts :=
        primary_suffix fun hi => (expression_suffix levels hi).1
      simp only [expression] at h
      split at h
      case h_1 => cases h
      case h_2 f' k o rest' hp =>
        split at h
        case h_1 => cases h
        case h_2 g rest'' he =>
          cases h
          obtain ⟨hrest, hstops⟩ := expression_suffix levels he
          exact ⟨(hrest.trans (List.suffix_cons _ _)).trans (hsuffix hp), hstops⟩
      case h_3 f' rest' hconnective hp =>
        cases h
        refine ⟨hsuffix hp, ?_⟩
        unfold Stops
        split
        case h_1 k ls hls =>
          obtain ⟨⟨_, o⟩, rest'', rfl, hk, -⟩ := List.map_eq_cons_iff.mp hls
          cases hk
          exact hconnective k o rest'' rfl
        case h_2 => trivial

/-- Last tokens are told apart by their lexemes. -/
theorem eq_of_suffix {before rest rest' : List Token} (h : rest' <:+ before ++ rest)
    (hl : lexemesOf rest' = lexemesOf rest) : rest' = rest := by
  have hlength : rest'.length = rest.length := by
    have := congrArg List.length hl
    rwa [lexemesOf, lexemesOf, List.length_map, List.length_map] at this
  have hsuffix := List.suffix_of_suffix_length_le h (List.suffix_append before rest)
    (Nat.le_of_eq hlength)
  exact hsuffix.eq_of_length hlength

/-- The tokens of a chain are read, and any others are left. -/
theorem expression_append {levels : Nat} {e : Chain} {before rest : List Token}
    (hl : lexemesOf before = e.lexemes) (hn : e.nesting ≤ levels)
    (hstops : Stops (lexemesOf rest)) :
    expression levels (before ++ rest) = .ok (e.formula, rest) := by
  have h : lexemesOf (before ++ rest) = e.lexemes ++ lexemesOf rest := by
    rw [lexemesOf, List.map_append, ← lexemesOf, hl]
  obtain ⟨rest', he, hrest'⟩ := expression_of_lexemes e h hstops hn
  rw [he, eq_of_suffix (expression_suffix levels he).1 hrest']

/-- The tokens of a primary are read, and any others are left. -/
theorem primary_append {levels : Nat} {p : Primary} {before : List Token}
    (hl : lexemesOf before = p.lexemes) (hn : p.inside ≤ levels) (rest : List Token) :
    primary (expression levels) (before ++ rest) = .ok (p.formula, rest) := by
  have h : lexemesOf (before ++ rest) = p.lexemes ++ lexemesOf rest := by
    rw [lexemesOf, List.map_append, ← lexemesOf, hl]
  obtain ⟨rest', hp, hrest'⟩ := primary_of_lexemes p h hn
  rw [hp, eq_of_suffix (primary_suffix (fun hi => (expression_suffix levels hi).1) hp) hrest']

/-! ## Blame -/

/-- Tokens that a reader fails on, cut at the token it blames.  What comes before can be continued
to what is derived, and with the token nothing is read. -/
structure Blamed (read : List Token → Except ParseError (Formula × List Token))
    (Derived : List Lexeme → Prop) (e : ParseError) (before after : List Token) : Prop where
  /-- The error is about the token behind the cut. -/
  blames : Blames e after.head?
  /-- What stands before the cut can be continued. -/
  viable : ∃ ls, Derived (lexemesOf before ++ ls)
  /-- With the token behind the cut it cannot. -/
  hopeless : ∀ t ∈ after.head?, ∀ more, ∃ e', read (before ++ t :: more) = .error e'

theorem comparisonOf_blamed {field : String} {ts : List Token} {e : ParseError}
    (h : comparisonOf field ts = .error e) : ∃ before after, ts = before ++ after ∧
      Blamed (comparisonOf field) (fun ls => ∃ c v, ls = [.comparator c, .value v]) e
        before after := by
  obtain ⟨c, o, rest, rfl, rfl, hvalue⟩ | ⟨rfl, hcomparator⟩ := comparisonOf_error h
  · refine ⟨[⟨.comparator c, o⟩], rest, rfl, ?_, ⟨[.value (.integer 0)], c, .integer 0, rfl⟩, ?_⟩
    · rw [front_eq]
      exact .value field c rest.head?
    · rintro ⟨l, o'⟩ ht more
      cases l with
      | value v => exact absurd rfl (hvalue _ ht v)
      | _ => exact ⟨_, rfl⟩
  · refine ⟨[], ts, rfl, ?_, ⟨[.comparator .eq, .value (.integer 0)], .eq, .integer 0, rfl⟩, ?_⟩
    · rw [front_eq]
      exact .comparison field ts.head?
    · rintro ⟨l, o⟩ ht more
      cases l with
      | comparator c => exact absurd rfl (hcomparator _ ht c)
      | _ => exact ⟨_, rfl⟩

/-- A primary blames as the readers of its parts do. -/
theorem primary_blamed {levels : Nat}
    (hinner : ∀ {ts e}, expression levels ts = .error e → e ≠ .tooDeep → ∃ before after,
      ts = before ++ after ∧ Blamed (expression levels)
        (fun ls => ∃ c : Chain, c.lexemes = ls ∧ c.nesting ≤ levels) e before after)
    {ts : List Token} {e : ParseError} (h : primary (expression levels) ts = .error e)
    (hne : e ≠ .tooDeep) : ∃ before after, ts = before ++ after ∧
      Blamed (primary (expression levels))
        (fun ls => ∃ p : Primary, p.lexemes = ls ∧ p.inside ≤ levels) e before after := by
  obtain ⟨rfl, rfl⟩ | ⟨t, rest, rfl, rfl, hopening, hfield⟩ | ⟨o, rest, rfl, hi⟩ |
    ⟨o, rest, f, rest', rfl, hi, rfl, hclosing⟩ | ⟨name, o, rest, rfl, hc⟩ := primary_error h
  · -- nothing stands where a primary is needed
    exact ⟨[], [], rfl, .unexpectedEnd, ⟨_, someComparison, rfl, Nat.zero_le _⟩, nofun⟩
  · -- the first token begins no primary
    refine ⟨[], t :: rest, rfl, .unexpected t, ⟨_, someComparison, rfl, Nat.zero_le _⟩, ?_⟩
    rintro ⟨l, o⟩ ht more
    cases ht
    cases l with
    | opening => exact absurd rfl hopening
    | field name => exact absurd rfl (hfield name)
    | _ => exact ⟨_, rfl⟩
  · -- the error is inside the group
    obtain ⟨before, after, rfl, hblames, ⟨ls, c, hl, hn⟩, hhopeless⟩ := hinner hi hne
    refine ⟨⟨.opening, o⟩ :: before, after, rfl, hblames, ⟨ls ++ [.closing], .group c, ?_, ?_⟩, ?_⟩
    · rw [Primary.lexemes, hl, List.append_assoc]
      rfl
    · rwa [Primary.inside_group]
    · intro t ht more
      obtain ⟨e', he'⟩ := hhopeless t ht more
      exact ⟨e', by simp only [List.cons_append, primary, he']⟩
  · -- the group is not closed
    obtain ⟨c, hl, -, hn⟩ := expression_sound levels hi
    obtain ⟨⟨before, rfl⟩, hstops⟩ := expression_suffix levels hi
    rw [lexemesOf, List.map_append, List.append_left_inj] at hl
    refine ⟨⟨.opening, o⟩ :: before, rest', rfl, ?_, ⟨[.closing], .group c, ?_, ?_⟩, ?_⟩
    · rw [front_eq]
      exact .closing rest'.head?
    · rw [Primary.lexemes, ← hl]
      rfl
    · rwa [Primary.inside_group]
    · intro t ht more
      obtain ⟨rest'', rfl⟩ := List.head?_eq_some_iff.mp ht
      have hread : expression levels (before ++ t :: more) = .ok (c.formula, t :: more) :=
        expression_append hl hn (stops_cons hstops _)
      obtain ⟨l, o'⟩ := t
      cases l with
      | closing => exact absurd rfl (hclosing _ ht)
      | _ => exact ⟨_, by simp only [List.cons_append, primary, hread]; rfl⟩
  · -- the error is behind the field
    obtain ⟨before, after, rfl, hblames, ⟨ls, c, v, hl⟩, hhopeless⟩ := comparisonOf_blamed hc
    refine ⟨⟨.field name, o⟩ :: before, after, rfl, hblames,
      ⟨ls, .comparison ⟨name, c, v⟩, ?_, Nat.zero_le _⟩, hhopeless⟩
    rw [Primary.lexemes, ← hl]
    rfl

/-- An expression that is wrong but for its nesting has a token, or an end, to blame. -/
theorem expression_blamed : ∀ (levels : Nat) {ts : List Token} {e : ParseError},
    expression levels ts = .error e → e ≠ .tooDeep → ∃ before after, ts = before ++ after ∧
      Blamed (expression levels) (fun ls => ∃ c : Chain, c.lexemes = ls ∧ c.nesting ≤ levels) e
        before after
  | 0, _, _, h, hne => by
      cases h
      exact absurd rfl hne
  | levels + 1, ts, e, h, hne => by
      obtain hp | ⟨f, k, o, rest, hp, he⟩ := expression_error h
      · -- the error is in the first primary
        obtain ⟨before, after, rfl, hblames, ⟨ls, p, hl, hn⟩, hhopeless⟩ :=
          primary_blamed (expression_blamed levels) hp hne
        refine ⟨before, after, rfl, hblames, ⟨ls, .last p, ?_, ?_⟩, ?_⟩
        · rw [Chain.lexemes, hl]
        · rw [Chain.nesting_last]
          omega
        · intro t ht more
          obtain ⟨e', he'⟩ := hhopeless t ht more
          exact ⟨e', by simp only [expression, he']⟩
      · -- the error is behind the connective
        obtain ⟨p, hl, -, hn⟩ := primary_sound (expression_sound levels) hp
        obtain ⟨first, rfl⟩ := primary_suffix (fun hi => (expression_suffix levels hi).1) hp
        rw [lexemesOf, List.map_append, List.append_left_inj] at hl
        obtain ⟨before, after, rfl, hblames, ⟨ls, c, hl', hn'⟩, hhopeless⟩ :=
          expression_blamed levels he hne
        refine ⟨first ++ ⟨.connective k, o⟩ :: before, after, ?_, hblames,
          ⟨ls, .link p k c, ?_, ?_⟩, ?_⟩
        · rw [List.append_assoc, List.cons_append]
        · rw [Chain.lexemes, hl', ← hl, lexemesOf, lexemesOf, List.map_append, List.append_assoc]
          rfl
        · rw [Chain.nesting_link]
          omega
        · intro t ht more
          obtain ⟨e', he'⟩ := hhopeless t ht more
          refine ⟨e', ?_⟩
          rw [List.append_assoc, List.cons_append]
          simp only [expression, primary_append hl hn, he']

/-! ## Whole lists of tokens -/

/-- Tokens are no formula if they are no expression, or if tokens are left behind one. -/
theorem ofTokens_eq_error_iff {ts : List Token} {e : ParseError} (hts : ts ≠ []) :
    ofTokens ts = .error e ↔ expression maxNesting ts = .error e ∨
      ∃ f t rest, expression maxNesting ts = .ok (f, t :: rest) ∧ e = .trailing t := by
  obtain ⟨t, ts, rfl⟩ := List.exists_cons_of_ne_nil hts
  simp only [ofTokens]
  cases expression maxNesting (t :: ts) with
  | error e' => simp
  | ok r =>
      obtain ⟨f, _ | ⟨t', rest⟩⟩ := r
      · simp
      · constructor
        · intro h
          cases h
          exact Or.inr ⟨f, t', rest, rfl, rfl⟩
        · rintro (h | ⟨_, _, _, h, rfl⟩)
          · cases h
          · cases h
            rfl

theorem ofTokens_tooDeep_iff {ts : List Token} (hts : ts ≠ []) :
    ofTokens ts = .error .tooDeep ↔ expression maxNesting ts = .error .tooDeep := by
  rw [ofTokens_eq_error_iff hts]
  refine ⟨fun h => h.resolve_right ?_, Or.inl⟩
  rintro ⟨f, t, rest, -, he⟩
  cases he

/-- The lexemes of a chain that fits can be completed to the tokens of a formula. -/
theorem exists_ofTokens_append {c : Chain} {before : List Token} {ls : List Lexeme}
    (hl : c.lexemes = lexemesOf before ++ ls) (hn : c.nesting ≤ maxNesting) :
    ∃ more f, ofTokens (before ++ more) = .ok f := by
  refine ⟨ls.map (⟨·, 0⟩), c.formula, ofTokens_of_lexemes ?_ hn⟩
  rw [hl, lexemesOf, List.map_append, List.map_map]
  exact congrArg _ (List.map_id _)

theorem ofTokens_ne_ok {ts : List Token} {e : ParseError} (h : expression maxNesting ts = .error e)
    (f : Formula) : ofTokens ts ≠ .ok f := by
  intro hok
  cases ts with
  | nil => cases hok
  | cons t ts =>
      simp only [ofTokens, h] at hok
      cases hok

/-- Tokens that are no formula but for their nesting have a token, or an end, to blame. -/
theorem ofTokens_blamed {ts : List Token} {e : ParseError} (hts : ts ≠ [])
    (h : ofTokens ts = .error e) (hne : e ≠ .tooDeep) : ∃ before after, ts = before ++ after ∧
      Blames e after.head? ∧ (∃ more f, ofTokens (before ++ more) = .ok f) ∧
      ∀ t ∈ after.head?, ∀ more f, ofTokens (before ++ t :: more) ≠ .ok f := by
  obtain he | ⟨f, t, rest, he, rfl⟩ := (ofTokens_eq_error_iff hts).mp h
  · obtain ⟨before, after, rfl, hblames, ⟨ls, c, hl, hn⟩, hhopeless⟩ :=
      expression_blamed maxNesting he hne
    refine ⟨before, after, rfl, hblames, exists_ofTokens_append hl hn, fun t ht more f => ?_⟩
    obtain ⟨e', he'⟩ := hhopeless t ht more
    exact ofTokens_ne_ok he' f
  · -- what comes before the token that is left is a formula
    obtain ⟨c, hl, -, hn⟩ := expression_sound maxNesting he
    obtain ⟨⟨before, rfl⟩, hstops⟩ := expression_suffix maxNesting he
    rw [lexemesOf, List.map_append, List.append_left_inj] at hl
    refine ⟨before, t :: rest, rfl, .trailing t,
      exists_ofTokens_append (hl.symm.trans (List.append_nil _).symm) hn, fun t' ht more f => ?_⟩
    cases ht
    have hread : expression maxNesting (before ++ t :: more) = .ok (c.formula, t :: more) :=
      expression_append hl hn (stops_cons hstops _)
    have herror := (ofTokens_eq_error_iff (by simp)).mpr (Or.inr ⟨_, _, _, hread, rfl⟩)
    rw [herror]
    exact fun hok => by cases hok

end Formula

/-- Where reading goes wrong.  The nesting of tokens is too deep exactly if they have a viable
prefix that ends in what opens a level too many.  Every other error is about the first token
that makes the tokens hopeless, or about the end of the tokens: those before it can be continued
to a formula, and with it they cannot. -/
theorem ofTokens_error_position {ts : List Token} (hts : ts ≠ []) :
    (Formula.ofTokens ts = .error .tooDeep ↔ ∃ before t after, ts = before ++ t :: after ∧
      t.lexeme.Deepens ∧ Viable ((before ++ [t]).map (·.lexeme)) ∧
      levelFrom [] 1 ((before ++ [t]).map (·.lexeme)) = maxNesting + 1) ∧
    ∀ e, Formula.ofTokens ts = .error e → e = .tooDeep ∨ ∃ k ≤ ts.length, Blames e ts[k]? ∧
      (∃ front back, e.message = front ++ ParseError.foundText (ts[k]?.map (·.lexeme)) ++ back) ∧
      (∃ more f, Formula.ofTokens (ts.take k ++ more) = .ok f) ∧
      (k < ts.length → ∀ more f, Formula.ofTokens (ts.take (k + 1) ++ more) ≠ .ok f) := by
  constructor
  · rw [Formula.ofTokens_tooDeep_iff hts, Formula.expression_tooDeep_iff]
    constructor
    · rintro ⟨ls, rest, hls, hleads⟩
      obtain ⟨init, l, rfl, hl⟩ := hleads.exists_last (by decide)
      rw [List.append_assoc, List.singleton_append] at hls
      obtain ⟨before, ts', rfl, hbefore, hts'⟩ := List.map_eq_append_iff.mp hls
      obtain ⟨t, after, rfl, rfl, -⟩ := List.map_eq_cons_iff.mp hts'
      refine ⟨before, t, after, rfl, hl, ?_⟩
      rw [List.map_append, hbefore, List.map_singleton]
      exact ⟨hleads.viable, (hleads.levelFrom_eq [] 1).trans (Nat.add_comm 1 maxNesting)⟩
    · rintro ⟨before, t, after, rfl, hl, ⟨e, rest, he⟩, hlevel⟩
      rw [List.map_append, List.map_singleton] at he hlevel
      rw [List.append_assoc, List.singleton_append] at he
      obtain ⟨n, hleads⟩ := Chain.exists_leads e hl he.symm
      have hn : n = maxNesting := by
        have := hleads.levelFrom_eq [] 1
        omega
      refine ⟨_, after.map (·.lexeme), ?_, hn ▸ hleads⟩
      rw [Formula.lexemesOf, List.map_append, List.map_cons, List.append_assoc]
      rfl
  · intro e he
    by_cases hne : e = .tooDeep
    · exact Or.inl hne
    · obtain ⟨before, after, rfl, hblames, hviable, hhopeless⟩ := Formula.ofTokens_blamed hts he hne
      have hk : (before ++ after)[before.length]? = after.head? := by
        rw [List.getElem?_append_right (Nat.le_refl _), Nat.sub_self, List.head?_eq_getElem?]
      refine Or.inr ⟨before.length, by simp, ?_, ?_, ?_, fun hlt more f => ?_⟩
      · rwa [hk]
      · rw [hk]
        exact hblames.message_eq
      · rwa [List.take_left]
      · cases after with
        | nil => simp at hlt
        | cons t after =>
            rw [List.take_append, List.take_of_length_le (Nat.le_succ _), Nat.add_sub_cancel_left,
              List.append_assoc]
            exact hhopeless t rfl more f

/-- The tokens of `(a > 1 and (b < 2) c`. -/
def unclosed : List Token :=
  [⟨.opening, 0⟩, ⟨.field "a", 1⟩, ⟨.comparator .gt, 3⟩, ⟨.value (.integer 1), 5⟩,
    ⟨.connective .and, 7⟩, ⟨.opening, 11⟩, ⟨.field "b", 12⟩, ⟨.comparator .lt, 14⟩,
    ⟨.value (.integer 2), 16⟩, ⟨.closing, 17⟩, ⟨.field "c", 19⟩]

theorem ofTokens_error_position_unclosed : unclosed ≠ [] ∧
    Formula.ofTokens unclosed = .error (.expectedClosing (some (.field "c"))) ∧
    ∃ k ≤ unclosed.length, Blames (.expectedClosing (some (.field "c"))) unclosed[k]? ∧
      (∃ front back, ParseError.message (.expectedClosing (some (.field "c"))) =
        front ++ ParseError.foundText (unclosed[k]?.map (·.lexeme)) ++ back) ∧
      (∃ more f, Formula.ofTokens (unclosed.take k ++ more) = .ok f) ∧
      (k < unclosed.length → ∀ more f,
        Formula.ofTokens (unclosed.take (k + 1) ++ more) ≠ .ok f) := by
  have hne : unclosed ≠ [] := by decide
  have herror : Formula.ofTokens unclosed = .error (.expectedClosing (some (.field "c"))) := by rfl
  exact ⟨hne, herror, ((ofTokens_error_position hne).2 _ herror).resolve_left (by decide)⟩

end Rulebook
