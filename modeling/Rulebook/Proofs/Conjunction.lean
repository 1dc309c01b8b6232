import Rulebook.Proofs.KeptRules

/-!
# Rules of identifiers as a conjunction

The service joins rules as texts, so an `or` in one of them would take in the rules behind
it.  A rule whose connectives outside parentheses are all `and` does no such thing
(`Chain.Conjunctive`).  With such a chain in front, a chain means the conjunction of the two
(`Chain.verdict_append`).  The last rule may be any, since nothing stands behind it.

Every comparison is judged, whatever the others say, and so the conjunction fails with the
leftmost failure, be it behind a rule that is false.  This is what judging one rule after
the other gives, where the first failure stops and a false verdict does not
(`Chain.verdict_joined`).

`evaluate_ids_of_reachable` says so for the rules that identifiers ask for, wherever calls
lead.
-/

namespace Rulebook

open Rulebook.Text (isAllBlank trimmed)

/-! ## Chains of conjunctions -/

/-- Whether the connectives of a chain outside parentheses are all `and`. -/
def Chain.Conjunctive : Chain → Prop
  | .last _ => True
  | .link _ k rest => k = .and ∧ rest.Conjunctive

namespace Formula

theorem combine_assoc (k : Connective) (u v w : Bool) :
    k.combine [k.combine [u, v], w] = k.combine [u, k.combine [v, w]] := by
  cases k with
  | and => simp [Connective.combine, Bool.and_assoc]
  | or => simp [Connective.combine, Bool.or_assoc]

theorem verdict_joined_assoc (record : Record) (k : Connective) (f g h : Formula) :
    (Formula.joined k [.joined k [f, g], h]).verdict record =
      (Formula.joined k [f, .joined k [g, h]]).verdict record := by
  simp only [verdict, verdicts]
  cases f.verdict record with
  | error e => rfl
  | ok u =>
      cases g.verdict record with
      | error e => rfl
      | ok v =>
          cases h.verdict record with
          | error e => rfl
          | ok w => exact congrArg Except.ok (combine_assoc k u v w)

end Formula

namespace Chain

/-- A chain without `or` and the chain behind it are worth their conjunction. -/
theorem verdict_append (record : Record) : ∀ {e : Chain} (e' : Chain), e.Conjunctive →
    (e.append .and e').formula.verdict record =
      (Formula.joined .and [e.formula, e'.formula]).verdict record
  | .last p, e', _ => by rw [append, formula, formula]
  | .link p k rest, e', h => by
      obtain ⟨rfl, hrest⟩ := h
      rw [append, formula, formula, Formula.verdict_joined_assoc]
      exact Formula.verdict_joined_congr record .and rfl (verdict_append record e' hrest)

/-- Chains without `or`, but for the last, are worth the verdicts of all in turn. -/
theorem verdict_joined (record : Record) (e : Chain) (es : List Chain)
    (h : ∀ e' ∈ (e :: es).dropLast, e'.Conjunctive) :
    (e.joined es).formula.verdict record =
      ((e :: es).mapM fun d : Chain => d.formula.verdict record).map (·.all id) := by
  induction es generalizing e with
  | nil =>
      rw [joined, List.mapM_cons, List.mapM_nil]
      cases e.formula.verdict record with
      | error err => rfl
      | ok v => exact congrArg Except.ok (Bool.and_true v).symm
  | cons e' es ih =>
      have htail := ih e' fun d hd => h d (List.mem_cons_of_mem e hd)
      rw [joined, verdict_append record _ (h e List.mem_cons_self), List.mapM_cons]
      simp only [Formula.verdict, Formula.verdicts, htail]
      cases e.formula.verdict record with
      | error err => rfl
      | ok v =>
          cases (e' :: es).mapM fun d : Chain => d.formula.verdict record with
          | error err => rfl
          | ok vs => exact congrArg Except.ok (by simp [Connective.combine])

end Chain

/-! ## Rules in turn -/

/-- Whether the text of a rule has no connective but `and` outside parentheses. -/
def Rule.Conjunctive (rule : Rule) : Prop :=
  ∃ e : Chain, e.DerivesText rule.expression ∧ e.Conjunctive

theorem exists_rel_of_mem_dropLast {α : Type} {R : α → α → Prop} {x : α} :
    ∀ {xs : List α}, xs.Pairwise R → x ∈ xs.dropLast → ∃ y ∈ xs, R x y
  | [_], _, hx => by cases hx
  | a :: b :: xs, hpair, hx => by
      obtain ⟨hhead, htail⟩ := List.pairwise_cons.mp hpair
      rw [List.dropLast_cons_cons] at hx
      rcases List.mem_cons.mp hx with rfl | hx
      · exact ⟨b, List.mem_cons_of_mem x List.mem_cons_self, hhead b List.mem_cons_self⟩
      · obtain ⟨y, hy, hxy⟩ := exists_rel_of_mem_dropLast htail hx
        exact ⟨y, List.mem_cons_of_mem a hy, hxy⟩

theorem Chain.conjunctive_of_mem_dropLast {es : List Chain} {texts : List String}
    (h : List.Forall₂ DerivesText es texts)
    (hand : ∀ t ∈ texts.dropLast, ∃ e : Chain, e.DerivesText t ∧ e.Conjunctive) :
    ∀ e ∈ es.dropLast, e.Conjunctive := by
  induction h with
  | nil =>
      intro e he
      cases he
  | cons h hs ih =>
      cases hs with
      | nil =>
          intro e he
          cases he
      | cons =>
          intro e he
          rw [List.dropLast_cons_cons] at he hand
          rcases List.mem_cons.mp he with rfl | he
          · obtain ⟨e', he', hconj⟩ := hand _ List.mem_cons_self
            rwa [h.unique he']
          · exact ih (fun t ht => hand t (List.mem_cons_of_mem _ ht)) e he

theorem Service.judge_of_derivesText {e : Chain} {text : String} (h : e.DerivesText text)
    (hn : e.nesting ≤ maxNesting) (data : Record) :
    Service.judge text data = (e.formula.verdict data).mapError .evaluation := by
  rw [Service.judge, h.parseRule, if_pos hn]

/-- Judging texts in turn is judging their formulas in turn. -/
theorem Service.mapM_judge {es : List Chain} {texts : List String} (data : Record)
    (h : List.Forall₂ Chain.DerivesText es texts) (hread : ∀ t ∈ texts, ∃ f, parseRule t = .ok f) :
    (texts.mapM fun t => Service.judge t data) =
      (es.mapM fun e : Chain => e.formula.verdict data).mapError .evaluation := by
  induction h with
  | nil => rfl
  | @cons e text es texts he _ ih =>
      have hn : e.nesting ≤ maxNesting := by
        obtain ⟨f, hf⟩ := hread text List.mem_cons_self
        rw [he.parseRule] at hf
        by_contra hn
        rw [if_neg hn] at hf
        cases hf
      rw [List.mapM_cons, List.mapM_cons, judge_of_derivesText he hn,
        ih fun t ht => hread t (List.mem_cons_of_mem text ht)]
      cases e.formula.verdict data with
      | error err => rfl
      | ok v =>
          cases es.mapM fun d : Chain => d.formula.verdict data with
          | error err => rfl
          | ok vs => rfl

namespace Service

variable {s : Service MemoryStore} {ids : List String}

theorem exists_not_isAllBlank (h : s.store.Kept)
    (hnamed : ∃ id ∈ ids, (s.store.rules.get? (trimmed id)).isSome = true) :
    ∃ id ∈ ids, isAllBlank id = false := by
  obtain ⟨id, hid, hsome⟩ := hnamed
  obtain ⟨rule, hget⟩ := Option.isSome_iff_exists.mp hsome
  have hkept := h _ rule hget
  refine ⟨id, hid, Bool.eq_false_iff.mpr fun hblank => ?_⟩
  exact hkept.id_ne (hkept.id_eq.trans (Text.trimmed_eq_empty_iff.mpr hblank))

/-- Rules without `or`, but for the last, have chains of which all but the last have none. -/
theorem conjunctive_of_found (h : s.store.Kept) {es : List Chain}
    (hes : List.Forall₂ Chain.DerivesText es ((s.found ids).map (·.expression)))
    (hand : ∀ rule ∈ s.found ids, (∃ other ∈ s.found ids, rule.id < other.id) → rule.Conjunctive) :
    ∀ e ∈ es.dropLast, e.Conjunctive := by
  refine Chain.conjunctive_of_mem_dropLast hes ?_
  intro t ht
  rw [← List.map_dropLast] at ht
  obtain ⟨rule, hrule, rfl⟩ := List.mem_map.mp ht
  exact hand rule (List.dropLast_subset _ hrule)
    (exists_rel_of_mem_dropLast (pairwise_found h) hrule)

end Service

/-- The verdict on the rules of identifiers is that on the rules one after the other, in ascending
order: the first failure, also behind a rule that is false, and else whether all are true.  Of the
rules only the last may have an `or` outside parentheses.  The whole may nest too deep. -/
theorem evaluate_ids_of_reachable {s : Service MemoryStore} (hs : s.Reachable) {ids : List String}
    (hnamed : ∃ id ∈ ids, (s.store.rules.get? (trimmed id)).isSome = true)
    (hand : ∀ rule ∈ s.found ids, (∃ other ∈ s.found ids, rule.id < other.id) → rule.Conjunctive)
    (data : Record) (stamp : Stamp) :
    (∀ rule, rule ∈ s.found ids ↔ ∃ id ∈ ids, s.store.rules.get? (trimmed id) = some rule) ∧
    (s.found ids).Pairwise (·.id < ·.id) ∧
    ∃ e es, List.Forall₂ Chain.DerivesText (e :: es) ((s.found ids).map (·.expression)) ∧
      (s.evaluate ⟨none, some ids, data⟩ stamp).1 =
        if (e.joined es).nesting ≤ maxNesting then
          ((s.found ids).mapM fun rule => Service.judge rule.expression data).map (·.all id)
        else .error (.invalidRule .tooDeep) := by
  have hkept := MemoryStore.kept_of_reachable hs
  refine ⟨fun rule => Service.mem_found hkept, Service.pairwise_found hkept, ?_⟩
  have hfound : s.found ids ≠ [] := by
    obtain ⟨id, hid, hsome⟩ := hnamed
    rw [ne_eq, Service.found_eq_nil_iff hkept]
    intro hnone
    rw [hnone id hid] at hsome
    cases hsome
  have hread : ∀ t ∈ (s.found ids).map (·.expression), ∃ f, parseRule t = .ok f := by
    intro t ht
    obtain ⟨rule, hrule, rfl⟩ := List.mem_map.mp ht
    exact (Service.kept_of_mem_found hkept hrule).reads
  obtain ⟨e, es, hes, hwhole⟩ := Service.exists_joined_found hkept hfound
  refine ⟨e, es, hes, ?_⟩
  have hids := Service.exists_not_isAllBlank hkept hnamed
  rw [Service.evaluate_fst, Service.textOf_ids s (by simp) hids,
    Service.combine_of_found_ne_nil hfound, hwhole.parseRule]
  by_cases hn : (e.joined es).nesting ≤ maxNesting
  · have hturn : ((s.found ids).mapM fun rule => Service.judge rule.expression data) =
        ((e :: es).mapM fun d : Chain => d.formula.verdict data).mapError .evaluation := by
      rw [← Service.mapM_judge data hes hread, List.mapM_map]
      rfl
    simp only [if_pos hn]
    rw [Service.judge_of_derivesText hwhole hn, hturn,
      Chain.verdict_joined data e es (Service.conjunctive_of_found hkept hes hand)]
    cases (e :: es).mapM fun d : Chain => d.formula.verdict data with
    | error err => rfl
    | ok vs => rfl
  · simp only [if_neg hn]

/-- A rule that is false does not keep the one behind it from failing. -/
theorem evaluate_ids_of_reachable_failure :
    ∃ s : Service MemoryStore, s.Reachable ∧
      (∃ id ∈ ["b", " a "], (s.store.rules.get? (trimmed id)).isSome = true) ∧
      (∀ rule ∈ s.found ["b", " a "],
        (∃ other ∈ s.found ["b", " a "], rule.id < other.id) → rule.Conjunctive) ∧
      ∀ stamp, (s.evaluate ⟨none, some ["b", " a "],
          Table.ofList [("x", .integer 0), ("y", .integer 5)]⟩ stamp).1 =
        .error (.evaluation (.fieldNotFound "z")) := by
  let calls : List ServiceCall := [.create "b" "y > 1 or z = 2", .create "a" "x > 1"]
  have hs : (Service.reached 1 true calls).Reachable := ⟨1, true, calls, rfl⟩
  have hfound : (Service.reached 1 true calls).found ["b", " a "] =
      [⟨"a", "x > 1"⟩, ⟨"b", "y > 1 or z = 2"⟩] := by
    decide +kernel
  have hnamed : ∃ id ∈ ["b", " a "],
      ((Service.reached 1 true calls).store.rules.get? (trimmed id)).isSome = true := by
    decide +kernel
  have hfirst : (Chain.last (.comparison ⟨"x", .gt, .integer 1⟩)).DerivesText "x > 1" :=
    ⟨[⟨.field "x", 0⟩, ⟨.comparator .gt, 2⟩, ⟨.value (.integer 1), 4⟩], by decide +kernel, rfl⟩
  have hsecond : (Chain.link (.comparison ⟨"y", .gt, .integer 1⟩) .or
      (.last (.comparison ⟨"z", .eq, .integer 2⟩))).DerivesText "y > 1 or z = 2" :=
    ⟨[⟨.field "y", 0⟩, ⟨.comparator .gt, 2⟩, ⟨.value (.integer 1), 4⟩, ⟨.connective .or, 6⟩,
      ⟨.field "z", 9⟩, ⟨.comparator .eq, 11⟩, ⟨.value (.integer 2), 13⟩], by decide +kernel, rfl⟩
  have hand : ∀ rule ∈ (Service.reached 1 true calls).found ["b", " a "],
      (∃ other ∈ (Service.reached 1 true calls).found ["b", " a "], rule.id < other.id) →
        rule.Conjunctive := by
    rw [hfound]
    intro rule hrule hother
    simp only [List.mem_cons, List.not_mem_nil, or_false] at hrule
    rcases hrule with rfl | rfl
    · exact ⟨_, hfirst, trivial⟩
    · exact absurd hother (by decide)
  refine ⟨_, hs, hnamed, hand, fun stamp => ?_⟩
  obtain ⟨-, -, e, es, hes, heval⟩ := evaluate_ids_of_reachable hs hnamed hand
    (Table.ofList [("x", .integer 0), ("y", .integer 5)]) stamp
  rw [hfound] at hes heval
  cases Chain.eq_of_forall₂_derivesText hes (.cons hfirst (.cons hsecond .nil))
  rw [heval, if_pos (by decide)]
  decide +kernel

end Rulebook
