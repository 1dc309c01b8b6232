import Rulebook.Proofs.KeptRules

/-!
# Identifiers in a list with commas

The rules to combine are named by a list of identifiers, or by one text that has the
identifiers with commas between them.  A text is cut at every comma, and the blanks around a
piece count for nothing (`Service.splitIds_intercalate`, `Service.splitIds_of_padded`).  So
the text names the parts of the identifiers between their own commas, and for identifiers
without a comma these are the identifiers (`combineList_joined`).

Nothing in the text marks a comma as part of an identifier, and the service keeps rules under
identifiers with commas.  Such a rule is found by a list only (`not_combineList_joined`).
-/

namespace Rulebook

open Rulebook.Text (isBlank trim trimmed)

/-! ## Pieces between commas -/

/-- The pieces of a text between commas. -/
def pieces (cs : List Char) : List (List Char) := cs.splitOnP (· == ',')

theorem pieces_comma (cs : List Char) : pieces (',' :: cs) = [] :: pieces cs := by
  rw [pieces, List.splitOnP_cons_eq_if_modifyHead]
  rfl

theorem pieces_cons {c : Char} (hc : c ≠ ',') (cs : List Char) :
    pieces (c :: cs) = (pieces cs).modifyHead (c :: ·) := by
  rw [pieces, List.splitOnP_cons_eq_if_modifyHead, if_neg (by simpa using hc)]
  rfl

theorem pieces_of_not_mem {cs : List Char} (h : ',' ∉ cs) : pieces cs = [cs] :=
  List.splitOnP_eq_singleton fun c hc => by
    rw [beq_eq_false_iff_ne]
    rintro rfl
    exact h hc

theorem ne_comma_of_isBlank {c : Char} (h : isBlank c = true) : c ≠ ',' := by
  rintro rfl
  revert h
  decide

/-- Texts joined with commas have the pieces of each text. -/
theorem pieces_intercalate : ∀ {texts : List (List Char)}, texts ≠ [] →
    pieces ([','].intercalate texts) = texts.flatMap pieces
  | [], h => absurd rfl h
  | [cs], _ => by rw [List.intercalate_singleton, List.flatMap_singleton]
  | cs :: ds :: texts, _ => by
      rw [List.intercalate_cons_cons, List.append_assoc, List.singleton_append, pieces,
        List.splitOnP_append_cons _ _ (by rfl), List.flatMap_cons,
        ← pieces_intercalate (List.cons_ne_nil ds texts)]
      rfl

/-! ## Blanks around a text -/

/-- Whether a text is another one with blanks around it. -/
def Padded (padded text : String) : Prop :=
  ∃ before after, padded.toList = before ++ text.toList ++ after ∧
    (∀ c ∈ before, isBlank c = true) ∧ ∀ c ∈ after, isBlank c = true

/-- Blanks in front of a text stand in front of its first piece. -/
theorem trim_pieces_front {before : List Char} (h : ∀ c ∈ before, isBlank c = true)
    (cs : List Char) : (pieces (before ++ cs)).map trim = (pieces cs).map trim := by
  induction before with
  | nil => rfl
  | cons b before ih =>
      obtain ⟨hb, hbefore⟩ := List.forall_mem_cons.mp h
      have hhead : ∀ ds : List (List Char), (ds.modifyHead (b :: ·)).map trim = ds.map trim := by
        intro ds
        cases ds with
        | nil => rfl
        | cons d ds =>
            rw [List.modifyHead_cons, List.map_cons, List.map_cons, trim, trim,
              List.dropWhile_cons_of_pos hb]
      rw [List.cons_append, pieces_cons (ne_comma_of_isBlank hb), hhead, ih hbefore]

/-- Blanks behind a text stand behind its last piece. -/
theorem pieces_behind {after : List Char} (h : ∀ c ∈ after, isBlank c = true) :
    ∀ cs : List Char, ∃ front last, pieces cs = front ++ [last] ∧
      pieces (cs ++ after) = front ++ [last ++ after]
  | [] => by
      have hmem : ',' ∉ after := fun hmem => ne_comma_of_isBlank (h _ hmem) rfl
      exact ⟨[], [], rfl, pieces_of_not_mem hmem⟩
  | c :: cs => by
      obtain ⟨front, last, hcs, hcs'⟩ := pieces_behind h cs
      rw [List.cons_append]
      by_cases hc : c = ','
      · subst hc
        refine ⟨[] :: front, last, ?_, ?_⟩
        · rw [pieces_comma, hcs, List.cons_append]
        · rw [pieces_comma, hcs', List.cons_append]
      · rw [pieces_cons hc, pieces_cons hc, hcs, hcs']
        cases front with
        | nil => exact ⟨[], c :: last, rfl, rfl⟩
        | cons d front => exact ⟨(c :: d) :: front, last, rfl, rfl⟩

theorem trim_append_blanks {after : List Char} (h : ∀ c ∈ after, isBlank c = true)
    (cs : List Char) : trim (cs ++ after) = trim cs := by
  obtain ⟨front, back, hcs, hfront, hback⟩ := Text.exists_trim cs
  have hafter : ∀ c ∈ back ++ after, isBlank c = true := fun c hc =>
    (List.mem_append.mp hc).elim (hback c) (h c)
  calc trim (cs ++ after) = trim (front ++ trim cs ++ (back ++ after)) := by
        rw [← List.append_assoc, ← hcs]
    _ = trim cs := Text.trim_append hfront hafter (Text.ends_of_trim cs)

/-- Blanks behind a text are taken off its last piece. -/
theorem trim_pieces_behind {after : List Char} (h : ∀ c ∈ after, isBlank c = true)
    (cs : List Char) : (pieces (cs ++ after)).map trim = (pieces cs).map trim := by
  obtain ⟨front, last, hcs, hcs'⟩ := pieces_behind h cs
  rw [hcs, hcs', List.map_append, List.map_append, List.map_singleton, List.map_singleton,
    trim_append_blanks h]

/-! ## Identifiers -/

namespace Service

theorem splitIds_eq (list : String) :
    splitIds list = (((pieces list.toList).map trim).map String.ofList).filter (!·.isEmpty) := by
  rw [splitIds, trimmedIds, List.map_map, List.map_map, pieces]
  refine congrArg (List.filter _) (List.map_congr_left fun cs _ => ?_)
  rw [Function.comp_apply, Function.comp_apply, trimmed, String.toList_ofList]

/-- A list that joins texts with commas names what the texts name. -/
theorem splitIds_intercalate (texts : List String) :
    splitIds (",".intercalate texts) = texts.flatMap splitIds := by
  by_cases hnil : texts = []
  · subst hnil
    rfl
  · have hmap : texts.map String.toList ≠ [] := by simpa using hnil
    have hcomma : ",".toList = [','] := rfl
    rw [splitIds_eq, String.toList_intercalate, hcomma, pieces_intercalate hmap, List.flatMap_map,
      List.map_flatMap, List.map_flatMap, List.filter_flatMap]
    exact List.flatMap_congr fun text _ => (splitIds_eq text).symm

/-- Blanks around a text do not change what it names. -/
theorem splitIds_of_padded {padded text : String} (h : Padded padded text) :
    splitIds padded = splitIds text := by
  obtain ⟨before, after, heq, hbefore, hafter⟩ := h
  rw [splitIds_eq, splitIds_eq, heq, List.append_assoc, trim_pieces_front hbefore,
    trim_pieces_behind hafter]

/-- An identifier of a rule that the service keeps, without a comma, names itself. -/
theorem splitIds_of_kept {rule : Rule} {key : String} (h : rule.Kept key)
    (hcomma : ',' ∉ rule.id.toList) : splitIds rule.id = [rule.id] := by
  have htrim : String.ofList (trim rule.id.toList) = rule.id := h.id_trimmed
  have hne : (!rule.id.isEmpty) = true := by simpa using h.id_ne
  rw [splitIds_eq, pieces_of_not_mem hcomma, List.map_singleton, List.map_singleton, htrim,
    List.filter_cons, if_pos hne, List.filter_nil]

theorem splitIds_joined {ids texts : List String} (h : List.Forall₂ Padded texts ids) :
    splitIds (",".intercalate texts) = ids.flatMap splitIds := by
  rw [splitIds_intercalate]
  induction h with
  | nil => rfl
  | cons hpad _ ih => rw [List.flatMap_cons, List.flatMap_cons, splitIds_of_padded hpad, ih]

/-- Identifiers of kept rules, none of them with a comma, name themselves. -/
theorem flatMap_splitIds {s : Service MemoryStore} (hs : s.store.Kept) :
    ∀ {ids : List String}, (∀ id ∈ ids, ∃ rule, s.store.rules.get? id = some rule) →
      (∀ id ∈ ids, ',' ∉ id.toList) → ids.flatMap splitIds = ids
  | [], _, _ => rfl
  | id :: ids, hstored, hcomma => by
      obtain ⟨⟨rule, hget⟩, hstored'⟩ := List.forall_mem_cons.mp hstored
      obtain ⟨hid, hcomma'⟩ := List.forall_mem_cons.mp hcomma
      have hrule := hs id rule hget
      have hself := splitIds_of_kept hrule (hrule.id_eq.symm ▸ hid)
      rw [hrule.id_eq] at hself
      rw [List.flatMap_cons, hself, flatMap_splitIds hs hstored' hcomma', List.singleton_append]

end Service

/-- The identifiers of rules that a service keeps, joined with commas and any blanks around these,
ask for the rules of what stands between commas.  If no identifier has a comma, they ask for the
rules that the identifiers ask for in a list. -/
theorem combineList_joined {s : Service MemoryStore} (hs : s.Reachable) {ids texts : List String}
    (hstored : ∀ id ∈ ids, ∃ rule, s.store.rules.get? id = some rule)
    (hpadded : List.Forall₂ Padded texts ids) :
    s.combineList (",".intercalate texts) = s.combine (ids.flatMap Service.splitIds) ∧
      ((∀ id ∈ ids, ',' ∉ id.toList) →
        s.combineList (",".intercalate texts) = s.combine ids) := by
  have hjoined : s.combineList (",".intercalate texts) =
      s.combine (ids.flatMap Service.splitIds) :=
    congrArg s.combine (Service.splitIds_joined hpadded)
  refine ⟨hjoined, fun hcomma => ?_⟩
  have hkept := MemoryStore.kept_of_reachable hs
  rw [hjoined, Service.flatMap_splitIds hkept hstored hcomma]

/-- Three identifiers with blanks around a comma, one of them twice. -/
theorem combineList_joined_twice :
    ∃ s : Service MemoryStore, s.Reachable ∧ s.combineList "b b ,\ta,  b b" =
      s.combine ["b b", "a", "b b"] := by
  let calls : List ServiceCall := [.create " b b" "x > 1", .create "a" "y > 2"]
  have hs : (Service.reached 1 true calls).Reachable := ⟨1, true, calls, rfl⟩
  have ha : (Service.reached 1 true calls).store.rules.get? "a" = some ⟨"a", "y > 2"⟩ := by
    decide +kernel
  have hb : (Service.reached 1 true calls).store.rules.get? "b b" = some ⟨"b b", "x > 1"⟩ := by
    decide +kernel
  have hstored : ∀ id ∈ ["b b", "a", "b b"],
      ∃ rule, (Service.reached 1 true calls).store.rules.get? id = some rule :=
    List.forall_mem_cons.mpr ⟨⟨_, hb⟩, List.forall_mem_cons.mpr ⟨⟨_, ha⟩,
      List.forall_mem_singleton.mpr ⟨_, hb⟩⟩⟩
  have hspace : isBlank ' ' = true := by decide
  have htab : isBlank '\t' = true := by decide
  have hpadded : List.Forall₂ Padded ["b b ", "\ta", "  b b"] ["b b", "a", "b b"] :=
    .cons ⟨[], [' '], by decide, List.forall_mem_nil _, List.forall_mem_singleton.mpr hspace⟩
      (.cons ⟨['\t'], [], by decide, List.forall_mem_singleton.mpr htab, List.forall_mem_nil _⟩
        (.cons ⟨[' ', ' '], [], by decide,
          List.forall_mem_cons.mpr ⟨hspace, List.forall_mem_singleton.mpr hspace⟩,
          List.forall_mem_nil _⟩ .nil))
  have hcomma : ∀ id ∈ ["b b", "a", "b b"], ',' ∉ id.toList := by decide
  exact ⟨_, hs, (combineList_joined hs hstored hpadded).2 hcomma⟩

/-- A rule whose identifier has a comma is found by a list, and not by the same text. -/
theorem not_combineList_joined :
    ¬ ∀ (s : Service MemoryStore) (ids texts : List String), s.Reachable → ids ≠ [] →
      (∀ id ∈ ids, ∃ rule, s.store.rules.get? id = some rule) →
      List.Forall₂ Padded texts ids →
      s.combineList (",".intercalate texts) = s.combine ids := by
  intro hclaim
  let calls : List ServiceCall := [.create "a,b" "x > 1"]
  have hs : (Service.reached 1 true calls).Reachable := ⟨1, true, calls, rfl⟩
  have hget : (Service.reached 1 true calls).store.rules.get? "a,b" = some ⟨"a,b", "x > 1"⟩ := by
    decide +kernel
  have hpadded : List.Forall₂ Padded ["a,b"] ["a,b"] :=
    .cons ⟨[], [], by decide, List.forall_mem_nil _, List.forall_mem_nil _⟩ .nil
  have heq := hclaim _ ["a,b"] ["a,b"] hs (List.cons_ne_nil _ _)
    (List.forall_mem_singleton.mpr ⟨_, hget⟩) hpadded
  have htext : (Service.reached 1 true calls).combineList (",".intercalate ["a,b"]) =
      .error .noRulesFound := by
    decide +kernel
  have hlist : (Service.reached 1 true calls).combine ["a,b"] = .ok "x > 1" := by
    decide +kernel
  rw [htext, hlist] at heq
  cases heq

end Rulebook
