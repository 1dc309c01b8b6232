import Mathlib.Data.List.Basic
import Rulebook.Proofs.JsonFormula
import Rulebook.Proofs.TableParts
import Rulebook.Store.Evaluation

/-!
# An evaluation is read back from its line

The line of an evaluation is JSON.  The fields of its record may stand there in any order,
since a record has no order of its own (`Evaluation.Writes`).

No text of JSON has a control character (`Json.printable_render`).  So a line is ended by the
character behind it and by no other, whatever texts are in the evaluation
(`Evaluation.linesOf_flatMap`).

A line is read as the evaluation with its doubles as they are read back
(`Evaluation.Writes.ofLine?_eq`).  That is the evaluation itself exactly if every double of its
record is read back from its own text (`Evaluation.restored_eq_self_iff`).
-/

namespace Rulebook

open Rulebook.Text (isDigit)

namespace Json

/-! ## Characters -/

/-- Whether no control character is in a text. -/
def Printable (cs : List Char) : Prop := ∀ c ∈ cs, 32 ≤ c.toNat

instance (cs : List Char) : Decidable (Printable cs) :=
  decidable_of_iff ((cs.all fun c => decide (32 ≤ c.toNat)) = true) <| by
    simp only [List.all_eq_true, decide_eq_true_eq, Printable]

namespace Printable

variable {cs ds : List Char} {c : Char}

theorem nil : Printable [] := fun _ h => nomatch h

theorem cons (hc : 32 ≤ c.toNat) (h : Printable cs) : Printable (c :: cs) :=
  List.forall_mem_cons.mpr ⟨hc, h⟩

theorem append (hcs : Printable cs) (hds : Printable ds) : Printable (cs ++ ds) :=
  List.forall_mem_append.mpr ⟨hcs, hds⟩

theorem of_isDigit (h : ∀ c ∈ cs, isDigit c = true) : Printable cs := fun c hc => by
  have hdigit := isDigit_iff.mp (h c hc)
  omega

end Printable

theorem printable_hexDigit : ∀ n < 16, 32 ≤ (hexDigit n).toNat := by decide

/-- A control character is written with others. -/
theorem printable_escaped (c : Char) : Printable (escaped c) := by
  have hshort : ∀ d : Char, 32 ≤ d.toNat → Printable ['\\', d] := fun d hd =>
    .cons (by decide) (.cons hd .nil)
  unfold escaped
  split
  case isTrue => exact hshort _ (by decide)
  split
  case isTrue => exact hshort _ (by decide)
  split
  case isTrue => exact hshort _ (by decide)
  split
  case isTrue => exact hshort _ (by decide)
  split
  case isTrue => exact hshort _ (by decide)
  split
  case isTrue => exact hshort _ (by decide)
  split
  case isTrue => exact hshort _ (by decide)
  split
  case isTrue h =>
    have hhigh := printable_hexDigit (c.toNat / 16) (by omega)
    have hlow := printable_hexDigit (c.toNat % 16) (by omega)
    have hdigits : Printable [hexDigit (c.toNat / 16), hexDigit (c.toNat % 16)] :=
      .cons hhigh (.cons hlow .nil)
    exact .append (by decide : Printable ['\\', 'u', '0', '0']) hdigits
  case isFalse h => exact .cons (Nat.not_lt.mp h) .nil

theorem printable_quoted (s : String) : Printable (quoted s) := by
  refine .append (.cons (by decide) fun c hc => ?_) (.cons (by decide) .nil)
  obtain ⟨d, -, hc⟩ := List.mem_flatMap.mp hc
  exact printable_escaped d c hc

theorem printable_numeral {n : Numeral} (h : n.Proper) : Printable n.text := by
  rw [Numeral.text]
  refine .append ?_ (.append (.of_isDigit h.whole.isDigit) (.append ?_ ?_))
  · split
    · exact .cons (by decide) .nil
    · exact .nil
  · cases hf : n.fraction with
    | none => exact .nil
    | some ds => exact .cons (by decide) (.of_isDigit (h.fraction ds hf).isDigit)
  · cases he : n.exponent with
    | none => exact .nil
    | some e =>
      obtain ⟨negative, ds⟩ := e
      refine .cons (by decide) (.cons ?_ (.of_isDigit (h.exponent negative ds he).isDigit))
      cases negative <;> decide

mutual

/-- The text of a value has no control character. -/
theorem printable_render : ∀ j : Json, Printable j.render
  | .null => by
      rw [render]
      decide
  | .bool true => by
      rw [render]
      decide
  | .bool false => by
      rw [render]
      decide
  | .integer i => by
      rw [render, ← Numeral.text_ofInt]
      exact printable_numeral (Numeral.proper_ofInt i)
  | .real x => by
      rw [render, ← (Binary64.writes_numeral x).text]
      exact printable_numeral (Binary64.writes_numeral x).proper
  | .string s => by
      rw [render]
      exact printable_quoted s
  | .array items => by
      rw [render]
      exact .append (.cons (by decide) (printable_renderItems items)) (.cons (by decide) .nil)
  | .object members => by
      rw [render]
      exact .append (.cons (by decide) (printable_renderMembers members)) (.cons (by decide) .nil)

theorem printable_renderItems : ∀ js : List Json, Printable (renderItems js)
  | [] => by
      rw [renderItems]
      exact .nil
  | [j] => by
      rw [renderItems]
      exact printable_render j
  | j :: j' :: js => by
      rw [renderItems_cons_cons]
      exact .append (printable_render j) (.cons (by decide) (printable_renderItems (j' :: js)))

theorem printable_renderMembers : ∀ ms : List (String × Json), Printable (renderMembers ms)
  | [] => by
      rw [renderMembers]
      exact .nil
  | [(key, j)] => by
      rw [renderMembers]
      exact .append (printable_quoted key) (.cons (by decide) (printable_render j))
  | (key, j) :: m :: ms => by
      rw [renderMembers_cons_cons]
      exact .append (printable_quoted key) (.cons (by decide) (.append (printable_render j)
        (.cons (by decide) (printable_renderMembers (m :: ms)))))

end

/-! ## Readers of a type -/

namespace Reader

open Numeral (goesOn ends_cons)

variable {α β σ : Type}

theorem seen_string (s : String) (rest : List Char) :
    seen (string (quoted s ++ rest)) = .ok (s, rest) := by
  rw [quoted_append, string, seen_token (by decide), if_pos rfl, seen_stringAfter]

theorem seen_bool (b : Bool) (rest : List Char) :
    seen (bool ((Json.bool b).render ++ rest)) = .ok (b, rest) := by
  cases b with
  | true =>
      rw [render, List.cons_append, bool, seen_token (by decide), if_pos rfl, seen_letters]
  | false =>
      rw [render, List.cons_append, bool, seen_token (by decide), if_neg (by decide), if_pos rfl,
        seen_letters]

theorem seen_filterMap {r : Reader α} {f : α → Option β} {cs rest : List Char} {v : α} {w : β}
    (h : seen (r cs) = .ok (v, rest)) (hw : f v = some w) :
    seen (filterMap f r cs) = .ok (w, rest) := by
  obtain ⟨hshorter, hr⟩ := ok_of_seen h
  rw [filterMap, hr]
  simp only [hw, seen_ok]

/-- How a member of an object with any names is read. -/
def slots (r : Reader α) (s : List (String × α)) (key : String) :
    Option (Reader (List (String × α))) :=
  some (map (fun x => (key, x) :: s) r)

section Fields

variable {γ : Type} {r : Reader α} {write : γ → Json} {back : γ → α}

/-- Fields are read up to the brace if their values are read. -/
theorem seen_members_slots : ∀ (fields : List (String × γ)) (s : List (String × α))
    (rest : List Char), fields ≠ [] →
    (∀ field ∈ fields, ∀ rest, Ends goesOn rest →
      seen (r ((write field.2).render ++ rest)) = .ok (back field.2, rest)) →
    seen (members false (slots r) s
        (renderMembers (fields.map fun field => (field.1, write field.2)) ++ '}' :: rest)) =
      .ok ((fields.map fun field => (field.1, back field.2)).reverse ++ s, rest)
  | [(key, x)], s, rest, _, h => by
      have hx := h (key, x) List.mem_cons_self ('}' :: rest) (ends_cons (by decide))
      rw [List.map_singleton, renderMembers, List.append_assoc, List.cons_append,
        seen_members_brace rfl (seen_map _ hx)]
      rfl
  | (key, x) :: field :: fields, s, rest, _, h => by
      have hx := h (key, x) List.mem_cons_self
        (',' :: (renderMembers ((field :: fields).map fun field => (field.1, write field.2)) ++
          '}' :: rest)) (ends_cons (by decide))
      have hfields := seen_members_slots (field :: fields) ((key, back x) :: s) rest
        (List.cons_ne_nil _ _) fun field' hmem => h field' (List.mem_cons_of_mem _ hmem)
      rw [List.map_cons] at hx hfields
      rw [List.map_cons, List.map_cons, renderMembers_cons_cons, List.append_assoc,
        List.cons_append, List.append_assoc, List.cons_append,
        seen_members_comma rfl (seen_map _ hx), hfields]
      simp only [List.map_cons, List.reverse_cons, List.append_assoc, List.cons_append,
        List.nil_append]

/-- An object with any names is read if its values are. -/
theorem seen_dictionary (fields : List (String × γ))
    (h : ∀ field ∈ fields, ∀ rest, Ends goesOn rest →
      seen (r ((write field.2).render ++ rest)) = .ok (back field.2, rest))
    (rest : List Char) :
    seen (dictionary r
        ((Json.object (fields.map fun field => (field.1, write field.2))).render ++ rest)) =
      .ok (fields.map fun field => (field.1, back field.2), rest) := by
  have hslots : (fun (s : List (String × α)) key => some (map (fun x => (key, x) :: s) r)) =
      slots r := rfl
  have hobject : seen (object false (slots r) [] '{'
      (renderMembers (fields.map fun field => (field.1, write field.2)) ++ '}' :: rest)) =
      .ok ((fields.map fun field => (field.1, back field.2)).reverse, rest) := by
    cases fields with
    | nil => exact seen_object_nil '{' [] rest
    | cons field fields =>
        have hfields := seen_members_slots (field :: fields) [] rest (List.cons_ne_nil _ _) h
        obtain ⟨key, cs, hcs⟩ := exists_renderMembers_eq
          (List.map_eq_nil_iff.not.mpr (List.cons_ne_nil field fields))
        rw [hcs, List.append_assoc] at hfields ⊢
        rw [seen_object_cons, hfields, List.append_nil]
  obtain ⟨hshorter, hread⟩ := ok_of_seen hobject
  rw [render_object_append, dictionary, seen_token (by decide), if_pos rfl, hslots, hread]
  simp only [seen_ok, List.reverse_reverse]

end Fields

theorem seen_composite {start : σ} {member : σ → String → Option (Reader σ)}
    {order : List (σ → Reader σ)} (cs : List Char) :
    seen (composite start member order ('{' :: cs)) = seen (object false member start '{' cs) := by
  rw [composite, seen_token (by decide), if_pos rfl]

end Reader

end Json

/-! ## Records -/

/-- A record as it comes back from JSON. -/
def Record.restored (r : Record) : Record where
  entries := r.entries.map fun e => (e.1, e.2.restored)
  sorted := List.pairwise_map.mpr (r.sorted.imp fun h => h)

theorem Record.restored_eq_self_iff (r : Record) :
    r.restored = r ↔ ∀ field v, r.get? field = some v → v.restored = v := by
  have hentries : r.restored = r ↔
      r.entries.map (fun e => (e.1, e.2.restored)) = r.entries.map id := by
    rw [List.map_id]
    exact Table.mk.injEq .. ▸ Iff.rfl
  rw [hentries, List.map_inj_left]
  simp only [Prod.forall, r.mem_entries_iff, id_eq, Prod.mk.injEq, true_and]

/-- A double is read back from its own text exactly if it is restored. -/
theorem Binary64.parse?_compact_iff (x : Binary64) :
    Json.parse? (Json.real x).compact = some (.real x) ↔ x.restored = x := by
  have hlevels : (Json.real x).levels ≤ Json.maxNesting := by
    rw [Json.levels]
    exact Nat.zero_le _
  rw [Json.parse?_compact (by trivial), if_pos hlevels, Json.restored, Option.some.injEq,
    Json.real.injEq]

namespace Evaluation

/-! ## The line of an evaluation -/

/-- An evaluation as JSON, whose record has its fields in a given order. -/
def jsonWith (e : Evaluation) (fields : List (String × Value)) : Json :=
  .object [("id", .string e.stamp.id), ("result", .bool e.result),
    ("data", .object (fields.map fun field => (field.1, field.2.toJson))),
    ("expression", .string e.expression), ("evaluated_at", .string e.stamp.time)]

/-- Whether a text is the JSON of an evaluation, with the fields of the record in any order. -/
def Writes (e : Evaluation) (cs : List Char) : Prop :=
  ∃ fields : List (String × Value), fields.Perm e.data.entries ∧ cs = (e.jsonWith fields).render

/-- The line of an evaluation is one of its texts, with the character that ends the line. -/
theorem exists_line_eq (e : Evaluation) : ∃ cs, e.Writes cs ∧ e.line = cs ++ ['\n'] :=
  ⟨_, ⟨e.data.entries, List.Perm.refl _, rfl⟩, rfl⟩

theorem Writes.printable {e : Evaluation} {cs : List Char} (h : e.Writes cs) :
    Json.Printable cs := by
  obtain ⟨fields, -, rfl⟩ := h
  exact Json.printable_render _

/-! ## Lines of a text -/

/-- A character that ends no line goes to the front of the first one. -/
theorem linesOf_cons {c : Char} (hnewline : c ≠ '\n') (hreturn : c ≠ '\r') {cs line : List Char}
    {lines : List (List Char)} (h : linesOf cs = line :: lines) :
    linesOf (c :: cs) = (c :: line) :: lines := by
  cases cs with
  | nil => cases h
  | cons d ds =>
      rw [linesOf.eq_def]
      simp only [if_neg hnewline, hreturn, false_and, if_false, h]

theorem linesOf_append {l : List Char} (h : Json.Printable l) (rest : List Char) :
    linesOf (l ++ '\n' :: rest) = l :: linesOf rest := by
  induction l with
  | nil => rfl
  | cons c l ih =>
      obtain ⟨hc, hl⟩ := List.forall_mem_cons.mp h
      have hne : ∀ d : Char, d.toNat < 32 → c ≠ d := by
        rintro d hd rfl
        omega
      exact linesOf_cons (hne _ (by decide)) (hne _ (by decide)) (ih hl)

/-- Lines without control characters, each with its end, are the lines of their text. -/
theorem linesOf_flatMap {lines : List (List Char)} (h : ∀ l ∈ lines, Json.Printable l) :
    linesOf (lines.flatMap (· ++ ['\n'])) = lines := by
  induction lines with
  | nil => rfl
  | cons l lines ih =>
      obtain ⟨hl, hlines⟩ := List.forall_mem_cons.mp h
      rw [List.flatMap_cons, List.append_assoc, List.singleton_append, linesOf_append hl, ih hlines]

/-! ## Reading a line -/

/-- An evaluation as it comes back from its line. -/
def restored (e : Evaluation) : Evaluation := { e with data := e.data.restored }

/-- Whether every double of the record is read back from the text that it is written as. -/
def KeepsDoubles (e : Evaluation) : Prop :=
  ∀ field x, e.data.get? field = some (.real x) →
    Json.parse? (Json.real x).compact = some (.real x)

/-- An evaluation comes back as it was exactly if its doubles do. -/
theorem restored_eq_self_iff (e : Evaluation) : e.restored = e ↔ e.KeepsDoubles := by
  have hdata : e.restored = e ↔ e.data.restored = e.data :=
    ⟨congrArg data, fun h => by rw [restored, h]⟩
  rw [hdata, Record.restored_eq_self_iff]
  constructor
  · intro h field x hx
    exact x.parse?_compact_iff.mpr (Value.real.inj (h field _ hx))
  · intro h field v hv
    cases v with
    | integer i => rfl
    | real x => rw [Value.restored, x.parse?_compact_iff.mp (h field x hv)]
    | text s => rfl

open Json (Reader)
open Json.Reader (seen seen_bool seen_dictionary seen_filterMap seen_map seen_members_brace
  seen_members_comma seen_object_cons seen_string)

/-- A value of a record is read where one more level may stand. -/
theorem seen_valueReader (v : Value) {rest : List Char} (hend : Ends Json.Numeral.goesOn rest) :
    seen (Reader.filterMap Value.ofJson? (Reader.value false (Json.maxNesting - 2))
      (v.toJson.render ++ rest)) = .ok (v.restored, rest) := by
  have hvalue := Json.seen_value v.toJson (Json.maxNesting - 2) rest v.fits_toJson hend
  rw [v.levels_toJson, if_pos (Nat.zero_le _), v.restored_toJson] at hvalue
  exact seen_filterMap hvalue v.restored.ofJson?_toJson

theorem seen_recordReader {r : Record} {fields : List (String × Value)}
    (h : fields.Perm r.entries) (rest : List Char) :
    seen (Members.recordReader
        ((Json.object (fields.map fun field => (field.1, field.2.toJson))).render ++ rest)) =
      .ok (r.restored, rest) := by
  have hfields := seen_dictionary fields
    (fun field _ _ hend => seen_valueReader field.2 hend) rest
  have hperm : (fields.map fun field => (field.1, field.2.restored)).Perm r.restored.entries :=
    h.map _
  rw [Members.recordReader, seen_map _ hfields, Table.ofList_of_perm hperm]

/-- The text of an evaluation, member by member. -/
theorem render_jsonWith (e : Evaluation) (fields : List (String × Value)) :
    (e.jsonWith fields).render = '{' ::
      (Json.quoted "id" ++ ':' :: (Json.quoted e.stamp.id ++ ',' ::
      (Json.quoted "result" ++ ':' :: ((Json.bool e.result).render ++ ',' ::
      (Json.quoted "data" ++ ':' ::
        ((Json.object (fields.map fun field => (field.1, field.2.toJson))).render ++ ',' ::
      (Json.quoted "expression" ++ ':' :: (Json.quoted e.expression ++ ',' ::
      (Json.quoted "evaluated_at" ++ ':' :: (Json.quoted e.stamp.time ++ ['}'])))))))))) := by
  have hstring : ∀ s : String, (Json.string s).render = Json.quoted s := fun s => by
    rw [Json.render]
  rw [jsonWith, ← List.append_nil (Json.render _), Json.render_object_append,
    Json.renderMembers_cons_cons, Json.renderMembers_cons_cons, Json.renderMembers_cons_cons,
    Json.renderMembers_cons_cons, Json.renderMembers]
  simp only [List.append_assoc, List.cons_append, hstring]

/-- A text of an evaluation is read as the evaluation with its doubles as they are read back. -/
theorem Writes.ofLine?_eq {e : Evaluation} {cs : List Char} (h : e.Writes cs) :
    ofLine? (String.ofList cs) = some e.restored := by
  obtain ⟨fields, hperm, rfl⟩ := h
  have hmembers : seen (Reader.composite {} Members.read
      [Members.readId, Members.readResult, Members.readData, Members.readExpression,
        Members.readTime] (e.jsonWith fields).render) =
      .ok (⟨some e.stamp.id, some e.result, some e.data.restored, some e.expression,
        some e.stamp.time⟩, []) := by
    rw [render_jsonWith, Json.Reader.seen_composite, seen_object_cons,
      seen_members_comma rfl (seen_map _ (seen_string _ _)),
      seen_members_comma rfl (seen_map _ (seen_bool _ _)),
      seen_members_comma rfl (seen_map _ (seen_recordReader hperm _)),
      seen_members_comma rfl (seen_map _ (seen_string _ _)),
      seen_members_brace rfl (seen_map _ (seen_string _ _))]
  have hfinish : Members.finish? ⟨some e.stamp.id, some e.result, some e.data.restored,
      some e.expression, some e.stamp.time⟩ = some e.restored := by
    rw [Members.finish?]
    simp only [Option.bind_eq_bind, Option.bind_some, Stamp.ofTexts?_self, Option.pure_def]
    rfl
  rw [ofLine?, Json.Reader.whole_eq, String.toList_ofList, seen_filterMap hmembers hfinish]
  rfl

end Evaluation

end Rulebook
