import Rulebook.Json.Reader
import Rulebook.Proofs.JsonDouble

/-!
# Written JSON is read back

The compact text of a value is read from the front of any text that does not go on with it
(`seen_value`).  Names, strings, truth values and whole numbers come back as they were, and
doubles as `restored` says.  This holds as long as no more arrays and objects stand inside
one another than the reader takes, and with more of them the text is refused.

The readers prove that they leave less than there was.  `seen` forgets these proofs, so that what
is read of two equal texts can be compared.  A string is read character by character
(`readString?_escaped`), the items of an array comma by comma (`seen_items_comma`), and the
members of an object likewise (`seen_members_comma`).
-/

namespace Rulebook.Json

open Rulebook.Text (isDigit)
open Numeral (Proper ends_cons goesOn)

/-! ## Strings -/

theorem hexUnit?_hexDigit : ∀ n < 32,
    hexUnit? '0' '0' (hexDigit (n / 16)) (hexDigit (n % 16)) = some n := by
  decide

/-- An escape is read as one character. -/
theorem readString?_escape {cs rest : List Char} {c : Char}
    (h : readEscape? false cs = some (c, rest)) :
    readString? false ('\\' :: cs) =
      (readString? false rest).map fun (s, rest) => (c :: s, rest) := by
  rw [readString?, if_neg (by decide), if_pos rfl]
  split
  case h_1 hnone =>
    rw [h] at hnone
    cases hnone
  case h_2 hsome =>
    rw [h] at hsome
    cases hsome
    rfl

theorem readEscape?_short {e c : Char} (h : escape? e = some c) (hu : e ≠ 'u') (cs : List Char) :
    readEscape? false (e :: cs) = some (c, cs) := by
  unfold readEscape?
  split
  case h_1 heq => exact absurd (List.cons.inj heq).1 hu
  case h_2 heq =>
    cases heq
    rw [h, Option.map_some]
  case h_3 heq => cases heq

theorem readEscape?_control {c : Char} (h : c.toNat < 32) (cs : List Char) :
    readEscape? false
      ('u' :: '0' :: '0' :: hexDigit (c.toNat / 16) :: hexDigit (c.toNat % 16) :: cs) =
      some (c, cs) := by
  have htrailing : isTrailing c.toNat = false := by
    rw [isTrailing, Bool.and_eq_false_iff, decide_eq_false_iff_not]
    exact Or.inl (by omega)
  have hleading : isLeading c.toNat = false := by
    rw [isLeading, Bool.and_eq_false_iff, decide_eq_false_iff_not]
    exact Or.inl (by omega)
  simp only [readEscape?, hexUnit?_hexDigit _ h, htrailing, hleading, Bool.false_eq_true,
    ↓reduceIte, Char.ofNat_toNat]

/-- A character is read as it was written. -/
theorem readString?_escaped (c : Char) (cs : List Char) :
    readString? false (escaped c ++ cs) =
      (readString? false cs).map fun (s, rest) => (c :: s, rest) := by
  have hshort {e d : Char} (he : escape? e = some d) (hu : e ≠ 'u') (hd : c = d) :
      readString? false (['\\', e] ++ cs) =
        (readString? false cs).map fun (s, rest) => (c :: s, rest) :=
    hd ▸ readString?_escape (readEscape?_short he hu cs)
  unfold escaped
  split
  case isTrue h => exact hshort rfl (by decide) h
  case isFalse hquote =>
  split
  case isTrue h => exact hshort rfl (by decide) h
  case isFalse hslash =>
  split
  case isTrue h => exact hshort rfl (by decide) h
  split
  case isTrue h => exact hshort rfl (by decide) h
  split
  case isTrue h => exact hshort rfl (by decide) h
  split
  case isTrue h => exact hshort rfl (by decide) h
  split
  case isTrue h => exact hshort rfl (by decide) h
  split
  case isTrue h => exact readString?_escape (readEscape?_control h cs)
  case isFalse hcontrol =>
    rw [List.singleton_append, readString?, if_neg hquote, if_neg hslash, if_neg hcontrol]

/-- A string is read up to the quote that closes it. -/
theorem readString?_flatMap_escaped : ∀ cs rest : List Char,
    readString? false (cs.flatMap escaped ++ '"' :: rest) = some (cs, rest)
  | [], rest => by rw [List.flatMap_nil, List.nil_append, readString?, if_pos rfl]
  | c :: cs, rest => by
      rw [List.flatMap_cons, List.append_assoc, readString?_escaped,
        readString?_flatMap_escaped cs rest, Option.map_some]

/-! ## What is read, without the proof that less is left -/

namespace Reader

variable {α β σ : Type}

/-- What was read and what is left, without the proof that it is less. -/
def seen {cs : List Char} : Except Fault (Read α cs) → Except Fault (α × List Char)
  | .error e => .error e
  | .ok x => .ok (x.value, x.rest)

theorem ok_of_seen {cs rest : List Char} {v : α} {x : Except Fault (Read α cs)}
    (h : seen x = .ok (v, rest)) : ∃ hshorter, x = .ok ⟨v, rest, hshorter⟩ := by
  cases x with
  | error e => cases h
  | ok x =>
      cases h
      exact ⟨x.shorter, rfl⟩

theorem error_of_seen {cs : List Char} {e : Fault} {x : Except Fault (Read α cs)}
    (h : seen x = .error e) : x = .error e := by
  cases x with
  | error e' =>
      cases h
      rfl
  | ok x => cases h

@[simp] theorem seen_error {cs : List Char} (e : Fault) :
    seen (.error e : Except Fault (Read α cs)) = .error e := rfl

@[simp] theorem seen_ok {cs : List Char} (x : Read α cs) : seen (.ok x) = .ok (x.value, x.rest) :=
  rfl

/-- A reader goes by the first character that is not a blank. -/
theorem seen_token_of_skipSpace
    {f : (c : Char) → (cs : List Char) → Except Fault (Read α (c :: cs))} {c : Char}
    {cs rest : List Char} (h : skipSpace cs = c :: rest) :
    seen (token f cs) = seen (f c rest) := by
  unfold token
  split
  case h_1 heq =>
    rw [h] at heq
    cases heq
  case h_2 heq =>
    rw [h] at heq
    cases heq
    cases f c rest <;> rfl

theorem seen_token_of_skipSpace_nil
    {f : (c : Char) → (cs : List Char) → Except Fault (Read α (c :: cs))} {cs : List Char}
    (h : skipSpace cs = []) : seen (token f cs) = .error .malformed := by
  unfold token
  split
  case h_1 => rfl
  case h_2 heq =>
    rw [h] at heq
    cases heq

theorem seen_token {f : (c : Char) → (cs : List Char) → Except Fault (Read α (c :: cs))}
    {c : Char} {cs : List Char} (h : isSpace c = false) :
    seen (token f (c :: cs)) = seen (f c cs) :=
  seen_token_of_skipSpace (List.dropWhile_cons_of_neg (by simp [h]))

theorem seen_token_space {f : (c : Char) → (cs : List Char) → Except Fault (Read α (c :: cs))}
    {c : Char} (cs : List Char) (h : isSpace c = true) :
    seen (token f (c :: cs)) = seen (token f cs) := by
  have hskip : skipSpace (c :: cs) = skipSpace cs := List.dropWhile_cons_of_pos h
  cases hcs : skipSpace cs with
  | nil => rw [seen_token_of_skipSpace_nil hcs, seen_token_of_skipSpace_nil (hskip.trans hcs)]
  | cons d rest => rw [seen_token_of_skipSpace hcs, seen_token_of_skipSpace (hskip.trans hcs)]

theorem anyChar_cons (c : Char) (cs : List Char) (h : isSpace c = false) :
    ∃ hshorter, anyChar (c :: cs) = .ok ⟨c, cs, hshorter⟩ :=
  ok_of_seen (by rw [anyChar, seen_token h, seen_ok])

theorem seen_char {c : Char} {cs : List Char} (h : isSpace c = false) :
    seen (char c (c :: cs)) = .ok ((), cs) := by
  rw [char, seen_token h, if_pos rfl, seen_ok]

theorem seen_andThen {r : Reader α} {f : α → Reader β} {cs rest : List Char} {v : α}
    (h : seen (r cs) = .ok (v, rest)) : seen (andThen r f cs) = seen (f v rest) := by
  obtain ⟨hshorter, hr⟩ := ok_of_seen h
  rw [andThen, hr]
  simp only
  cases f v rest <;> rfl

theorem seen_map {r : Reader α} (f : α → β) {cs rest : List Char} {v : α}
    (h : seen (r cs) = .ok (v, rest)) : seen (map f r cs) = .ok (f v, rest) := by
  obtain ⟨hshorter, hr⟩ := ok_of_seen h
  rw [map, hr]
  rfl

theorem seen_map_error {r : Reader α} (f : α → β) {cs : List Char} {e : Fault}
    (h : seen (r cs) = .error e) : seen (map f r cs) = .error e := by
  rw [map, error_of_seen h, seen_error]

/-! ## Words, strings and numbers -/

theorem seen_letters (ws : List Char) (v : α) (c : Char) (cs : List Char) :
    seen (letters ws v c (ws ++ cs)) = .ok (v, cs) := by
  have hprefix : ws.isPrefixOf (ws ++ cs) = true :=
    List.isPrefixOf_iff_prefix.mpr (List.prefix_append ws cs)
  rw [letters, if_pos hprefix, seen_ok]
  simp only [List.drop_left]

theorem quoted_append (s : String) (cs : List Char) :
    quoted s ++ cs = '"' :: (s.toList.flatMap escaped ++ '"' :: cs) := by
  rw [quoted, List.append_assoc, List.cons_append, List.singleton_append]

theorem seen_stringAfter (s : String) (cs : List Char) :
    seen (stringAfter false '"' (s.toList.flatMap escaped ++ '"' :: cs)) = .ok (s, cs) := by
  have hread := readString?_flatMap_escaped s.toList cs
  unfold stringAfter
  split
  case h_1 heq =>
    rw [hread] at heq
    cases heq
  case h_2 heq =>
    rw [hread] at heq
    cases heq
    rw [seen_ok, String.ofList_toList]

theorem seen_name (s : String) (cs : List Char) :
    seen (name false (quoted s ++ cs)) = .ok (s, cs) := by
  rw [quoted_append, name, seen_token (by decide), if_pos rfl, seen_stringAfter]

theorem seen_number {cs rest : List Char} {n : Numeral} {j : Json}
    (hread : Numeral.read? cs = some (n, rest)) (hvalue : n.toJson? = some j) :
    seen (number false cs) = .ok (j, rest) := by
  unfold number
  split
  case h_1 heq =>
    rw [hread] at heq
    cases heq
  case h_2 heq =>
    rw [hread] at heq
    cases heq
    split
    case h_1 heq' =>
      rw [hvalue] at heq'
      cases heq'
      rfl
    case h_2 heq' =>
      rw [hvalue] at heq'
      cases heq'

theorem exists_of_seen_number {cs rest : List Char} {j : Json}
    (h : seen (number false cs) = .ok (j, rest)) :
    ∃ n, Numeral.read? cs = some (n, rest) ∧ n.toJson? = some j := by
  unfold number at h
  split at h
  case h_1 => cases h
  case h_2 n rest' hread =>
    split at h
    case h_1 j' hvalue =>
      cases h
      exact ⟨n, hread, hvalue⟩
    case h_2 => cases h

/-! ## Arrays -/

variable {item : Reader α} {cs rest : List Char} {v : α}

/-- An item with a comma behind it is followed by other items. -/
theorem seen_items_comma (h : seen (item cs) = .ok (v, ',' :: rest)) :
    seen (items item cs) =
      (seen (items item rest)).map fun (vs, rest) => (v :: vs, rest) := by
  obtain ⟨hshorter, hitem⟩ := ok_of_seen h
  obtain ⟨hshorter', hchar⟩ := anyChar_cons ',' rest (by decide)
  rw [items, hitem]
  simp only [hchar, ↓reduceIte]
  cases items item rest <;> rfl

/-- An item with a bracket behind it is the last. -/
theorem seen_items_bracket (h : seen (item cs) = .ok (v, ']' :: rest)) :
    seen (items item cs) = .ok ([v], rest) := by
  obtain ⟨hshorter, hitem⟩ := ok_of_seen h
  obtain ⟨hshorter', hchar⟩ := anyChar_cons ']' rest (by decide)
  rw [items, hitem]
  simp only [hchar, ↓reduceIte]
  rfl

theorem seen_items_error {e : Fault} (h : seen (item cs) = .error e) :
    seen (items item cs) = .error e := by
  rw [items, error_of_seen h]
  rfl

theorem seen_array_nil (item : Reader α) (c : Char) (rest : List Char) :
    seen (array item c (']' :: rest)) = .ok ([], rest) := by
  obtain ⟨hshorter, hchar⟩ := anyChar_cons ']' rest (by decide)
  rw [array, hchar]
  rfl

/-- An array that does not end at once has items. -/
theorem seen_array_cons (item : Reader α) (c : Char) {d : Char} (hspace : isSpace d = false)
    (hd : d ≠ ']') : seen (array item c (d :: cs)) = seen (items item (d :: cs)) := by
  obtain ⟨hshorter, hchar⟩ := anyChar_cons d cs hspace
  rw [array, hchar]
  simp only [if_neg hd]
  cases items item (d :: cs) <;> rfl

/-! ## Objects -/

variable {member : σ → String → Option (Reader σ)} {s s' : σ} {key : String} {r : Reader σ}

/-- A member is read as its value, if its name may come. -/
theorem seen_entry (hm : member s key = some r) (cs : List Char) :
    seen (andThen (name false)
      (fun key => expected (member s key) fun r => andThen (char ':') fun _ => r)
      (quoted key ++ ':' :: cs)) = seen (r cs) := by
  rw [seen_andThen (seen_name key (':' :: cs)), hm, expected, seen_andThen (seen_char (by decide))]

/-- A member with a comma behind it is followed by other members. -/
theorem seen_members_comma (hm : member s key = some r)
    (h : seen (r cs) = .ok (s', ',' :: rest)) :
    seen (members false member s (quoted key ++ ':' :: cs)) =
      seen (members false member s' rest) := by
  obtain ⟨hshorter, hentry⟩ := ok_of_seen ((seen_entry hm cs).trans h)
  obtain ⟨hshorter', hchar⟩ := anyChar_cons ',' rest (by decide)
  rw [members, hentry]
  simp only [hchar, ↓reduceIte]
  cases members false member s' rest <;> rfl

/-- A member with a brace behind it is the last. -/
theorem seen_members_brace (hm : member s key = some r)
    (h : seen (r cs) = .ok (s', '}' :: rest)) :
    seen (members false member s (quoted key ++ ':' :: cs)) = .ok (s', rest) := by
  obtain ⟨hshorter, hentry⟩ := ok_of_seen ((seen_entry hm cs).trans h)
  obtain ⟨hshorter', hchar⟩ := anyChar_cons '}' rest (by decide)
  rw [members, hentry]
  simp only [hchar, ↓reduceIte]
  rfl

theorem seen_members_error {e : Fault} (hm : member s key = some r)
    (h : seen (r cs) = .error e) :
    seen (members false member s (quoted key ++ ':' :: cs)) = .error e := by
  rw [members, error_of_seen ((seen_entry hm cs).trans h)]
  rfl

theorem seen_object_nil (c : Char) (s : σ) (rest : List Char) :
    seen (object false member s c ('}' :: rest)) = .ok (s, rest) := by
  obtain ⟨hshorter, hchar⟩ := anyChar_cons '}' rest (by decide)
  rw [object, hchar]
  rfl

/-- An object that begins with a name has members. -/
theorem seen_object_cons (c : Char) (s : σ) (cs : List Char) :
    seen (object false member s c (quoted key ++ cs)) =
      seen (members false member s (quoted key ++ cs)) := by
  rw [quoted_append]
  obtain ⟨hshorter, hchar⟩ :=
    anyChar_cons '"' (key.toList.flatMap escaped ++ '"' :: cs) (by decide)
  rw [object, hchar]
  simp only [Char.reduceEq, ↓reduceIte]
  cases members false member s ('"' :: (key.toList.flatMap escaped ++ '"' :: cs)) <;> rfl

/-! ## Texts -/

theorem whole_eq (r : Reader α) (text : String) :
    whole r text = match seen (r text.toList) with
      | .error e => .error e
      | .ok (v, rest) => if (skipSpace rest).isEmpty then .ok v else .error .malformed := by
  rw [whole]
  cases r text.toList <;> rfl

end Reader

/-! ## Values -/

mutual

/-- The number of arrays and objects that stand inside one another. -/
def levels : Json → Nat
  | .array items => levelsOfAll items + 1
  | .object members => levelsOfMembers members + 1
  | .null | .bool _ | .integer _ | .real _ | .string _ => 0

/-- The greatest number of levels of several values. -/
def levelsOfAll : List Json → Nat
  | [] => 0
  | j :: js => max (levels j) (levelsOfAll js)

/-- The greatest number of levels of several members. -/
def levelsOfMembers : List (String × Json) → Nat
  | [] => 0
  | (_, j) :: members => max (levels j) (levelsOfMembers members)

end

mutual

/-- A value with its doubles as they are read back. -/
def restored : Json → Json
  | .null => .null
  | .bool b => .bool b
  | .integer i => .integer i
  | .real x => .real x.restored
  | .string s => .string s
  | .array items => .array (restoredAll items)
  | .object members => .object (restoredMembers members)

/-- Values with their doubles as they are read back. -/
def restoredAll : List Json → List Json
  | [] => []
  | j :: js => restored j :: restoredAll js

/-- Members with their doubles as they are read back. -/
def restoredMembers : List (String × Json) → List (String × Json)
  | [] => []
  | (name, j) :: members => (name, restored j) :: restoredMembers members

end

mutual

/-- Whether the whole numbers of a value have at most 64 bits, with or without sign. -/
def Fits : Json → Prop
  | .integer i => -pow2 63 ≤ i ∧ i < pow2 64
  | .array items => FitAll items
  | .object members => FitMembers members
  | .null | .bool _ | .real _ | .string _ => True

/-- Whether the whole numbers of several values have at most 64 bits. -/
def FitAll : List Json → Prop
  | [] => True
  | j :: js => Fits j ∧ FitAll js

/-- Whether the whole numbers of several members have at most 64 bits. -/
def FitMembers : List (String × Json) → Prop
  | [] => True
  | (_, j) :: members => Fits j ∧ FitMembers members

end

/-! ## The front of a text -/

/-- A character that a number begins with. -/
def startsNumber (c : Char) : Bool := c == '-' || isDigit c

/-- The text of a number begins with a minus or a digit. -/
theorem exists_text_eq_cons {n : Numeral} (h : n.Proper) :
    ∃ c cs, n.text = c :: cs ∧ startsNumber c = true := by
  obtain ⟨c, cs, hcs⟩ := List.exists_cons_of_ne_nil h.whole.ne_nil
  have hc : isDigit c = true := h.whole.isDigit c (hcs ▸ List.mem_cons_self)
  rw [Numeral.text, hcs]
  split
  case isTrue => exact ⟨_, _, rfl, rfl⟩
  case isFalse => exact ⟨_, _, rfl, by rw [startsNumber, hc, Bool.or_true]⟩

theorem ne_of_startsNumber {c d : Char} (h : startsNumber c = true) (hd : startsNumber d = false) :
    c ≠ d := by
  rintro rfl
  rw [h] at hd
  cases hd

theorem isSpace_of_startsNumber {c : Char} (h : startsNumber c = true) : isSpace c = false := by
  simp only [isSpace, Bool.or_eq_false_iff, beq_eq_false_iff_ne]
  exact ⟨⟨⟨ne_of_startsNumber h (by decide), ne_of_startsNumber h (by decide)⟩,
    ne_of_startsNumber h (by decide)⟩, ne_of_startsNumber h (by decide)⟩

/-- The text of a value begins with a character that is neither a blank nor the end of an
array. -/
theorem exists_render_eq_cons (j : Json) :
    ∃ c cs, j.render = c :: cs ∧ isSpace c = false ∧ c ≠ ']' := by
  have hnumber : ∀ n : Numeral, n.Proper →
      ∃ c cs, n.text = c :: cs ∧ isSpace c = false ∧ c ≠ ']' := fun n h => by
    obtain ⟨c, cs, hcs, hc⟩ := exists_text_eq_cons h
    exact ⟨c, cs, hcs, isSpace_of_startsNumber hc, ne_of_startsNumber hc (by decide)⟩
  cases j with
  | null =>
      rw [render]
      exact ⟨_, _, rfl, by decide, by decide⟩
  | bool b =>
      cases b
      all_goals
        rw [render]
        exact ⟨_, _, rfl, by decide, by decide⟩
  | integer i =>
      rw [render, ← Numeral.text_ofInt]
      exact hnumber _ (Numeral.proper_ofInt i)
  | real x =>
      rw [render, ← (Binary64.writes_numeral x).text]
      exact hnumber _ (Binary64.writes_numeral x).proper
  | string s =>
      rw [render, quoted]
      exact ⟨_, _, rfl, by decide, by decide⟩
  | array items =>
      rw [render]
      exact ⟨_, _, rfl, by decide, by decide⟩
  | object members =>
      rw [render]
      exact ⟨_, _, rfl, by decide, by decide⟩

/-! ## Reading a value -/

namespace Reader

/-- What reads the values inside an array or an object, if there may be any. -/
def inner : Nat → Option (Reader Json)
  | 0 => none
  | n + 1 => some (value false n)

theorem value_eq (n : Nat) : value false n = valueOver false (inner n) := by
  cases n <;> rfl

theorem seen_value_number {c : Char} {cs : List Char} (h : startsNumber c = true) (n : Nat) :
    seen (value false n (c :: cs)) = seen (number false (c :: cs)) := by
  rw [value_eq, valueOver, seen_token (isSpace_of_startsNumber h)]
  rw [if_neg (ne_of_startsNumber h (by decide)), if_neg (ne_of_startsNumber h (by decide)),
    if_neg (ne_of_startsNumber h (by decide)), if_neg (ne_of_startsNumber h (by decide)),
    if_neg (ne_of_startsNumber h (by decide)), if_neg (ne_of_startsNumber h (by decide))]

theorem seen_value_text {m : Numeral} {j : Json} (n : Nat) {rest : List Char} (h : m.Proper)
    (hvalue : m.toJson? = some j) (hend : Ends goesOn rest) :
    seen (value false n (m.text ++ rest)) = .ok (j, rest) := by
  have hread := Numeral.read?_text h hend
  obtain ⟨c, cs, hcs, hc⟩ := exists_text_eq_cons h
  rw [hcs, List.cons_append] at hread ⊢
  rw [seen_value_number hc, seen_number hread hvalue]

theorem seen_value_string (s : String) (n : Nat) (rest : List Char) :
    seen (value false n (quoted s ++ rest)) = .ok (.string s, rest) := by
  obtain ⟨hshorter, hstring⟩ := ok_of_seen (seen_stringAfter s rest)
  rw [quoted_append, value_eq, valueOver, seen_token (by decide)]
  simp only [Char.reduceEq, ↓reduceIte, hstring]
  rfl

/-- An array or an object where no more of them may stand. -/
theorem seen_value_zero {c : Char} (h : c = '[' ∨ c = '{') (cs : List Char) :
    seen (value false 0 (c :: cs)) = .error .malformed := by
  rcases h with rfl | rfl
  all_goals
    rw [value_eq, valueOver, seen_token (by decide)]
    simp only [Char.reduceEq, ↓reduceIte, inner, seen_error]

theorem seen_value_array_succ (n : Nat) (cs : List Char) :
    seen (value false (n + 1) ('[' :: cs)) =
      (seen (array (value false n) '[' cs)).map fun (js, rest) => (.array js, rest) := by
  rw [value_eq, valueOver, seen_token (by decide)]
  simp only [Char.reduceEq, ↓reduceIte, inner]
  cases array (value false n) '[' cs <;> rfl

/-- How a member of any object is read. -/
def pairs (n : Nat) (s : List (String × Json)) (key : String) :
    Option (Reader (List (String × Json))) :=
  some (map (fun j => (key, j) :: s) (value false n))

theorem seen_value_object_succ (n : Nat) (cs : List Char) :
    seen (value false (n + 1) ('{' :: cs)) =
      (seen (object false (pairs n) [] '{' cs)).map
        fun (ms, rest) => (.object ms.reverse, rest) := by
  have hpairs : (fun (s : List (String × Json)) key =>
      some (map (fun j => (key, j) :: s) (value false n))) = pairs n := rfl
  rw [value_eq, valueOver, seen_token (by decide)]
  simp only [Char.reduceEq, ↓reduceIte, inner, hpairs]
  cases object false (pairs n) [] '{' cs <;> rfl

end Reader

open Reader

theorem render_array_append (js : List Json) (rest : List Char) :
    (Json.array js).render ++ rest = '[' :: (renderItems js ++ ']' :: rest) := by
  rw [render, List.append_assoc, List.cons_append, List.singleton_append]

theorem render_object_append (ms : List (String × Json)) (rest : List Char) :
    (Json.object ms).render ++ rest = '{' :: (renderMembers ms ++ '}' :: rest) := by
  rw [render, List.append_assoc, List.cons_append, List.singleton_append]

theorem renderItems_cons_cons (j j' : Json) (js : List Json) :
    renderItems (j :: j' :: js) = j.render ++ ',' :: renderItems (j' :: js) := by
  rw [renderItems]
  exact fun h => nomatch h

theorem renderMembers_cons_cons (key : String) (j : Json) (m : String × Json)
    (ms : List (String × Json)) : renderMembers ((key, j) :: m :: ms) =
      quoted key ++ ':' :: (j.render ++ ',' :: renderMembers (m :: ms)) := by
  rw [renderMembers]
  · rw [List.append_assoc, List.cons_append]
  · exact fun h => nomatch h

theorem exists_renderItems_eq_cons {js : List Json} (h : js ≠ []) :
    ∃ c cs, renderItems js = c :: cs ∧ isSpace c = false ∧ c ≠ ']' := by
  match js, h with
  | [j], _ =>
      rw [renderItems]
      exact exists_render_eq_cons j
  | j :: j' :: js, _ =>
      obtain ⟨c, cs, hcs, hspace, hend⟩ := exists_render_eq_cons j
      rw [renderItems_cons_cons, hcs]
      exact ⟨c, _, rfl, hspace, hend⟩

theorem exists_renderMembers_eq {ms : List (String × Json)} (h : ms ≠ []) :
    ∃ key cs, renderMembers ms = quoted key ++ cs := by
  match ms, h with
  | [(key, j)], _ =>
      rw [renderMembers]
      exact ⟨key, _, rfl⟩
  | (key, j) :: m :: ms, _ =>
      rw [renderMembers_cons_cons]
      exact ⟨key, _, rfl⟩

mutual

/-- The text of a value is read as the value with its doubles as they are read back, if it has no
more levels than the reader takes, and else refused. -/
theorem seen_value : ∀ (j : Json) (n : Nat) (rest : List Char), j.Fits → Ends goesOn rest →
    seen (value false n (j.render ++ rest)) =
      if j.levels ≤ n then .ok (j.restored, rest) else .error .malformed
  | .null, n, rest, _, _ => by
      rw [render, levels, restored, if_pos (Nat.zero_le n), value_eq, valueOver, List.cons_append,
        seen_token (by decide), if_pos rfl, seen_letters]
  | .bool true, n, rest, _, _ => by
      rw [render, levels, restored, if_pos (Nat.zero_le n), value_eq, valueOver, List.cons_append,
        seen_token (by decide), if_neg (by decide), if_pos rfl, seen_letters]
  | .bool false, n, rest, _, _ => by
      rw [render, levels, restored, if_pos (Nat.zero_le n), value_eq, valueOver, List.cons_append,
        seen_token (by decide), if_neg (by decide), if_neg (by decide), if_pos rfl, seen_letters]
  | .integer i, n, rest, hfits, hend => by
      rw [Fits] at hfits
      rw [render, levels, restored, if_pos (Nat.zero_le n), ← Numeral.text_ofInt]
      exact seen_value_text n (Numeral.proper_ofInt i) (Numeral.toJson?_ofInt hfits.1 hfits.2) hend
  | .real x, n, rest, _, hend => by
      rw [render, levels, restored, if_pos (Nat.zero_le n), ← (Binary64.writes_numeral x).text]
      exact seen_value_text n (Binary64.writes_numeral x).proper (Binary64.toJson?_numeral x) hend
  | .string s, n, rest, _, _ => by
      rw [render, levels, restored, if_pos (Nat.zero_le n)]
      exact seen_value_string s n rest
  | .array js, 0, rest, _, _ => by
      rw [render_array_append, seen_value_zero (.inl rfl), levels, if_neg (by omega)]
  | .array [], n + 1, rest, _, _ => by
      rw [render_array_append, seen_value_array_succ, renderItems, List.nil_append,
        seen_array_nil, levels, levelsOfAll, if_pos (by omega), restored, restoredAll]
      rfl
  | .array (j :: js), n + 1, rest, hfits, _ => by
      rw [Fits] at hfits
      have hitems := seen_items (j :: js) n rest (List.cons_ne_nil _ _) hfits
      obtain ⟨c, cs, hcs, hspace, hclose⟩ := exists_renderItems_eq_cons (List.cons_ne_nil j js)
      rw [render_array_append, seen_value_array_succ, hcs, List.cons_append,
        seen_array_cons _ _ hspace hclose, ← List.cons_append, ← hcs, hitems, levels, restored]
      simp only [Nat.add_le_add_iff_right]
      split <;> rfl
  | .object ms, 0, rest, _, _ => by
      rw [render_object_append, seen_value_zero (.inr rfl), levels, if_neg (by omega)]
  | .object [], n + 1, rest, _, _ => by
      rw [render_object_append, seen_value_object_succ, renderMembers, List.nil_append,
        seen_object_nil, levels, levelsOfMembers, if_pos (by omega), restored, restoredMembers]
      rfl
  | .object (m :: ms), n + 1, rest, hfits, _ => by
      rw [Fits] at hfits
      have hmembers := seen_members (m :: ms) [] n rest (List.cons_ne_nil _ _) hfits
      obtain ⟨key, cs, hcs⟩ := exists_renderMembers_eq (List.cons_ne_nil m ms)
      rw [render_object_append, seen_value_object_succ, hcs, List.append_assoc, seen_object_cons,
        ← List.append_assoc, ← hcs, hmembers, levels, restored]
      simp only [Nat.add_le_add_iff_right, List.append_nil]
      split
      case isTrue =>
        rw [Except.map, List.reverse_reverse]
      case isFalse => rfl

/-- The items of an array are read up to the bracket. -/
theorem seen_items : ∀ (js : List Json) (n : Nat) (rest : List Char), js ≠ [] → FitAll js →
    seen (items (value false n) (renderItems js ++ ']' :: rest)) =
      if levelsOfAll js ≤ n then .ok (restoredAll js, rest) else .error .malformed
  | [j], n, rest, _, hfits => by
      rw [FitAll] at hfits
      have hj := seen_value j n (']' :: rest) hfits.1 (ends_cons (by decide))
      rw [renderItems, levelsOfAll, levelsOfAll, Nat.max_zero, restoredAll, restoredAll]
      split at hj
      case isTrue h => rw [seen_items_bracket hj, if_pos h]
      case isFalse h => rw [seen_items_error hj, if_neg h]
  | j :: j' :: js, n, rest, _, hfits => by
      rw [FitAll] at hfits
      have hj := seen_value j n (',' :: (renderItems (j' :: js) ++ ']' :: rest)) hfits.1
        (ends_cons (by decide))
      have hjs := seen_items (j' :: js) n rest (List.cons_ne_nil _ _) hfits.2
      rw [renderItems_cons_cons, levelsOfAll, restoredAll, List.append_assoc, List.cons_append]
      simp only [Nat.max_le]
      split at hj
      case isTrue h =>
        rw [seen_items_comma hj, hjs]
        simp only [h, true_and]
        split <;> rfl
      case isFalse h => rw [seen_items_error hj, if_neg (fun hle => h hle.1)]

/-- The members of an object are read up to the brace. -/
theorem seen_members : ∀ (ms s : List (String × Json)) (n : Nat) (rest : List Char), ms ≠ [] →
    FitMembers ms → seen (members false (pairs n) s (renderMembers ms ++ '}' :: rest)) =
      if levelsOfMembers ms ≤ n then .ok ((restoredMembers ms).reverse ++ s, rest)
      else .error .malformed
  | [(key, j)], s, n, rest, _, hfits => by
      rw [FitMembers] at hfits
      have hj := seen_value j n ('}' :: rest) hfits.1 (ends_cons (by decide))
      rw [renderMembers, levelsOfMembers, levelsOfMembers, Nat.max_zero, restoredMembers,
        restoredMembers, List.append_assoc, List.cons_append]
      split at hj
      case isTrue h =>
        rw [seen_members_brace rfl (seen_map _ hj), if_pos h]
        rfl
      case isFalse h => rw [seen_members_error rfl (seen_map_error _ hj), if_neg h]
  | (key, j) :: m :: ms, s, n, rest, _, hfits => by
      rw [FitMembers] at hfits
      have hj := seen_value j n (',' :: (renderMembers (m :: ms) ++ '}' :: rest)) hfits.1
        (ends_cons (by decide))
      have hms := seen_members (m :: ms) ((key, j.restored) :: s) n rest (List.cons_ne_nil _ _)
        hfits.2
      rw [renderMembers_cons_cons, levelsOfMembers, restoredMembers, List.append_assoc,
        List.cons_append, List.append_assoc, List.cons_append]
      simp only [Nat.max_le]
      split at hj
      case isTrue h =>
        rw [seen_members_comma rfl (seen_map _ hj), hms, List.reverse_cons, List.append_assoc]
        simp only [h, true_and, List.singleton_append]
      case isFalse h =>
        rw [seen_members_error rfl (seen_map_error _ hj), if_neg (fun hle => h hle.1)]

end

/-- The compact text of a value is read back, if it has no more than the allowed levels, and else
refused.  Only its doubles may come back as others. -/
theorem parse?_compact {j : Json} (h : j.Fits) :
    parse? j.compact = if j.levels ≤ maxNesting then some j.restored else none := by
  have hvalue := seen_value j maxNesting [] h (fun c hc => nomatch hc)
  rw [List.append_nil] at hvalue
  rw [parse?, whole_eq, compact, String.toList_ofList, hvalue]
  by_cases hle : j.levels ≤ maxNesting
  · rw [if_pos hle, if_pos hle]
    rfl
  · rw [if_neg hle, if_neg hle]
    rfl

end Rulebook.Json
