import Rulebook.Proofs.LeafVerdicts
import Rulebook.Proofs.NumberOrder
import Rulebook.Proofs.ReadJson
import Rulebook.Rule.Json

/-!
# Values that enter

A comparison of doubles obeys the laws of an order only as long as none of them is infinite or
not a number, and the texts that values are read from can say all of this: there are words for
infinity and for what is not a number, and numerals beyond the finite doubles.

`Double` has all doubles, and `WideValue` is a value with any of them.  It is read and compared
like a value, only that nothing rules out the doubles that are not finite.  What enters through a
literal or through JSON is a value still (`Entered.widened`): a literal that is not finite stays a
text, JSON refuses a numeral that is not, and the whole numbers of JSON are too small to be rounded
beyond the finite doubles.  So the verdicts on such values are those on finite doubles, and they
are coherent.
-/

namespace Rulebook

/-! ## All doubles -/

/-- A double of IEEE 754. -/
inductive Double where
  /-- A number. -/
  | finite (x : Binary64)
  /-- Infinity of either sign. -/
  | infinite (negative : Bool)
  /-- Not a number. -/
  | nan
  deriving DecidableEq

namespace Double

/-- The double of a rank, which is infinite from `Binary64.limit` on. -/
def ofRank (negative : Bool) (rank : Nat) : Double :=
  if h : rank < Binary64.limit then .finite ⟨negative, rank, h⟩ else .infinite negative

/-- The double that a whole number is rounded to. -/
def ofInt (i : Int) : Double := ofRank (decide (i < 0)) (Binary64.rankOf i.natAbs 1)

/-- The double that a word with a sign stands for. -/
def ofWord? (cs : List Char) : Option Double :=
  let (negative, word) := Decimal.readSign cs
  let spells (name : String) : Bool := Text.sameIgnoringAsciiCase (String.ofList word) name
  if spells "inf" || spells "infinity" then some (.infinite negative)
  else if spells "nan" then some .nan
  else none

/-- The double that a text stands for: a numeral, or one of the words. -/
def read? (cs : List Char) : Option Double :=
  match Decimal.read? cs with
  | some (negative, d) => some (ofRank negative d.rank)
  | none => ofWord? cs

/-- A double as a text. -/
def shown : Double → String
  | .finite x => String.ofList x.plain
  | .infinite negative => if negative then "-inf" else "inf"
  | .nan => "NaN"

/-- How two doubles compare, if both are numbers or infinite. -/
def order? : Double → Double → Option Ordering
  | .nan, _ | _, .nan => none
  | .finite x, .finite y => some (x.order y)
  | .finite _, .infinite negative => some (if negative then .gt else .lt)
  | .infinite negative, .finite _ => some (if negative then .lt else .gt)
  | .infinite true, .infinite false => some .lt
  | .infinite false, .infinite true => some .gt
  | .infinite _, .infinite _ => some .eq

end Double

/-- Whether a comparator holds of two doubles.  Of those that do not compare only inequality
holds. -/
def Comparator.compares (c : Comparator) (x y : Double) : Bool :=
  match x.order? y with
  | some o => c.holds o
  | none => c == .ne

/-- A value with any double. -/
inductive WideValue where
  /-- A whole number. -/
  | integer (i : Int64)
  /-- A double. -/
  | real (x : Double)
  /-- A text. -/
  | text (s : String)
  deriving DecidableEq

namespace WideValue

/-- The value of a literal, which is a double only if that is finite. -/
def ofLiteral (raw : String) : WideValue :=
  match (Decimal.readInt? raw.toList).bind wholeOf? with
  | some i => .integer i
  | none =>
    match Double.read? raw.toList with
    | some (.finite x) => .real (.finite x)
    | _ => .text raw

/-- The value that a JSON value stands for. -/
def ofJson? : Json → Option WideValue
  | .string s => some (.text s)
  | .integer i =>
    match wholeOf? i with
    | some i => some (.integer i)
    | none => some (.real (Double.ofInt i))
  | .real x => some (.real (.finite x))
  | _ => none

/-- A number as a double. -/
def double? : WideValue → Option Double
  | .integer i => some (Double.ofInt i.toInt)
  | .real x => some x
  | .text _ => none

/-- The text of a value. -/
def shown : WideValue → String
  | .integer i => String.ofList (Digits.signed i.toInt)
  | .real x => x.shown
  | .text s => s

/-- Whether a value is a text or a finite number. -/
def Finite (v : WideValue) : Prop := ∀ x, v.double? = some x → ∃ y, x = .finite y

end WideValue

/-- Whether a comparator holds of two values: of two numbers as doubles, and else of their texts in
lower case. -/
def Comparator.wideVerdict (c : Comparator) (actual literal : WideValue) :
    Except EvalError Bool :=
  match actual.double?, literal.double? with
  | some x, some y => .ok (c.compares x y)
  | _, _ =>
    if c.appliesToText then
      let equal := Text.lowered actual.shown == Text.lowered literal.shown
      .ok (if c = .ne then !equal else equal)
    else .error (.notForText c)

-- a value that is not a number is neither less, nor equal, nor greater
example : [Comparator.lt, .eq, .gt].map (·.compares .nan .nan) = [false, false, false] := rfl

/-! ## Values among them -/

/-- A value as one with any double. -/
def Value.widened : Value → WideValue
  | .integer i => .integer i
  | .real x => .real (.finite x)
  | .text s => .text s

theorem Double.ofInt_eq {i : Int} (h : i.natAbs < pow2 64) :
    ofInt i = .finite (Binary64.ofInt i) := by
  have hrank := Binary64.rank_ofInt h
  have hlt : Binary64.rankOf i.natAbs 1 < Binary64.limit := Json.Numeral.rankOf_lt_limit h
  rw [ofInt, ofRank, dif_pos hlt]
  generalize hx : Binary64.ofInt i = x at hrank
  obtain ⟨negative, rank, hfinite⟩ := x
  obtain rfl : negative = decide (i < 0) := by rw [← Binary64.negative_ofInt, hx]
  subst hrank
  rfl

/-- A finite double of a text is that of a numeral. -/
theorem Double.read?_eq_finite_iff {cs : List Char} {x : Binary64} :
    read? cs = some (.finite x) ↔ Value.realOf? cs = some x := by
  rw [read?, Value.realOf?]
  cases Decimal.read? cs with
  | none =>
    have hword : ofWord? cs ≠ some (.finite x) := by
      simp only [ofWord?]
      split
      · exact fun h => nomatch h
      · split
        · exact fun h => nomatch h
        · exact fun h => nomatch h
    exact iff_of_false hword fun h => nomatch h
  | some p =>
    simp only [Option.bind_some, Decimal.toBinary64?, ofRank]
    split <;> simp

namespace Value

theorem finite_widened (v : Value) : v.widened.Finite := by
  intro x h
  cases v with
  | integer i =>
    rw [widened, WideValue.double?, Double.ofInt_eq (Int64.natAbs_toInt_lt i)] at h
    exact ⟨_, (Option.some.inj h).symm⟩
  | real y => exact ⟨y, (Option.some.inj h).symm⟩
  | text s => cases h

theorem double?_widened (v : Value) : v.widened.double? = v.number?.map .finite := by
  cases v with
  | integer i =>
    rw [widened, WideValue.double?, Double.ofInt_eq (Int64.natAbs_toInt_lt i)]
    rfl
  | real x => rfl
  | text s => rfl

theorem shown_widened (v : Value) : v.widened.shown = v.shown := by
  cases v <;> rfl

/-- A literal that is not finite stays a text. -/
theorem widened_ofLiteral (raw : String) : (ofLiteral raw).widened = WideValue.ofLiteral raw := by
  rw [ofLiteral, WideValue.ofLiteral]
  cases (Decimal.readInt? raw.toList).bind wholeOf? with
  | some i => rfl
  | none =>
    simp only
    cases hreal : realOf? raw.toList with
    | some x => rw [Double.read?_eq_finite_iff.mpr hreal]; rfl
    | none =>
      cases hread : Double.read? raw.toList with
      | none => rfl
      | some x =>
        cases x with
        | finite x =>
          rw [Double.read?_eq_finite_iff.mp hread] at hreal
          cases hreal
        | infinite negative => rfl
        | nan => rfl

/-- A whole number of 64 bits, with or without sign, is not rounded beyond the finite doubles. -/
theorem widened_ofJson? {j : Json} (h : j.Fits) :
    WideValue.ofJson? j = (ofJson? j).map widened := by
  cases j with
  | integer i =>
    rw [WideValue.ofJson?, ofJson?]
    cases wholeOf? i with
    | some i => rfl
    | none =>
      obtain ⟨hle, hlt⟩ := h
      have h63 : pow2 63 = 9223372036854775808 := rfl
      have h64 : pow2 64 = 18446744073709551616 := rfl
      simp only [Double.ofInt_eq (show i.natAbs < pow2 64 by omega), Option.map_some, widened]
  | real x => rfl
  | string s => rfl
  | null => rfl
  | bool b => rfl
  | array items => rfl
  | object members => rfl

end Value

/-- Values are compared as those with any double are. -/
theorem Comparator.wideVerdict_widened (c : Comparator) (v w : Value) :
    c.wideVerdict v.widened w.widened = c.verdict v w := by
  rw [wideVerdict, v.double?_widened, w.double?_widened, v.shown_widened, w.shown_widened]
  have htext : (if c.appliesToText then
      .ok (if c = .ne then !v.sameText w else v.sameText w)
        else .error (.notForText c) : Except EvalError Bool) =
      if c.appliesToText then .ok (c.holds (if v.sameText w then .eq else .lt))
        else .error (.notForText c) := by
    cases v.sameText w <;> cases c <;> rfl
  rw [verdict]
  cases v.number? with
  | none => exact htext
  | some x =>
    cases w.number? with
    | none => exact htext
    | some y => rfl

/-! ## Coherence -/

/-- How a value enters, beside the value with any double that the same text stands for. -/
inductive Entered : Value → WideValue → Prop where
  /-- A literal of a rule. -/
  | literal (raw : String) : Entered (Value.ofLiteral raw) (WideValue.ofLiteral raw)
  /-- A JSON value that stands somewhere in a text. -/
  | json {text : String} {j part : Json} {v : Value} {w : WideValue}
      (hj : Json.parse? text = some j) (hpart : part.Within j) (hv : Value.ofJson? part = some v)
      (hw : WideValue.ofJson? part = some w) : Entered v w

/-- What enters is a value. -/
theorem Entered.widened {v : Value} {w : WideValue} (h : Entered v w) : w = v.widened := by
  cases h with
  | literal raw => exact (Value.widened_ofLiteral raw).symm
  | json hj hpart hv hw =>
    have hfits := hpart.fits (Json.fits_of_parse? hj)
    rw [Value.widened_ofJson? hfits, hv] at hw
    exact (Option.some.inj hw).symm

variable {l r : Value}

/-- The verdicts on two numbers are those of an order. -/
structure Ordered (l r : Value) : Prop where
  /-- Exactly one of greater, equal and less holds. -/
  one :
    (Comparator.gt.verdict l r = .ok true ∧ Comparator.eq.verdict l r = .ok false ∧
      Comparator.lt.verdict l r = .ok false) ∨
    (Comparator.gt.verdict l r = .ok false ∧ Comparator.eq.verdict l r = .ok true ∧
      Comparator.lt.verdict l r = .ok false) ∨
    (Comparator.gt.verdict l r = .ok false ∧ Comparator.eq.verdict l r = .ok false ∧
      Comparator.lt.verdict l r = .ok true)
  /-- Greater or equal is not less. -/
  ge_iff : ∀ b, Comparator.ge.verdict l r = .ok b ↔ Comparator.lt.verdict l r = .ok !b
  /-- Less or equal is not greater. -/
  le_iff : ∀ b, Comparator.le.verdict l r = .ok b ↔ Comparator.gt.verdict l r = .ok !b
  /-- Greater is less the other way round. -/
  gt_iff : ∀ b, Comparator.gt.verdict l r = .ok b ↔ Comparator.lt.verdict r l = .ok b

/-- The verdicts on two values agree with one another. -/
structure Coherent (l r : Value) : Prop where
  /-- An order is refused for texts, and nothing else is refused. -/
  error_iff : ∀ c : Comparator, (∃ e, c.verdict l r = .error e) ↔
    ((∃ s, l = .text s) ∨ ∃ s, r = .text s) ∧ c ≠ .eq ∧ c ≠ .ne
  /-- Unequal is not equal. -/
  ne_iff : ∀ b, Comparator.ne.verdict l r = .ok b ↔ Comparator.eq.verdict l r = .ok !b
  /-- Equality goes both ways. -/
  eq_iff : ∀ b, Comparator.eq.verdict l r = .ok b ↔ Comparator.eq.verdict r l = .ok b
  /-- Numbers are in an order. -/
  ordered : l.number? ≠ none → r.number? ≠ none → Ordered l r

/-- A comparator that holds where another one does not. -/
theorem verdict_iff_not {c d : Comparator} {x y : Binary64} (hl : l.number? = some x)
    (hr : r.number? = some y) (h : c.Relates x.toRat y.toRat ↔ ¬ d.Relates x.toRat y.toRat)
    (b : Bool) : c.verdict l r = .ok b ↔ d.verdict l r = .ok !b := by
  rw [c.verdict_numbers hl hr, d.verdict_numbers hl hr, Except.ok.injEq, Except.ok.injEq,
    decide_eq_decide.mpr h, decide_not]
  cases b <;> cases decide (d.Relates x.toRat y.toRat) <;> decide

theorem verdict_iff_swap {c d : Comparator} {x y : Binary64} (hl : l.number? = some x)
    (hr : r.number? = some y) (h : c.Relates x.toRat y.toRat ↔ d.Relates y.toRat x.toRat)
    (b : Bool) : c.verdict l r = .ok b ↔ d.verdict r l = .ok b := by
  rw [c.verdict_numbers hl hr, d.verdict_numbers hr hl, decide_eq_decide.mpr h]

theorem ordered_of_number? {x y : Binary64} (hl : l.number? = some x) (hr : r.number? = some y) :
    Ordered l r where
  one := by
    rw [Comparator.verdict_numbers _ hl hr, Comparator.verdict_numbers _ hl hr,
      Comparator.verdict_numbers _ hl hr]
    simp only [Comparator.Relates]
    rcases lt_trichotomy x.toRat y.toRat with h | h | h
    · simp [h, h.not_gt, h.ne]
    · simp [h]
    · simp [h, h.not_gt, h.ne']
  ge_iff := verdict_iff_not hl hr not_lt.symm
  le_iff := verdict_iff_not hl hr not_lt.symm
  gt_iff := verdict_iff_swap hl hr Iff.rfl

theorem Value.sameText_comm (v w : Value) : v.sameText w = w.sameText v := BEq.comm

/-- Two values are both numbers, or one of them is a text. -/
theorem Value.text_or_numbers (v w : Value) :
    (v.number? = none ∨ w.number? = none) ∨ ∃ x y, v.number? = some x ∧ w.number? = some y := by
  cases hv : v.number? with
  | none => exact .inl (.inl rfl)
  | some x =>
    cases hw : w.number? with
    | none => exact .inl (.inr rfl)
    | some y => exact .inr ⟨x, y, rfl, rfl⟩

theorem coherent (l r : Value) : Coherent l r where
  error_iff c := by
    simp only [Comparator.verdict_eq_error_iff, Value.number?_eq_none_iff,
      Comparator.not_appliesToText_iff, exists_and_left, exists_eq, and_true]
  ne_iff b := by
    rcases l.text_or_numbers r with htext | ⟨x, y, hl, hr⟩
    · rw [Comparator.verdict_of_text _ htext, Comparator.verdict_of_text _ htext]
      cases l.sameText r <;> cases b <;> decide
    · exact verdict_iff_not hl hr Iff.rfl b
  eq_iff b := by
    rcases l.text_or_numbers r with htext | ⟨x, y, hl, hr⟩
    · rw [Comparator.verdict_of_text _ htext, Comparator.verdict_of_text _ htext.symm,
        Value.sameText_comm]
    · exact verdict_iff_swap (c := .eq) (d := .eq) hl hr eq_comm b
  ordered hl hr := by
    obtain ⟨x, hx⟩ := Option.ne_none_iff_exists'.mp hl
    obtain ⟨y, hy⟩ := Option.ne_none_iff_exists'.mp hr
    exact ordered_of_number? hx hy

/-- Values that enter are no infinite doubles and none that are not numbers, although a text may
say so.  They are compared as doubles are, and the verdicts agree with one another: an order is
refused for texts and nothing else is, equality goes both ways and is the opposite of inequality,
and numbers are in an order. -/
theorem coherent_of_entered {l' r' : WideValue} (hl : Entered l l') (hr : Entered r r') :
    l'.Finite ∧ r'.Finite ∧ (∀ c : Comparator, c.wideVerdict l' r' = c.verdict l r) ∧
      Coherent l r := by
  obtain rfl := hl.widened
  obtain rfl := hr.widened
  exact ⟨l.finite_widened, r.finite_widened, fun c => c.wideVerdict_widened l r, coherent l r⟩

/-- The literal and the number of JSON are each beyond 64 bits with sign. -/
theorem coherent_of_entered_beyond_whole :
    Entered (Value.ofLiteral "18446744073709551616") (WideValue.ofLiteral "18446744073709551616") ∧
      Entered (.real (Binary64.ofInt 18446744073709551615))
        (.real (Double.ofInt 18446744073709551615)) ∧
      Coherent (Value.ofLiteral "18446744073709551616")
        (.real (Binary64.ofInt 18446744073709551615)) := by
  have hfits : (Json.array [.integer 18446744073709551615]).Fits := by
    simp [Json.Fits, Json.FitAll, pow2]
  have hparse := Json.parse?_compact hfits
  rw [if_pos (by decide)] at hparse
  have hl : Entered (Value.ofLiteral "18446744073709551616")
      (WideValue.ofLiteral "18446744073709551616") := .literal _
  have hr : Entered (.real (Binary64.ofInt 18446744073709551615))
      (.real (Double.ofInt 18446744073709551615)) :=
    .json hparse (.item List.mem_cons_self (.self (.integer 18446744073709551615))) rfl rfl
  exact ⟨hl, hr, (coherent_of_entered hl hr).2.2.2⟩

end Rulebook
