import Rulebook.Json.Numeral

/-!
# The text of JSON strings and numbers

What a reader of JSON needs below the level of values: the blanks between tokens,
the text of a string after its opening quote, and the length of what a string or
a number leaves, which is always less than what there was.

An escape `\uXXXX` is a unit of UTF-16, and a character beyond the first 65536 is
written as a pair of them.  A *strict* reader refuses half a pair.  A *lenient*
one, which only passes over a string, does not look at the units.
-/

namespace Rulebook.Json

open Rulebook.Text (isDigit)

/-- The blanks of JSON. -/
def isSpace (c : Char) : Bool := c == ' ' || c == '\n' || c == '\t' || c == '\r'

/-- The text after the blanks at its front. -/
def skipSpace (cs : List Char) : List Char := cs.dropWhile isSpace

/-- The value of a digit of base sixteen in either case. -/
def hexValue? (c : Char) : Option Nat :=
  if isDigit c then some (c.toNat - 48)
  else if 'a' ≤ c ∧ c ≤ 'f' then some (c.toNat - 87)
  else if 'A' ≤ c ∧ c ≤ 'F' then some (c.toNat - 55)
  else none

/-- The number of four digits of base sixteen. -/
def hexUnit? (a b c d : Char) : Option Nat := do
  pure (4096 * (← hexValue? a) + 256 * (← hexValue? b) + 16 * (← hexValue? c) + (← hexValue? d))

/-- The character of an escape of two characters. -/
def escape? : Char → Option Char
  | '"' => some '"'
  | '\\' => some '\\'
  | '/' => some '/'
  | 'b' => some '\x08'
  | 'f' => some '\x0c'
  | 'n' => some '\n'
  | 'r' => some '\r'
  | 't' => some '\t'
  | _ => none

/-- Whether a unit is the first half of a pair. -/
def isLeading (n : Nat) : Bool := 0xD800 ≤ n && n < 0xDC00

/-- Whether a unit is the second half of a pair. -/
def isTrailing (n : Nat) : Bool := 0xDC00 ≤ n && n < 0xE000

/-- The character of a pair of units. -/
def ofPair (n m : Nat) : Char := Char.ofNat (0x10000 + 1024 * (n - 0xD800) + (m - 0xDC00))

/-- The second half of a pair that must follow the first, and the text after it. -/
def readPair? (n : Nat) : List Char → Option (Char × List Char)
  | '\\' :: 'u' :: a :: b :: c :: d :: rest =>
    match hexUnit? a b c d with
    | none => none
    | some m => if isTrailing m then some (ofPair n m, rest) else none
  | _ => none

/-- The character of an escape whose backslash has been read, and the text after it. -/
def readEscape? (lenient : Bool) : List Char → Option (Char × List Char)
  | 'u' :: a :: b :: c :: d :: rest =>
    match hexUnit? a b c d with
    | none => none
    | some n =>
      if lenient then some ('?', rest)
      else if isTrailing n then none
      else if isLeading n then readPair? n rest
      else some (Char.ofNat n, rest)
  | c :: rest => (escape? c).map fun c => (c, rest)
  | [] => none

theorem length_lt_of_readPair? {n : Nat} {cs rest : List Char} {c : Char}
    (h : readPair? n cs = some (c, rest)) : rest.length < cs.length := by
  unfold readPair? at h
  split at h
  · split at h
    · simp at h
    · split at h
      · simp only [Option.some.injEq, Prod.mk.injEq] at h
        simp only [List.length_cons, ← h.2]
        omega
      · simp at h
  · simp at h

theorem length_lt_of_readEscape? {lenient : Bool} {cs rest : List Char} {c : Char}
    (h : readEscape? lenient cs = some (c, rest)) : rest.length < cs.length := by
  unfold readEscape? at h
  split at h
  · split at h
    · simp at h
    · split at h
      · simp only [Option.some.injEq, Prod.mk.injEq] at h
        simp only [List.length_cons, ← h.2]
        omega
      · split at h
        · simp at h
        · split at h
          · have := length_lt_of_readPair? h
            simp only [List.length_cons]
            omega
          · simp only [Option.some.injEq, Prod.mk.injEq] at h
            simp only [List.length_cons, ← h.2]
            omega
  · simp only [Option.map_eq_some_iff, Prod.mk.injEq] at h
    obtain ⟨_, _, _, rfl⟩ := h
    simp
  · simp at h

/-- The text of a string whose opening quote has been read, and what follows the closing one. -/
def readString? (lenient : Bool) : List Char → Option (List Char × List Char)
  | [] => none
  | c :: rest =>
    if c = '"' then some ([], rest)
    else if c = '\\' then
      match h : readEscape? lenient rest with
      | none => none
      | some (c, rest') =>
        have : rest'.length < rest.length := length_lt_of_readEscape? h
        (readString? lenient rest').map fun (s, r) => (c :: s, r)
    else if c.toNat < 32 then none
    else (readString? lenient rest).map fun (s, r) => (c :: s, r)
termination_by cs => cs.length

/-! ## What is left -/

theorem length_skipSpace_le (cs : List Char) : (skipSpace cs).length ≤ cs.length :=
  (List.dropWhile_sublist isSpace).length_le

/-- A string leaves less than there was. -/
theorem length_lt_of_readString? {lenient : Bool} {cs s rest : List Char}
    (h : readString? lenient cs = some (s, rest)) : rest.length < cs.length := by
  fun_induction readString? lenient cs generalizing s rest with
  | case1 => simp at h
  | case2 => simp_all
  | case3 => simp at h
  | case4 cs c' cs' _ _ _ ih =>
    simp only [Option.map_eq_some_iff, Prod.exists, Prod.mk.injEq] at h
    obtain ⟨_, _, h, _, rfl⟩ := h
    have := ih h
    simp only [List.length_cons]
    omega
  | case5 => simp at h
  | case6 c cs _ _ _ ih =>
    simp only [Option.map_eq_some_iff, Prod.exists, Prod.mk.injEq] at h
    obtain ⟨_, _, h, _, rfl⟩ := h
    have := ih h
    simp only [List.length_cons]
    omega

theorem length_lt_of_readDigits? {cs ds rest : List Char}
    (h : Numeral.readDigits? cs = some (ds, rest)) : rest.length < cs.length := by
  simp only [Numeral.readDigits?] at h
  split at h
  · simp at h
  · next hne =>
    simp only [Option.some.injEq, Prod.mk.injEq] at h
    obtain ⟨hds, rfl⟩ := h
    have hsum := congrArg List.length (List.takeWhile_append_dropWhile (p := isDigit) (l := cs))
    have hpos : 0 < (cs.takeWhile isDigit).length :=
      List.length_pos_iff.2 fun hnil => hne (by simp [hnil])
    simp only [List.length_append] at hsum
    omega

theorem length_readSign_le (cs : List Char) : (Decimal.readSign cs).2.length ≤ cs.length := by
  unfold Decimal.readSign
  split <;> simp

/-- A number leaves less than there was. -/
theorem length_lt_of_read? {cs rest : List Char} {n : Numeral}
    (h : Numeral.read? cs = some (n, rest)) : rest.length < cs.length := by
  simp only [Numeral.read?, Option.bind_eq_bind, Option.bind_eq_some_iff, Prod.exists] at h
  obtain ⟨whole, cs₁, h₁, fraction, cs₂, h₂, exponent, cs₃, h₃, h⟩ := h
  simp only [Option.pure_def, Option.some.injEq, Prod.mk.injEq] at h
  obtain ⟨-, rfl⟩ := h
  have hminus : (Numeral.readMinus cs).2.length ≤ cs.length := by
    unfold Numeral.readMinus
    split <;> simp
  have hwhole : cs₁.length < (Numeral.readMinus cs).2.length := by
    unfold Numeral.readWhole? at h₁
    split at h₁
    · simp at h₁
    · exact length_lt_of_readDigits? h₁
  have hfraction : cs₂.length ≤ cs₁.length := by
    unfold Numeral.readFraction? at h₂
    split at h₂
    · simp only [Option.map_eq_some_iff, Prod.exists, Prod.mk.injEq] at h₂
      obtain ⟨_, _, h₂, _, rfl⟩ := h₂
      have := length_lt_of_readDigits? h₂
      simp only [List.length_cons]
      omega
    · simp_all
  have hexponent : cs₃.length ≤ cs₂.length := by
    unfold Numeral.readExponent? at h₃
    split at h₃
    · split at h₃
      · simp only [Option.map_eq_some_iff, Prod.exists, Prod.mk.injEq] at h₃
        obtain ⟨_, _, h₃, _, rfl⟩ := h₃
        have := length_lt_of_readDigits? h₃
        exact Nat.le_of_lt (Nat.lt_of_lt_of_le this
          (Nat.le_trans (length_readSign_le _) (Nat.le_succ _)))
      · simp_all
    · simp_all
  omega

example : readString? false ['a', '\\', 'n', '"', 'x'] = some (['a', '\n'], ['x']) := by
  decide +kernel
example : readString? false ['\\', 'u', 'd', '8', '0', '0', '"'] = none := by decide +kernel
example : readString? true ['\\', 'u', 'd', '8', '0', '0', '"'] = some (['?'], []) := by
  decide +kernel

end Rulebook.Json
