import Rulebook.Text.Letter

/-!
# Decimal digits

A natural number as its decimal digits, most significant first and without a
leading zero, and the number that a run of digits stands for.  `value_digits`
says that the two fit: what is written is read back.
-/

namespace Rulebook.Digits

open Rulebook.Text (isDigit)

/-- The character of a digit below ten. -/
def digit (d : Nat) : Char := Char.ofNat (48 + d)

/-- The decimal digits of a number. -/
def digits (n : Nat) : List Char :=
  if n < 10 then [digit n] else digits (n / 10) ++ [digit (n % 10)]

/-- The number a run of digits stands for, where `n` stands before it. -/
def valueAfter (n : Nat) (cs : List Char) : Nat :=
  cs.foldl (fun m c => 10 * m + (c.toNat - 48)) n

/-- The number a run of digits stands for. -/
def value (cs : List Char) : Nat := valueAfter 0 cs

/-- A whole number with a minus sign if it is negative. -/
def signed (i : Int) : List Char :=
  if i < 0 then '-' :: digits i.natAbs else digits i.natAbs

theorem toNat_digit {d : Nat} (h : d < 10) : (digit d).toNat = 48 + d := by
  have : ∀ d < 10, (digit d).toNat = 48 + d := by decide
  exact this d h

theorem isDigit_digit {d : Nat} (h : d < 10) : isDigit (digit d) = true := by
  have : ∀ d < 10, isDigit (digit d) = true := by decide
  exact this d h

theorem digits_ne_nil (n : Nat) : digits n ≠ [] := by
  rw [digits]
  split <;> simp

theorem all_isDigit_digits (n : Nat) : ∀ c ∈ digits n, isDigit c = true := by
  fun_induction digits n with
  | case1 n h => simpa using isDigit_digit h
  | case2 n h ih =>
    intro c hc
    rcases List.mem_append.1 hc with hc | hc
    · exact ih c hc
    · rw [List.mem_singleton.1 hc]
      exact isDigit_digit (Nat.mod_lt _ (by decide))

theorem value_append (cs ds : List Char) : value (cs ++ ds) = valueAfter (value cs) ds := by
  simp [value, valueAfter, List.foldl_append]

/-- What is written is read back. -/
theorem value_digits (n : Nat) : value (digits n) = n := by
  fun_induction digits n with
  | case1 n h => simp [value, valueAfter, toNat_digit h]
  | case2 n h ih =>
    rw [value_append, ih]
    simp only [valueAfter, List.foldl_cons, List.foldl_nil,
      toNat_digit (Nat.mod_lt n (by decide : 0 < 10))]
    omega

example : digits 0 = ['0'] ∧ digits 1204 = ['1', '2', '0', '4'] := by decide +kernel
example : value ['0', '0', '7'] = 7 ∧ value [] = 0 := by decide
example : signed (-5) = ['-', '5'] := by decide +kernel

end Rulebook.Digits
