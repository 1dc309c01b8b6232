/-!
# Spans of code points

A character property with many members is written down as a *span table*: an
ascending list of closed intervals of code points, no two of which meet.
`inSpans` looks a code point up and stops at the first span that starts beyond
it, so the characters of the first blocks are decided after a few steps.

`inSpans_iff` says that for an ascending table the early stop loses nothing: a
code point is found exactly if some span holds it.
-/

namespace Rulebook.Text

/-- A closed interval of code points, its first and its last. -/
abbrev Span := Nat × Nat

/-- Whether an ascending span table holds a code point. -/
def inSpans : List Span → Nat → Bool
  | [], _ => false
  | (first, last) :: rest, n =>
      if n < first then false else if n ≤ last then true else inSpans rest n

/-- A span table in order: every span ends before the next begins. -/
def Ascending : List Span → Bool
  | [] => true
  | [(first, last)] => first ≤ last
  | (first, last) :: (first', last') :: rest =>
      first ≤ last && last < first' && Ascending ((first', last') :: rest)

/-- What a table finds lies in one of its spans. -/
theorem exists_span_of_inSpans {table : List Span} {n : Nat} (h : inSpans table n = true) :
    ∃ s ∈ table, s.1 ≤ n ∧ n ≤ s.2 := by
  induction table with
  | nil => simp [inSpans] at h
  | cons s rest ih =>
    obtain ⟨first, last⟩ := s
    simp only [inSpans] at h
    split at h
    · simp at h
    · split at h
      · exact ⟨(first, last), by simp, by omega, by omega⟩
      · obtain ⟨s, hs, hn⟩ := ih h
        exact ⟨s, by simp [hs], hn⟩

/-- Every span of an ascending table starts at or after the first one. -/
theorem last_lt_of_ascending {first last : Nat} {rest : List Span}
    (h : Ascending ((first, last) :: rest) = true) : ∀ s ∈ rest, last < s.1 := by
  induction rest generalizing first last with
  | nil => simp
  | cons t rest ih =>
    obtain ⟨first', last'⟩ := t
    simp only [Ascending, Bool.and_eq_true, decide_eq_true_eq] at h
    intro s hs
    rcases List.mem_cons.1 hs with rfl | hs
    · exact h.1.2
    · have := ih h.2 s hs
      have : first' ≤ last' := by
        cases rest with
        | nil => simpa [Ascending] using h.2
        | cons u rest =>
          simp only [Ascending, Bool.and_eq_true, decide_eq_true_eq] at h
          exact h.2.1.1
      omega

/-- The tail of an ascending table is ascending. -/
theorem ascending_tail {s : Span} {rest : List Span} (h : Ascending (s :: rest) = true) :
    Ascending rest = true := by
  obtain ⟨first, last⟩ := s
  cases rest with
  | nil => rfl
  | cons t rest =>
    obtain ⟨first', last'⟩ := t
    simp only [Ascending, Bool.and_eq_true] at h
    exact h.2

/-- An ascending table finds exactly the code points of its spans. -/
theorem inSpans_iff {table : List Span} (h : Ascending table = true) {n : Nat} :
    inSpans table n = true ↔ ∃ s ∈ table, s.1 ≤ n ∧ n ≤ s.2 := by
  refine ⟨exists_span_of_inSpans, ?_⟩
  induction table with
  | nil => simp
  | cons t rest ih =>
    obtain ⟨first, last⟩ := t
    rintro ⟨s, hs, hn⟩
    have le := last_lt_of_ascending h
    simp only [inSpans]
    rcases List.mem_cons.1 hs with rfl | hs
    · rw [if_neg (by simp at hn; omega), if_pos (by simp at hn; omega)]
    · have := le s hs
      have := ih (ascending_tail h) ⟨s, hs, hn⟩
      split
      · have : first ≤ last := by
          cases rest with
          | nil => simp at hs
          | cons u rest =>
            simp only [Ascending, Bool.and_eq_true, decide_eq_true_eq] at h
            exact h.1.1
        omega
      · split <;> simp_all

end Rulebook.Text
