import Mathlib.Data.List.DropRight
import Rulebook.Proofs.StoredRule
import Rulebook.Proofs.TableParts
import Rulebook.Service.Call
import Rulebook.Store.Faulty

/-!
# The journal of a service

A service that is asked to record notes every verdict that it gives.  What a run has noted is
`Service.evaluations`, one entry for each request that had a verdict, with this verdict, the
record and the text that was judged.  In memory the journal holds the last of these, as many
as its capacity allows, the oldest first (`Service.Noted.after`).  Nothing else touches it: a
request that fails, or one of another kind, leaves the journal as it was.

The journal has no influence on anything.  Two repositories *agree* if they do the same for
rules, whatever goes into their journals (`Repository.Agree`), and services over such
repositories give the same answers in every run (`Repository.Agree.transcript`).  Memory
agrees with itself at another capacity, and with memory whose journal fails at every entry.
-/

namespace Rulebook

open Repository (save)

/-! ## The evaluations of a run -/

namespace Service

section Evaluations

variable {σ : Type} [Repository σ]

/-- What a call gives the journal, if it is a request that has a verdict. -/
def evaluationOf? (s : Service σ) : ServiceCall → Option Evaluation
  | .evaluate request stamp =>
      match s.textOf request, (s.evaluate request stamp).1 with
      | .ok text, .ok result => some ⟨stamp, result, request.data, text⟩
      | _, _ => none
  | _ => none

/-- What the calls of a run give the journal, in order. -/
def evaluations (s : Service σ) : List ServiceCall → List Evaluation
  | [] => []
  | call :: calls => (s.evaluationOf? call).toList ++ (s.answer call).2.evaluations calls

/-- A request gives the journal something exactly if it has a verdict. -/
theorem evaluationOf?_eq_none_iff (s : Service σ) (call : ServiceCall) :
    s.evaluationOf? call = none ↔ ∀ result, (s.answer call).1 ≠ .evaluated (.ok result) := by
  cases call with
  | evaluate request stamp =>
      obtain ⟨err, heval⟩ | ⟨text, result, htext, heval⟩ := s.evaluate_cases request stamp
      · simp [evaluationOf?, answer, heval]
      · simp [evaluationOf?, answer, heval, htext]
  | create id expression => simp [evaluationOf?, answer]
  | rules => simp [evaluationOf?, answer]
  | combine ids => simp [evaluationOf?, answer]
  | combineList list => simp [evaluationOf?, answer]
  | clear => simp [evaluationOf?, answer]

end Evaluations

/-! ## The journal in memory -/

variable {s : Service MemoryStore}

/-- A call without a verdict changes nothing but the rules, and one with a verdict notes it. -/
theorem answer_cases (s : Service MemoryStore) (call : ServiceCall) :
    (s.evaluationOf? call = none ∧
      ∃ rules, (s.answer call).2 = { s with store := { s.store with rules } }) ∨
    ∃ e, s.evaluationOf? call = some e ∧ (s.answer call).2 = s.note e := by
  cases call with
  | create id expression =>
      refine .inl ⟨rfl, ?_⟩
      obtain ⟨err, hcreate⟩ | ⟨rule, hcreate⟩ := s.create_cases id expression
      · exact ⟨s.store.rules, by rw [answer, hcreate]⟩
      · exact ⟨s.store.rules.insert rule.id rule, by rw [answer, hcreate]; rfl⟩
  | evaluate request stamp =>
      obtain ⟨err, heval⟩ | ⟨text, result, htext, heval⟩ := s.evaluate_cases request stamp
      · exact .inl ⟨by simp [evaluationOf?, heval], s.store.rules, by rw [answer, heval]⟩
      · exact .inr ⟨_, by rw [evaluationOf?, heval, htext], by rw [answer, heval]⟩
  | rules => exact .inl ⟨rfl, s.store.rules, rfl⟩
  | combine ids => exact .inl ⟨rfl, s.store.rules, rfl⟩
  | combineList list => exact .inl ⟨rfl, s.store.rules, rfl⟩
  | clear => exact .inl ⟨rfl, Table.empty, rfl⟩

end Service

theorem rtake_rtake_append {α : Type} (n : Nat) (l m : List α) :
    (l.rtake n ++ m).rtake n = (l ++ m).rtake n := by
  simp only [List.rtake_eq_reverse_take_reverse, List.reverse_append, List.reverse_reverse,
    List.take_append, List.take_take]
  rw [Nat.min_eq_left (Nat.sub_le n _)]

theorem MemoryStore.capacity_record (s : MemoryStore) (e : Evaluation) :
    (s.record e).capacity = s.capacity := by
  unfold MemoryStore.record
  split <;> rfl

theorem MemoryStore.rules_record (s : MemoryStore) (e : Evaluation) :
    (s.record e).rules = s.rules := by
  unfold MemoryStore.record
  split <;> rfl

/-- The last evaluations stay the last ones when one more comes. -/
theorem MemoryStore.journal_record {s : MemoryStore} {noted : List Evaluation}
    (h : s.journal = noted.rtake s.capacity) (e : Evaluation) :
    (s.record e).journal = (noted ++ [e]).rtake s.capacity := by
  unfold MemoryStore.record
  split
  next hzero => rw [h, hzero, List.rtake_zero, List.rtake_zero]
  next hpos =>
    have hlen : s.journal.length + 1 - s.capacity ≤ s.journal.length := by omega
    -- dropping before the entry is added is dropping behind it, since the entry itself stays
    calc s.journal.drop (s.journal.length + 1 - s.capacity) ++ [e]
      _ = (s.journal ++ [e]).rtake s.capacity := by
          rw [List.rtake, List.length_append, List.length_singleton,
            List.drop_append_of_le_length hlen]
      _ = (noted ++ [e]).rtake s.capacity := by rw [h, rtake_rtake_append]

namespace Service

variable {s : Service MemoryStore}

theorem note_eq (s : Service MemoryStore) (e : Evaluation) :
    s.note e = if s.recording then { s with store := s.store.record e } else s :=
  rfl

theorem rules_note (s : Service MemoryStore) (e : Evaluation) :
    (s.note e).store.rules = s.store.rules := by
  rw [note_eq]
  split
  next => exact MemoryStore.rules_record s.store e
  next => rfl

theorem journal_note (s : Service MemoryStore) (e : Evaluation) :
    (s.note e).store.journal = if s.recording ∧ s.store.capacity ≠ 0 then
      s.store.journal.drop (s.store.journal.length + 1 - s.store.capacity) ++ [e]
    else s.store.journal := by
  rw [note_eq]
  cases s.recording with
  | false => simp
  | true =>
      by_cases hcap : s.store.capacity = 0
      · simp [MemoryStore.record, hcap]
      · simp [MemoryStore.record, hcap]

/-- Whether the journal is what there is room for of the given evaluations, or empty if nothing is
to be recorded. -/
def Noted (s : Service MemoryStore) (noted : List Evaluation) : Prop :=
  s.store.journal = if s.recording then noted.rtake s.store.capacity else []

namespace Noted

theorem note {noted : List Evaluation} (h : s.Noted noted) (e : Evaluation) :
    (s.note e).Noted (noted ++ [e]) := by
  unfold Noted at h ⊢
  rw [note_eq]
  cases hrec : s.recording with
  | false =>
      rw [hrec] at h
      simpa [hrec] using h
  | true =>
      rw [hrec, if_pos rfl] at h
      simpa [hrec, MemoryStore.capacity_record] using MemoryStore.journal_record h e

theorem answer {noted : List Evaluation} (h : s.Noted noted) (call : ServiceCall) :
    (s.answer call).2.Noted (noted ++ (s.evaluationOf? call).toList) := by
  obtain ⟨hnone, rules, hnext⟩ | ⟨e, hsome, hnext⟩ := s.answer_cases call
  · rw [hnone, hnext, Option.toList_none, List.append_nil]
    exact h
  · rw [hsome, hnext, Option.toList_some]
    exact h.note e

/-- What a run notes comes behind what was noted before. -/
theorem after {noted : List Evaluation} (h : s.Noted noted) (calls : List ServiceCall) :
    (Run.after Service.answer s calls).Noted (noted ++ s.evaluations calls) := by
  induction calls generalizing s noted with
  | nil => rwa [Run.after, evaluations, List.append_nil]
  | cons call calls ih =>
      rw [Run.after, evaluations, ← List.append_assoc]
      exact ih (h.answer call)

end Noted

/-- No call changes the capacity or whether verdicts are recorded. -/
theorem answer_settings (s : Service MemoryStore) (call : ServiceCall) :
    (s.answer call).2.store.capacity = s.store.capacity ∧
      (s.answer call).2.recording = s.recording := by
  obtain ⟨-, rules, hnext⟩ | ⟨e, -, hnext⟩ := s.answer_cases call
  · rw [hnext]
    exact ⟨rfl, rfl⟩
  · rw [hnext, note_eq]
    split
    next => exact ⟨MemoryStore.capacity_record s.store e, rfl⟩
    next => exact ⟨rfl, rfl⟩

theorem reached_settings (capacity : Nat) (recording : Bool) (calls : List ServiceCall) :
    (reached capacity recording calls).store.capacity = capacity ∧
      (reached capacity recording calls).recording = recording :=
  Run.after_induction
    (P := fun s : Service MemoryStore => s.store.capacity = capacity ∧ s.recording = recording)
    (fun s call hs =>
      ⟨(s.answer_settings call).1.trans hs.1, (s.answer_settings call).2.trans hs.2⟩)
    ⟨rfl, rfl⟩ calls

/-- The journal behind calls is what there is room for of what they noted. -/
theorem journal_reached (capacity : Nat) (recording : Bool) (calls : List ServiceCall) :
    (reached capacity recording calls).store.journal =
      if recording then
        (evaluations ⟨MemoryStore.empty capacity, recording⟩ calls).rtake capacity
      else [] := by
  have hstart : Noted ⟨MemoryStore.empty capacity, recording⟩ [] := by
    unfold Noted
    split
    next => rw [List.rtake_nil]; rfl
    next => rfl
  have hend := hstart.after calls
  obtain ⟨hcapacity, hrecording⟩ := reached_settings capacity recording calls
  unfold reached at hcapacity hrecording
  unfold Noted at hend
  rwa [List.nil_append, hcapacity, hrecording] at hend

/-- A call without a verdict leaves the journal as it was. -/
theorem journal_answer {call : ServiceCall}
    (h : ∀ result, (s.answer call).1 ≠ .evaluated (.ok result)) :
    (s.answer call).2.store.journal = s.store.journal := by
  obtain ⟨-, rules, hnext⟩ | ⟨e, hsome, -⟩ := s.answer_cases call
  · rw [hnext]
  · rw [(s.evaluationOf?_eq_none_iff call).mpr h] at hsome
    cases hsome

end Service

/-! ## Repositories that differ in their journals -/

/-- Whether repositories in related states do the same for rules, and stay related whatever goes
into the journal of one of them. -/
structure Repository.Agree {σ τ : Type} [Repository σ] [Repository τ] (R : σ → τ → Prop) :
    Prop where
  /-- A rule is saved with the same outcome. -/
  save : ∀ {s t}, R s t → ∀ rule,
    (save s rule).1 = (save t rule).1 ∧ R (save s rule).2 (save t rule).2
  /-- The same rules are listed. -/
  rules : ∀ {s t}, R s t → rules s = rules t
  /-- The same rules are found. -/
  find : ∀ {s t}, R s t → ∀ ids, find s ids = find t ids
  /-- The rules are removed with the same outcome. -/
  clear : ∀ {s t}, R s t → (clear s).1 = (clear t).1 ∧ R (clear s).2 (clear t).2
  /-- The journal of the first does not matter. -/
  record_left : ∀ {s t}, R s t → ∀ e, R (record s e).2 t
  /-- The journal of the second does not matter. -/
  record_right : ∀ {s t}, R s t → ∀ e, R s (record t e).2

open Repository (Agree)

namespace Service

variable {σ τ : Type} [Repository σ] [Repository τ] {R : σ → τ → Prop} {s : Service σ}
  {t : Service τ}

theorem combine_congr (h : Agree R) (hst : R s.store t.store) (ids : List String) :
    s.combine ids = t.combine ids := by
  rw [combine, combine, h.find hst]

theorem textOf_congr (h : Agree R) (hst : R s.store t.store) (request : EvaluationRequest) :
    s.textOf request = t.textOf request := by
  simp only [textOf, combine_congr h hst]

theorem create_congr (h : Agree R) (hst : R s.store t.store) (id expression : String) :
    (s.create id expression).1 = (t.create id expression).1 ∧
      R (s.create id expression).2.store (t.create id expression).2.store := by
  unfold create
  split
  next => exact ⟨rfl, hst⟩
  next =>
    simp only
    split
    next => exact ⟨rfl, hst⟩
    next =>
      obtain ⟨houtcome, hnext⟩ := h.save hst ⟨Text.trimmed id, clean expression⟩
      generalize save s.store ⟨Text.trimmed id, clean expression⟩ = saved at houtcome hnext ⊢
      generalize save t.store ⟨Text.trimmed id, clean expression⟩ = saved' at houtcome hnext ⊢
      obtain ⟨outcome, store⟩ := saved
      obtain ⟨_, store'⟩ := saved'
      cases houtcome
      cases outcome with
      | error err => exact ⟨rfl, hnext⟩
      | ok => exact ⟨rfl, hnext⟩

theorem clear_congr (h : Agree R) (hst : R s.store t.store) :
    s.clear.1 = t.clear.1 ∧ R s.clear.2.store t.clear.2.store := by
  unfold clear
  obtain ⟨houtcome, hnext⟩ := h.clear hst
  generalize Repository.clear s.store = cleared at houtcome hnext ⊢
  generalize Repository.clear t.store = cleared' at houtcome hnext ⊢
  obtain ⟨outcome, store⟩ := cleared
  obtain ⟨_, store'⟩ := cleared'
  cases houtcome
  cases outcome with
  | error err => exact ⟨rfl, hnext⟩
  | ok n => exact ⟨rfl, hnext⟩

theorem note_left (h : Agree R) (hst : R s.store t.store) (e : Evaluation) :
    R (s.note e).store t.store := by
  unfold note
  split
  · exact h.record_left hst e
  · exact hst

theorem note_right (h : Agree R) (hst : R s.store t.store) (e : Evaluation) :
    R s.store (t.note e).store := by
  unfold note
  split
  · exact h.record_right hst e
  · exact hst

theorem evaluate_congr (h : Agree R) (hst : R s.store t.store) (request : EvaluationRequest)
    (stamp : Stamp) :
    (s.evaluate request stamp).1 = (t.evaluate request stamp).1 ∧
      R (s.evaluate request stamp).2.store (t.evaluate request stamp).2.store := by
  constructor
  · rw [evaluate_fst, evaluate_fst, textOf_congr h hst]
  · -- whether either of the two notes a verdict does not matter to the relation
    obtain ⟨_, hs⟩ | ⟨_, _, -, hs⟩ := s.evaluate_cases request stamp <;>
      obtain ⟨_, ht⟩ | ⟨_, _, -, ht⟩ := t.evaluate_cases request stamp <;>
      rw [hs, ht]
    · exact hst
    · exact note_right h hst _
    · exact note_left h hst _
    · exact note_right h (note_left h hst _) _

/-- A call is answered alike. -/
theorem answer_congr (h : Agree R) (hst : R s.store t.store) (call : ServiceCall) :
    (s.answer call).1 = (t.answer call).1 ∧ R (s.answer call).2.store (t.answer call).2.store := by
  cases call with
  | create id expression =>
      obtain ⟨houtcome, hnext⟩ := create_congr h hst id expression
      exact ⟨congrArg ServiceAnswer.created houtcome, hnext⟩
  | rules =>
      refine ⟨congrArg ServiceAnswer.listed ?_, hst⟩
      rw [rules, rules, h.rules hst]
  | combine ids => exact ⟨congrArg ServiceAnswer.combined (combine_congr h hst ids), hst⟩
  | combineList list => exact ⟨congrArg ServiceAnswer.combined (combine_congr h hst _), hst⟩
  | evaluate request stamp =>
      obtain ⟨houtcome, hnext⟩ := evaluate_congr h hst request stamp
      exact ⟨congrArg ServiceAnswer.evaluated houtcome, hnext⟩
  | clear =>
      obtain ⟨houtcome, hnext⟩ := clear_congr h hst
      exact ⟨congrArg ServiceAnswer.cleared houtcome, hnext⟩

/-- A run is answered alike. -/
theorem transcript_congr (h : Agree R) (hst : R s.store t.store) (calls : List ServiceCall) :
    Run.transcript answer s calls = Run.transcript answer t calls ∧
      R (Run.after answer s calls).store (Run.after answer t calls).store :=
  Run.transcript_congr (R := fun (s : Service σ) (t : Service τ) => R s.store t.store)
    (fun _ _ call hst => answer_congr h hst call) hst calls

end Service

/-- Memory with any two capacities. -/
theorem MemoryStore.agree :
    Agree fun s t : MemoryStore => s.rules = t.rules where
  save h rule := ⟨rfl, congrArg (·.insert rule.id rule) h⟩
  rules h := congrArg (fun t : Table Rule => Except.ok t.values) h
  find h ids := congrArg (fun t : Table Rule => Except.ok (t.restrict ids).values) h
  clear h := ⟨congrArg (fun t : Table Rule => Except.ok t.size) h, rfl⟩
  record_left h e := (MemoryStore.rules_record _ e).trans h
  record_right h e := h.trans (MemoryStore.rules_record _ e).symm

/-- Memory, and memory whose journal fails. -/
theorem MemoryStore.agree_unrecorded :
    Agree fun (s : Unrecorded MemoryStore) (t : MemoryStore) => s.store.rules = t.rules where
  save h rule := ⟨rfl, congrArg (·.insert rule.id rule) h⟩
  rules h := congrArg (fun t : Table Rule => Except.ok t.values) h
  find h ids := congrArg (fun t : Table Rule => Except.ok (t.restrict ids).values) h
  clear h := ⟨congrArg (fun t : Table Rule => Except.ok t.size) h, rfl⟩
  record_left h _ := h
  record_right h e := h.trans (MemoryStore.rules_record _ e).symm

/-- Behind any run the journal in memory holds the last verdicts of the run, as many as there is
room for, or nothing if nothing is to be recorded; and only a verdict changes it.  The answers and
the rules do not depend on the capacity, on whether verdicts are recorded, or on whether they can
be. -/
theorem journal_of_run (capacity : Nat) (recording : Bool) (calls : List ServiceCall) :
    (Service.reached capacity recording calls).store.journal =
      (if recording then
        (Service.evaluations ⟨MemoryStore.empty capacity, recording⟩ calls).rtake capacity
      else []) ∧
    (∀ (s : Service MemoryStore) call, (∀ result, (s.answer call).1 ≠ .evaluated (.ok result)) →
      (s.answer call).2.store.journal = s.store.journal) ∧
    (∀ capacity' recording',
      Run.transcript Service.answer ⟨MemoryStore.empty capacity', recording'⟩ calls =
        Run.transcript Service.answer ⟨MemoryStore.empty capacity, recording⟩ calls ∧
      (Service.reached capacity' recording' calls).store.rules =
        (Service.reached capacity recording calls).store.rules) ∧
    ∀ capacity' reason recording',
      Run.transcript Service.answer
          (⟨⟨MemoryStore.empty capacity', reason⟩, recording'⟩ : Service (Unrecorded MemoryStore))
          calls =
        Run.transcript Service.answer ⟨MemoryStore.empty capacity, recording⟩ calls ∧
      (Run.after Service.answer
          (⟨⟨MemoryStore.empty capacity', reason⟩, recording'⟩ : Service (Unrecorded MemoryStore))
          calls).store.store.rules =
        (Service.reached capacity recording calls).store.rules := by
  have hstart (capacity' : Nat) :
      (MemoryStore.empty capacity').rules = (MemoryStore.empty capacity).rules := rfl
  refine ⟨Service.journal_reached capacity recording calls,
    fun s call hcall => Service.journal_answer hcall, fun capacity' recording' => ?_,
    fun capacity' reason recording' => ?_⟩
  · exact Service.transcript_congr MemoryStore.agree (hstart capacity') calls
  · exact Service.transcript_congr MemoryStore.agree_unrecorded (hstart capacity') calls

/-- Of two verdicts there is room for the later one, and neither a request without a verdict nor the
removal of the rules takes it away. -/
theorem journal_of_run_one :
    ∃ (stamp : Stamp) (data : Record) (calls : List ServiceCall),
      calls = [.create "a" "X > 1", .evaluate ⟨some "x = 1", none, data⟩ stamp,
        .evaluate ⟨none, some [" a "], data⟩ stamp, .evaluate ⟨some "y = 1", none, data⟩ stamp] ∧
      ((Service.reached 1 true calls).store.journal.map fun e => (e.result, e.expression)) =
        [(true, "x > 1")] ∧
      ((Service.reached 1 true calls).answer .clear).2.store.journal =
        (Service.reached 1 true calls).store.journal ∧
      Run.transcript Service.answer ⟨MemoryStore.empty 0, false⟩ calls =
        Run.transcript Service.answer ⟨MemoryStore.empty 1, true⟩ calls := by
  let stamp : Stamp :=
    ⟨"00000000-0000-4000-8000-000000000001", "2024-05-01T12:00:00Z", by decide +kernel⟩
  let data : Record := Table.ofList [("x", .integer 2)]
  let calls : List ServiceCall :=
    [.create "a" "X > 1", .evaluate ⟨some "x = 1", none, data⟩ stamp,
      .evaluate ⟨none, some [" a "], data⟩ stamp, .evaluate ⟨some "y = 1", none, data⟩ stamp]
  obtain ⟨hjournal, hquiet, hsame, -⟩ := journal_of_run 1 true calls
  refine ⟨stamp, data, calls, rfl, ?_, hquiet _ .clear (fun result h => by cases h),
    (hsame 0 false).1⟩
  rw [hjournal]
  decide +kernel

end Rulebook
