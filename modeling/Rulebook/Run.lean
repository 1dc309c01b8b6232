/-!
# Runs

A run is a list of calls that are made one after the other.  A step function says what one
call answers and what state it leaves.  `Run.after` is the state behind all calls of a run,
and `Run.transcript` lists the calls with their answers.

What every single call keeps is kept by a run (`Run.after_induction`).  Two systems whose
states stay related answer the same (`Run.transcript_congr`), also where the first passes over
calls that the second does not get (`Run.transcript_filter`).  What the calls and answers tell
of a state is told of the state behind a run by its transcript (`Run.view_after`).
-/

namespace Rulebook

namespace Run

variable {σ κ α : Type}

/-- The state behind calls. -/
def after (step : σ → κ → α × σ) (s : σ) : List κ → σ
  | [] => s
  | c :: cs => after step (step s c).2 cs

/-- The calls with their answers. -/
def transcript (step : σ → κ → α × σ) (s : σ) : List κ → List (κ × α)
  | [] => []
  | c :: cs => (c, (step s c).1) :: transcript step (step s c).2 cs

theorem after_concat (step : σ → κ → α × σ) (s : σ) (calls : List κ) (c : κ) :
    after step s (calls ++ [c]) = (step (after step s calls) c).2 := by
  induction calls generalizing s with
  | nil => rfl
  | cons _ _ ih => exact ih _

theorem after_induction {step : σ → κ → α × σ} {P : σ → Prop} (hstep : ∀ s c, P s → P (step s c).2)
    {s : σ} (hs : P s) (calls : List κ) : P (after step s calls) := by
  induction calls generalizing s with
  | nil => exact hs
  | cons c cs ih => exact ih (hstep s c hs)

/-- Two systems that stay related answer the same, call by call. -/
theorem transcript_congr {τ : Type} {f : σ → κ → α × σ} {g : τ → κ → α × τ} {R : σ → τ → Prop}
    (hstep : ∀ s t c, R s t → (f s c).1 = (g t c).1 ∧ R (f s c).2 (g t c).2) {s : σ} {t : τ}
    (h : R s t) (calls : List κ) :
    transcript f s calls = transcript g t calls ∧ R (after f s calls) (after g t calls) := by
  induction calls generalizing s t with
  | nil => exact ⟨rfl, h⟩
  | cons c cs ih =>
    obtain ⟨hanswer, hnext⟩ := hstep s t c h
    obtain ⟨hrest, hend⟩ := ih hnext
    exact ⟨by rw [transcript, transcript, hanswer, hrest], hend⟩

/-- A view of the state that changes as a call and its answer tell is known from the transcript. -/
theorem view_after {β : Type} {step : σ → κ → α × σ} {change : β → κ × α → β} (view : σ → β)
    (hstep : ∀ s c, view (step s c).2 = change (view s) (c, (step s c).1)) (s : σ)
    (calls : List κ) :
    view (after step s calls) = (transcript step s calls).foldl change (view s) := by
  induction calls generalizing s with
  | nil => rfl
  | cons c cs ih => rw [after, transcript, List.foldl_cons, ih, hstep]

/-- Two systems that stay related answer the same, call by call, if the calls that the first one
passes over are left out for the second. -/
theorem transcript_filter {τ : Type} {f : σ → κ → α × σ} {g : τ → κ → α × τ} {R : σ → τ → Prop}
    {p : κ → Bool} {calls : List κ}
    (hkept : ∀ s t c, c ∈ calls → p c = true → R s t →
      (f s c).1 = (g t c).1 ∧ R (f s c).2 (g t c).2)
    (hpassed : ∀ s c, p c = false → (f s c).2 = s) {s : σ} {t : τ} (h : R s t) :
    (transcript f s calls).filter (fun e => p e.1) = transcript g t (calls.filter p) := by
  induction calls generalizing s t with
  | nil => rfl
  | cons c cs ih =>
    have hrest : ∀ s t c, c ∈ cs → p c = true → R s t →
        (f s c).1 = (g t c).1 ∧ R (f s c).2 (g t c).2 :=
      fun s t c hc => hkept s t c (List.mem_cons_of_mem _ hc)
    cases hp : p c with
    | true =>
      obtain ⟨hanswer, hnext⟩ := hkept s t c List.mem_cons_self hp h
      simp [transcript, hp, hanswer, ih hrest hnext]
    | false =>
      simp [transcript, hp, hpassed s c hp, ih hrest h]

end Run

end Rulebook
