import Rulebook.Proofs.JsonText

/-!
# What JSON texts hold

`Ensures` says of a result that it has a property, if anything was read.  It goes through the
readers one by one, and a property of numbers that arrays and objects keep is a property of
every value (`ensures_value`).

A whole number that is read has at most 64 bits, with or without sign, and so have the whole
numbers inside an array or an object (`fits_of_parse?`).  `Within` is the relation of a value
to the arrays and objects that it stands in.
-/

namespace Rulebook.Json

namespace Reader

variable {α β σ : Type} {P : α → Prop} {Q : β → Prop} {cs : List Char}

/-- Whether what was read has a property, if anything was read. -/
def Ensures (P : α → Prop) : Except Fault (Read α cs) → Prop
  | .error _ => True
  | .ok x => P x.value

theorem Ensures.of_ok {x : Except Fault (Read α cs)} {y : Read α cs} (h : Ensures P x)
    (hx : x = .ok y) : P y.value := by
  rw [hx] at h
  exact h

/-! ## Readers -/

theorem ensures_token {f : (c : Char) → (cs : List Char) → Except Fault (Read α (c :: cs))}
    (h : ∀ c cs, Ensures P (f c cs)) (cs : List Char) : Ensures P (token f cs) := by
  rw [token]
  split
  case h_1 => trivial
  case h_2 c rest _ =>
    split
    case h_1 => trivial
    case h_2 x hx => exact (h c rest).of_ok hx

theorem ensures_map {r : Reader α} {f : α → β} (h : Ensures P (r cs))
    (hf : ∀ v, P v → Q (f v)) : Ensures Q (map f r cs) := by
  rw [map]
  split
  case h_1 => trivial
  case h_2 x hx => exact hf x.value (h.of_ok hx)

theorem ensures_andThen {r : Reader α} {f : α → Reader β} (hf : ∀ v cs, Ensures Q (f v cs))
    (cs : List Char) : Ensures Q (andThen r f cs) := by
  rw [andThen]
  split
  case h_1 => trivial
  case h_2 x _ =>
    split
    case h_1 => trivial
    case h_2 y hy => exact (hf x.value x.rest).of_ok hy

theorem ensures_expected {r : Option (Reader α)} {f : Reader α → Reader β}
    (h : ∀ r', r = some r' → ∀ cs, Ensures Q (f r' cs)) (cs : List Char) :
    Ensures Q (expected r f cs) := by
  cases r with
  | none => trivial
  | some r => exact h r rfl cs

/-! ## Arrays and objects -/

/-- All items of an array have the property that is ensured for one. -/
theorem ensures_items {item : Reader α} (h : ∀ cs, Ensures P (item cs)) (cs : List Char) :
    Ensures (fun vs => ∀ v ∈ vs, P v) (items item cs) := by
  rw [items]
  split
  case h_1 => trivial
  case h_2 x hx =>
    have hitem := (h cs).of_ok hx
    split
    case h_1 => trivial
    case h_2 c _ =>
      have hless : c.rest.length < cs.length := Nat.lt_trans c.shorter x.shorter
      split
      case isTrue =>
        split
        case h_1 => trivial
        case h_2 xs hxs =>
          exact List.forall_mem_cons.mpr ⟨hitem, (ensures_items h c.rest).of_ok hxs⟩
      case isFalse =>
        split
        case isTrue => exact List.forall_mem_singleton.mpr hitem
        case isFalse => trivial
termination_by cs.length
decreasing_by exact hless

theorem ensures_array {item : Reader α} (h : ∀ cs, Ensures P (item cs)) (c : Char)
    (cs : List Char) : Ensures (fun vs => ∀ v ∈ vs, P v) (array item c cs) := by
  rw [array]
  split
  case h_1 => trivial
  case h_2 d _ =>
    split
    case isTrue => exact fun v hv => absurd hv List.not_mem_nil
    case isFalse =>
      split
      case h_1 => trivial
      case h_2 xs hxs => exact (ensures_items h cs).of_ok hxs

variable {lenient : Bool} {member : σ → String → Option (Reader σ)} {I : σ → Prop}

/-- What has been gathered from members has the property that every member keeps. -/
theorem ensures_members {s : σ}
    (h : ∀ s key r, I s → member s key = some r → ∀ cs, Ensures I (r cs)) (hs : I s)
    (cs : List Char) : Ensures I (members lenient member s cs) := by
  have hentry : Ensures I (andThen (name lenient)
      (fun key => expected (member s key) fun r => andThen (char ':') fun _ => r) cs) :=
    ensures_andThen (fun key => ensures_expected fun r hr =>
      ensures_andThen fun _ => h s key r hs hr) cs
  rw [members]
  split
  case h_1 => trivial
  case h_2 x hx =>
    have hgathered := hentry.of_ok hx
    split
    case h_1 => trivial
    case h_2 c _ =>
      have hless : c.rest.length < cs.length := Nat.lt_trans c.shorter x.shorter
      split
      case isTrue =>
        split
        case h_1 => trivial
        case h_2 xs hxs => exact (ensures_members h hgathered c.rest).of_ok hxs
      case isFalse =>
        split
        case isTrue => exact hgathered
        case isFalse => trivial
termination_by cs.length
decreasing_by exact hless

theorem ensures_object {s : σ}
    (h : ∀ s key r, I s → member s key = some r → ∀ cs, Ensures I (r cs)) (hs : I s) (c : Char)
    (cs : List Char) : Ensures I (object lenient member s c cs) := by
  rw [object]
  split
  case h_1 => trivial
  case h_2 d _ =>
    split
    case isTrue => exact hs
    case isFalse =>
      split
      case h_1 => trivial
      case h_2 xs hxs => exact (ensures_members h hs cs).of_ok hxs

end Reader

/-! ## Values -/

theorem fitAll_iff {js : List Json} : FitAll js ↔ ∀ j ∈ js, j.Fits := by
  induction js with
  | nil => simp [FitAll]
  | cons j js ih => simp [FitAll, ih]

theorem fitMembers_iff {ms : List (String × Json)} : FitMembers ms ↔ ∀ m ∈ ms, m.2.Fits := by
  induction ms with
  | nil => simp [FitMembers]
  | cons m ms ih => simp [FitMembers, ih]

/-- What is kept whole has at most 64 bits. -/
theorem fits_of_toJson? {n : Numeral} {j : Json} (h : n.toJson? = some j) : j.Fits := by
  rw [Numeral.toJson?] at h
  cases hi : n.integer? with
  | none =>
    simp only [hi] at h
    split at h
    case isTrue =>
      cases h
      trivial
    case isFalse => cases h
  | some i =>
    simp only [hi, Option.some.injEq] at h
    subst h
    simp only [Numeral.integer?] at hi
    split at hi
    case isTrue => cases hi
    case isFalse =>
      split at hi <;> split at hi
      all_goals simp only [Option.some.injEq, reduceCtorEq] at hi
      all_goals
        rw [Fits]
        omega

namespace Reader

variable {lenient : Bool} {cs : List Char}

theorem ensures_number : Ensures Fits (number lenient cs) := by
  rw [number]
  split
  case h_1 => trivial
  case h_2 =>
    split
    case h_1 hj => exact fits_of_toJson? hj
    case h_2 =>
      split
      case isTrue => trivial
      case isFalse => trivial

/-- The numbers of a value fit, if those inside its arrays and objects do. -/
theorem ensures_valueOver {inner : Option (Reader Json)}
    (h : ∀ r, inner = some r → ∀ cs, Ensures Fits (r cs)) (cs : List Char) :
    Ensures Fits (valueOver lenient inner cs) := by
  refine ensures_token (fun c cs => ?_) cs
  have hletters {ws : List Char} {j : Json} (hj : j.Fits) : Ensures Fits (letters ws j c cs) := by
    rw [letters]
    split
    case isTrue => exact hj
    case isFalse => trivial
  split
  case isTrue => exact hletters trivial
  split
  case isTrue => exact hletters trivial
  split
  case isTrue => exact hletters trivial
  split
  case isTrue =>
    split
    case h_1 => trivial
    case h_2 => trivial
  split
  case isTrue =>
    split
    case h_1 => trivial
    case h_2 r =>
      split
      case h_1 => trivial
      case h_2 x hx => exact fitAll_iff.mpr ((ensures_array (h r rfl) c cs).of_ok hx)
  split
  case isTrue =>
    split
    case h_1 => trivial
    case h_2 r =>
      have hmember : ∀ (s : List (String × Json)) key r',
          (∀ m ∈ s, m.2.Fits) → some (map (fun j => (key, j) :: s) r) = some r' →
          ∀ cs, Ensures (fun s : List (String × Json) => ∀ m ∈ s, m.2.Fits) (r' cs) := by
        intro s key r' hs hr cs
        cases hr
        exact ensures_map (h r rfl cs) fun j hj => List.forall_mem_cons.mpr ⟨hj, hs⟩
      have hnone : ∀ m ∈ ([] : List (String × Json)), m.2.Fits :=
        fun m hm => absurd hm List.not_mem_nil
      split
      case h_1 => trivial
      case h_2 x hx =>
        have hgathered := (ensures_object hmember hnone c cs).of_ok hx
        exact fitMembers_iff.mpr fun m hm => hgathered m (List.mem_reverse.mp hm)
  case isFalse => exact ensures_number

theorem ensures_value (levels : Nat) : ∀ cs, Ensures Fits (value lenient levels cs) := by
  induction levels with
  | zero => exact ensures_valueOver (fun r hr => nomatch hr)
  | succ levels ih =>
    refine ensures_valueOver fun r hr => ?_
    cases hr
    exact ih

end Reader

/-- The whole numbers of a text have at most 64 bits, with or without sign. -/
theorem fits_of_parse? {text : String} {j : Json} (h : parse? text = some j) : j.Fits := by
  rw [parse?, Reader.whole] at h
  split at h
  case h_1 => cases h
  case h_2 x hx =>
    split at h
    case isTrue =>
      cases h
      exact (Reader.ensures_value maxNesting text.toList).of_ok hx
    case isFalse => cases h

/-! ## Parts -/

/-- Whether a value is another one or stands in one of its arrays and objects. -/
inductive Within : Json → Json → Prop where
  /-- The value itself. -/
  | self (j : Json) : Within j j
  /-- An item of an array, or a part of one. -/
  | item {part j : Json} {items : List Json} (hj : j ∈ items) (h : Within part j) :
      Within part (.array items)
  /-- The value of a member of an object, or a part of one. -/
  | member {part j : Json} {key : String} {members : List (String × Json)}
      (hj : (key, j) ∈ members) (h : Within part j) : Within part (.object members)

theorem Within.fits {part j : Json} (h : part.Within j) (hj : j.Fits) : part.Fits := by
  induction h with
  | self => exact hj
  | item hmem _ ih => exact ih (fitAll_iff.mp hj _ hmem)
  | member hmem _ ih => exact ih (fitMembers_iff.mp hj _ hmem)

end Rulebook.Json
