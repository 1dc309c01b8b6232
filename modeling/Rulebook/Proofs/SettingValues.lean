import Rulebook.Proofs.LiteralCase
import Rulebook.Proofs.SettingTree

/-!
# Values of settings

The settings of a layer have under each name the value that the raw value there is, or their own
value if there is none (`Settings.GivenBy`).  A layer gives settings if every raw value goes in
where it stands (`Settings.exists_ofLayer_eq_ok_iff`), and else the error names one that does not
(`Settings.exists_of_ofLayer_eq_error`).

The kind and the folder of a storage have a key each, although they are one setting.  So there is a
name for each of the seven keys (`Settings.Key`), and what is proved of a layer is proved for all of
them: a raw value at a key is read as the value of the settings (`Settings.GivenBy.read?_eq`), and a
key without one has its own value (`Settings.GivenBy.text?_own`).
-/

namespace Rulebook

/-! ## Storages -/

/-- The name of the kind of a storage. -/
def Storage.name : Storage → String
  | .memory => "memory"
  | .folder _ => "filesystem"

/-- The folder of a storage, if it is one. -/
def Storage.path? : Storage → Option String
  | .memory => none
  | .folder path => some path

/-- The values that say where a storage of a name is. -/
theorem Storage.of_ofName? {name : String} {paths : List (Option String)} {storage : Storage}
    (h : Storage.ofName? name paths = some storage) : storage.name = name ∧
      ∀ path, storage.path? = some path →
        paths = [] ∧ path = Storage.defaultPath ∨ paths = [some path] := by
  unfold ofName? at h
  split at h
  next hname =>
    cases h
    exact ⟨hname.symm, nofun⟩
  next =>
    split at h
    next hname =>
      split at h
      next =>
        cases h
        exact ⟨hname.symm, fun path hpath => .inl ⟨rfl, (Option.some_inj.mp hpath).symm⟩⟩
      next path =>
        cases h
        exact ⟨hname.symm, fun path' hpath => .inr (by rw [Option.some_inj.mp hpath])⟩
      next => cases h
    next => cases h

namespace Setting

open Rulebook.Digits (digits)
open Rulebook.Text (isDigit lowered)

theorem toStorage?_table_eq_some_iff {es : List (String × Setting)} {storage : Storage} :
    (Setting.table es).toStorage? = some storage ↔
      ∃ name, Entries.lookup "type" es = some (.text name) ∧
        Storage.ofName? name ((Entries.lookup "path" es).toList.map exactText?) = some storage := by
  rw [toStorage?]
  split
  next name hname =>
    rw [hname]
    exact ⟨fun h => ⟨name, rfl, h⟩, fun ⟨_, heq, h⟩ => by cases heq; exact h⟩
  next hnot => exact ⟨nofun, fun ⟨name, heq, _⟩ => absurd heq (hnot name)⟩

/-! ## Values in variables -/

theorem real?_ne_table (cs : List Char) (es : List (String × Setting)) :
    real? cs ≠ some (.table es) := by
  rw [real?]
  split
  · split <;> exact nofun
  · dsimp only
    split
    · exact nofun
    · split <;> exact nofun

theorem lowered_digits (n : Nat) :
    lowered (String.ofList (digits n)) = String.ofList (digits n) := by
  rw [lowered, String.toList_ofList]
  refine congrArg String.ofList (Text.lowerAfter_of_settled [] fun c hc => ?_)
  have hdigit := Digits.all_isDigit_digits n c hc
  refine Text.settled_of_fixed (lowerChar_of_isDigit hdigit) ?_
  rintro rfl
  exact absurd hdigit (by decide)

theorem lowered_digits_ne {n : Nat} {word : String} {c : Char} (hc : c ∈ word.toList)
    (hdigit : isDigit c = false) : lowered (String.ofList (digits n)) ≠ word := by
  rw [lowered_digits]
  rintro rfl
  rw [String.toList_ofList] at hc
  rw [Digits.all_isDigit_digits n c hc] at hdigit
  cases hdigit

/-- The digits of a port are its number. -/
theorem ofVariable_digits (port : UInt16) :
    ofVariable (String.ofList (digits port.toNat)) = .whole (Int64.ofInt port.toNat) := by
  have hread : Decimal.readInt? (digits port.toNat) = some (port.toNat : Int) := by
    rw [Decimal.readInt?_digits (Digits.digits_ne_nil _) (Digits.all_isDigit_digits _),
      Digits.value_digits]
  have hwhole : whole? (digits port.toNat) = some (.whole (Int64.ofInt port.toNat)) := by
    rw [whole?, hread, Option.bind_some, wholeOf?_natCast, if_pos, Option.map_some]
    exact Nat.lt_trans port.toNat_lt (by decide)
  rw [ofVariable, if_neg (lowered_digits_ne (c := 't') (by decide) (by decide)),
    if_neg (lowered_digits_ne (c := 'f') (by decide) (by decide)), number?,
    String.toList_ofList, hwhole]
  rfl

theorem toPort?_whole (port : UInt16) :
    (Setting.whole (Int64.ofInt port.toNat)).toPort? = some port := by
  have hlt := port.toNat_lt
  rw [toPort?, toNatural?, toInt_ofInt_natCast (Nat.lt_trans hlt (by decide)),
    if_pos (Int.natCast_nonneg _), Int.toNat_natCast, Option.bind_some, if_pos hlt,
    UInt16.ofNat_toNat]

/-- What a variable has is no table. -/
theorem ofVariable_ne_table (s : String) (es : List (String × Setting)) :
    ofVariable s ≠ .table es := by
  rw [ofVariable]
  split
  · exact nofun
  split
  · exact nofun
  rw [number?]
  cases hwhole : whole? s.toList with
  | some v =>
    obtain ⟨i, -, rfl⟩ := Option.map_eq_some_iff.mp hwhole
    exact nofun
  | none =>
    cases hreal : real? s.toList with
    | none => exact nofun
    | some v =>
      rintro rfl
      exact real?_ne_table _ es hreal

end Setting

namespace Settings

open Setting (at? at?_single at?_pair)

/-! ## Settings of a layer -/

section

variable {ε α β : Type} {x : Except ε α} {f : α → Except ε β}

theorem bind_eq_ok {b : β} : x >>= f = .ok b ↔ ∃ a, x = .ok a ∧ f a = .ok b := by
  cases x with
  | ok a => exact ⟨fun h => ⟨a, rfl, h⟩, fun ⟨_, rfl, h⟩ => h⟩
  | error e => exact ⟨nofun, nofun⟩

theorem bind_eq_error {e : ε} :
    x >>= f = .error e ↔ x = .error e ∨ ∃ a, x = .ok a ∧ f a = .error e := by
  cases x with
  | ok a => exact ⟨fun h => .inr ⟨a, rfl, h⟩, fun h => h.elim nofun fun ⟨_, rfl, h⟩ => h⟩
  | error e' =>
    constructor
    · intro h
      cases h
      exact .inl rfl
    · rintro (h | ⟨a, h, -⟩)
      · cases h
        rfl
      · cases h

end

section

variable {α : Type} {layer : List (String × Setting)} {name : String} {convert : Setting → Option α}
  {own : α}

theorem valueAt_eq : valueAt layer name convert own =
    ((Entries.lookup name layer).elim (some own) convert).elim (.error ⟨name⟩) .ok := by
  rw [valueAt]
  cases Entries.lookup name layer with
  | none => rfl
  | some v =>
    dsimp only [Option.elim_some]
    cases convert v <;> rfl

theorem valueAt_eq_ok_iff {a : α} : valueAt layer name convert own = .ok a ↔
    (Entries.lookup name layer).elim (some own) convert = some a := by
  rw [valueAt_eq]
  cases (Entries.lookup name layer).elim (some own) convert with
  | none => exact ⟨nofun, nofun⟩
  | some a' => rw [Option.elim_some, Except.ok.injEq, Option.some_inj]

end

/-- The names at the top of a layer, each with what goes in there. -/
def checks : List (String × (Setting → Bool)) :=
  [("host", fun v => v.toText?.isSome), ("port", fun v => v.toPort?.isSome),
    ("repository", fun v => v.toStorage?.isSome), ("log_level", fun v => v.toText?.isSome),
    ("log_format", fun v => v.toFormat?.isSome), ("record_evaluations", fun v => v.toFlag?.isSome)]

/-- Settings as a layer gives them. -/
structure GivenBy (s : Settings) (layer : List (String × Setting)) : Prop where
  /-- The host. -/
  host : (Entries.lookup "host" layer).elim (some ({} : Settings).host) Setting.toText? =
    some s.host
  /-- The port. -/
  port : (Entries.lookup "port" layer).elim (some ({} : Settings).port) Setting.toPort? =
    some s.port
  /-- The storage. -/
  storage : (Entries.lookup "repository" layer).elim (some ({} : Settings).storage)
    Setting.toStorage? = some s.storage
  /-- The level of the log. -/
  logLevel : (Entries.lookup "log_level" layer).elim (some ({} : Settings).logLevel)
    Setting.toText? = some s.logLevel
  /-- How the log is written. -/
  logFormat : (Entries.lookup "log_format" layer).elim (some ({} : Settings).logFormat)
    Setting.toFormat? = some s.logFormat
  /-- Whether evaluations are noted. -/
  recordEvaluations : (Entries.lookup "record_evaluations" layer).elim
    (some ({} : Settings).recordEvaluations) Setting.toFlag? = some s.recordEvaluations

theorem ofLayer_eq_ok_iff {layer : List (String × Setting)} {s : Settings} :
    ofLayer layer = .ok s ↔ s.GivenBy layer := by
  simp only [ofLayer, bind_eq_ok, valueAt_eq_ok_iff]
  constructor
  · rintro ⟨_, hhost, _, hport, _, hstorage, _, hlevel, _, hformat, _, hrecord, heq⟩
    cases heq
    exact ⟨hhost, hport, hstorage, hlevel, hformat, hrecord⟩
  · rintro ⟨hhost, hport, hstorage, hlevel, hformat, hrecord⟩
    exact ⟨_, hhost, _, hport, _, hstorage, _, hlevel, _, hformat, _, hrecord, rfl⟩

theorem exists_of_valueAt_eq_error {α : Type} {layer : List (String × Setting)} {name : String}
    {convert : Setting → Option α} {own : α} {e : SettingError}
    (hcheck : (name, fun v => (convert v).isSome) ∈ checks)
    (h : valueAt layer name convert own = .error e) :
    ∃ check ∈ checks, check.1 = e.name ∧
      ∃ v, Entries.lookup check.1 layer = some v ∧ check.2 v = false := by
  rw [valueAt_eq] at h
  cases hv : Entries.lookup name layer with
  | none =>
    rw [hv] at h
    cases h
  | some v =>
    rw [hv, Option.elim_some] at h
    cases hnone : convert v with
    | none =>
      rw [hnone] at h
      cases h
      refine ⟨_, hcheck, rfl, v, hv, ?_⟩
      dsimp only
      rw [hnone, Option.isSome_none]
    | some a =>
      rw [hnone] at h
      cases h

/-- An error names a value that does not go in where it stands. -/
theorem exists_of_ofLayer_eq_error {layer : List (String × Setting)} {e : SettingError}
    (h : ofLayer layer = .error e) :
    ∃ check ∈ checks, check.1 = e.name ∧
      ∃ v, Entries.lookup check.1 layer = some v ∧ check.2 v = false := by
  simp only [ofLayer, bind_eq_error] at h
  rcases h with h | ⟨_, -, h | ⟨_, -, h | ⟨_, -, h | ⟨_, -, h | ⟨_, -, h | ⟨_, -, h⟩⟩⟩⟩⟩⟩
  case inr => cases h
  all_goals exact exists_of_valueAt_eq_error (by simp [checks]) h

section

variable {α : Type} {v? : Option Setting} {own : Option α} {convert : Setting → Option α} {a : α}

theorem of_elim_eq_some (h : v?.elim own convert = some a) {v : Setting} (hv : v? = some v) :
    convert v = some a := by
  rwa [hv, Option.elim_some] at h

theorem of_elim_eq_none {own : α} (h : v?.elim (some own) convert = some a) (hv : v? = none) :
    own = a := by
  rw [hv] at h
  exact Option.some_inj.mp h

theorem isSome_of_elim_eq_some (h : v?.elim own convert = some a) {v : Setting}
    (hv : v? = some v) : (convert v).isSome = true :=
  Option.isSome_of_eq_some (of_elim_eq_some h hv)

end

theorem exists_ofLayer_eq_ok_iff {layer : List (String × Setting)} :
    (∃ s, ofLayer layer = .ok s) ↔
      ∀ check ∈ checks, ∀ v, Entries.lookup check.1 layer = some v → check.2 v = true := by
  constructor
  · rintro ⟨s, hs⟩
    have hgiven := ofLayer_eq_ok_iff.mp hs
    simp only [checks, List.forall_mem_cons]
    exact ⟨fun _ => isSome_of_elim_eq_some hgiven.host, fun _ => isSome_of_elim_eq_some hgiven.port,
      fun _ => isSome_of_elim_eq_some hgiven.storage,
      fun _ => isSome_of_elim_eq_some hgiven.logLevel,
      fun _ => isSome_of_elim_eq_some hgiven.logFormat,
      fun _ => isSome_of_elim_eq_some hgiven.recordEvaluations, nofun⟩
  · intro hchecks
    cases hlayer : ofLayer layer with
    | ok s => exact ⟨s, rfl⟩
    | error e =>
      obtain ⟨check, hcheck, -, v, hv, hfalse⟩ := exists_of_ofLayer_eq_error hlayer
      rw [hchecks check hcheck v hv] at hfalse
      cases hfalse

theorem GivenBy.storage_cases {layer : List (String × Setting)} {s : Settings}
    (h : s.GivenBy layer) :
    at? ["repository"] (.table layer) = none ∧
      s.storage = ({} : Settings).storage ∨
    (∃ items, at? ["repository"] (.table layer) = some (.list items)) ∨
    ∃ es name, at? ["repository"] (.table layer) = some (.table es) ∧
      Entries.lookup "type" es = some (.text name) ∧
      Storage.ofName? name ((Entries.lookup "path" es).toList.map Setting.exactText?) =
        some s.storage := by
  rw [at?_single, Setting.entries]
  have hs := h.storage
  cases hw : Entries.lookup "repository" layer with
  | none => exact .inl ⟨rfl, (of_elim_eq_none hs hw).symm⟩
  | some w =>
    have hw' := of_elim_eq_some hs hw
    cases w with
    | list items => exact .inr (.inl ⟨items, rfl⟩)
    | table es =>
      obtain ⟨name, hname, hof⟩ := Setting.toStorage?_table_eq_some_iff.mp hw'
      exact .inr (.inr ⟨es, name, rfl, hname, hof⟩)
    | _ => cases hw'

/-! ## Keys -/

/-- The settings that have a key. -/
inductive Key where
  /-- The host to listen at. -/
  | host
  /-- The port to listen at. -/
  | port
  /-- The kind of storage. -/
  | storageName
  /-- The folder of the storage. -/
  | storagePath
  /-- The level of the log. -/
  | logLevel
  /-- How the log is written. -/
  | logFormat
  /-- Whether evaluations are noted. -/
  | recordEvaluations
  deriving DecidableEq

namespace Key

/-- The names that lead to the value of a key. -/
def names : Key → List String
  | .host => ["host"]
  | .port => ["port"]
  | .storageName => ["repository", "type"]
  | .storagePath => ["repository", "path"]
  | .logLevel => ["log_level"]
  | .logFormat => ["log_format"]
  | .recordEvaluations => ["record_evaluations"]

/-- The text of the value that settings have at a key, if they have one. -/
def text? : Key → Settings → Option String
  | .host, s => some s.host
  | .port, s => some (String.ofList (Digits.digits s.port.toNat))
  | .storageName, s => some s.storage.name
  | .storagePath, s => s.storage.path?
  | .logLevel, s => some s.logLevel
  | .logFormat, s => some s.logFormat.name
  | .recordEvaluations, s => some (if s.recordEvaluations then "true" else "false")

/-- The text of the value that a raw value is at a key, if it goes in there. -/
def read? : Key → Setting → Option String
  | .host, v | .logLevel, v => v.toText?
  | .port, v => v.toPort?.map fun port => String.ofList (Digits.digits port.toNat)
  | .storageName, v | .storagePath, v => v.exactText?
  | .logFormat, v => v.toFormat?.map LogFormat.name
  | .recordEvaluations, v => v.toFlag?.map fun b => if b then "true" else "false"

/-- Whether any text is a value of a key. -/
def isFree : Key → Bool
  | .host | .storagePath | .logLevel => true
  | _ => false

end Key

/-! ## Values at keys -/

section

variable {layer : List (String × Setting)} {s : Settings} {key : Key} {text : String}

/-- The value at a key of a layer goes in there and is that of the settings. -/
theorem GivenBy.read?_eq (h : s.GivenBy layer) {v : Setting}
    (hv : at? key.names (.table layer) = some v) (ht : key.text? s = some text) :
    key.read? v = some text := by
  cases key with
  | host =>
    rw [Key.names, at?_single] at hv
    rwa [Key.read?, of_elim_eq_some h.host hv]
  | port =>
    rw [Key.names, at?_single] at hv
    rwa [Key.read?, of_elim_eq_some h.port hv]
  | storageName =>
    rw [Key.names, at?_pair] at hv
    obtain ⟨hw, -⟩ | ⟨items, hw⟩ | ⟨es, name, hw, hname, hof⟩ := h.storage_cases
    all_goals rw [hw] at hv
    · cases hv
    · cases hv
    · cases hname.symm.trans hv
      rwa [Key.text?, (Storage.of_ofName? hof).1] at ht
  | storagePath =>
    rw [Key.names, at?_pair] at hv
    obtain ⟨hw, -⟩ | ⟨items, hw⟩ | ⟨es, name, hw, -, hof⟩ := h.storage_cases
    all_goals rw [hw] at hv
    · cases hv
    · cases hv
    · rw [Option.bind_some, Setting.entries] at hv
      rw [hv] at hof
      obtain ⟨hnil, -⟩ | hone := (Storage.of_ofName? hof).2 text ht
      · cases hnil
      · exact List.singleton_inj.mp hone
  | logLevel =>
    rw [Key.names, at?_single] at hv
    rwa [Key.read?, of_elim_eq_some h.logLevel hv]
  | logFormat =>
    rw [Key.names, at?_single] at hv
    rwa [Key.read?, of_elim_eq_some h.logFormat hv]
  | recordEvaluations =>
    rw [Key.names, at?_single] at hv
    rwa [Key.read?, of_elim_eq_some h.recordEvaluations hv]

/-- A key without a value in a layer has its own value in the settings, unless the storage is a
list. -/
theorem GivenBy.text?_own (h : s.GivenBy layer) (hv : at? key.names (.table layer) = none)
    (hlist : ∀ items, at? key.names.dropLast (.table layer) ≠ some (.list items))
    (ht : key.text? s = some text) : key.text? {} = some text := by
  cases key with
  | host =>
    rw [Key.names, at?_single] at hv
    rwa [Key.text?, ← of_elim_eq_none h.host hv] at ht
  | port =>
    rw [Key.names, at?_single] at hv
    rwa [Key.text?, ← of_elim_eq_none h.port hv] at ht
  | storageName =>
    rw [Key.names, at?_pair] at hv
    obtain ⟨-, hown⟩ | ⟨items, hw⟩ | ⟨es, name, hw, hname, -⟩ := h.storage_cases
    · rwa [Key.text?, hown] at ht
    · exact absurd hw (hlist items)
    · rw [hw] at hv
      cases hname.symm.trans hv
  | storagePath =>
    rw [Key.names, at?_pair] at hv
    obtain ⟨-, hown⟩ | ⟨items, hw⟩ | ⟨es, name, hw, -, hof⟩ := h.storage_cases
    · rwa [Key.text?, hown] at ht
    · exact absurd hw (hlist items)
    · rw [hw, Option.bind_some, Setting.entries] at hv
      rw [hv] at hof
      obtain ⟨-, rfl⟩ | hone := (Storage.of_ofName? hof).2 text ht
      · rfl
      · cases hone
  | logLevel =>
    rw [Key.names, at?_single] at hv
    rwa [Key.text?, ← of_elim_eq_none h.logLevel hv] at ht
  | logFormat =>
    rw [Key.names, at?_single] at hv
    rwa [Key.text?, ← of_elim_eq_none h.logFormat hv] at ht
  | recordEvaluations =>
    rw [Key.names, at?_single] at hv
    rwa [Key.text?, ← of_elim_eq_none h.recordEvaluations hv] at ht

/-- No settings have a storage with a folder but without a kind. -/
theorem GivenBy.exists_storageName (h : s.GivenBy layer) {v : Setting}
    (hv : at? Key.storagePath.names (.table layer) = some v) :
    ∃ w, at? Key.storageName.names (.table layer) = some w := by
  rw [Key.names, at?_pair] at hv
  rw [Key.names, at?_pair]
  obtain ⟨hw, -⟩ | ⟨items, hw⟩ | ⟨es, name, hw, hname, -⟩ := h.storage_cases
  all_goals rw [hw] at hv ⊢
  · cases hv
  · cases hv
  · exact ⟨_, hname⟩

/-- The text of a value of a key is read as the value, if it is not taken for a number or a truth
value where any text may stand. -/
theorem Key.read?_ofVariable (ht : key.text? s = some text)
    (hfree : key.isFree = true → Setting.ofVariable text = .text text) :
    key.read? (.ofVariable text) = some text := by
  cases key with
  | host | storagePath | logLevel =>
    rw [hfree rfl]
    rfl
  | port =>
    cases ht
    rw [read?, Setting.ofVariable_digits, Setting.toPort?_whole, Option.map_some]
  | storageName =>
    cases ht
    cases s.storage with
    | memory => decide +kernel
    | folder path =>
      change Key.storageName.read? (.ofVariable "filesystem") = some "filesystem"
      decide +kernel
  | logFormat =>
    cases ht
    cases s.logFormat <;> decide +kernel
  | recordEvaluations =>
    cases ht
    cases s.recordEvaluations <;> decide +kernel

end

end Settings

end Rulebook
