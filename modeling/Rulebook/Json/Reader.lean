import Rulebook.Json.Text

/-!
# Reading JSON

A *reader* takes something from the front of a text and leaves a shorter text, or
stops at the first fault it meets.  A fault is either in the text, which is then
not JSON, or in the shape of what is written, which is then not what the reader
expects.  A reader stops at the first of either kind, so a value of the wrong
shape is reported as such even if the text is broken further on.

`value` reads any value, up to a number of nested arrays and objects.
`composite` reads members that have a name and a type each.  The object may have
more members, whose values are passed over by a lenient reader, but no known
member twice: the second name is the fault, whatever follows it.  The members may
also be written without their names, as an array in a fixed order.

`whole` wants nothing but blanks after what is read, and `leading` does not look
at what follows.
-/

namespace Rulebook

namespace Json

/-- What stops a reader. -/
inductive Fault where
  /-- The text is not JSON. -/
  | malformed
  /-- The text does not have the expected shape. -/
  | mismatch
  deriving DecidableEq

/-- What was read from the front of a text. -/
structure Read (α : Type) (cs : List Char) where
  /-- The value read. -/
  value : α
  /-- The text that is left. -/
  rest : List Char
  /-- Something was read. -/
  shorter : rest.length < cs.length

/-- A function that reads a value from the front of a text. -/
abbrev Reader (α : Type) := (cs : List Char) → Except Fault (Read α cs)

namespace Reader

variable {α β σ : Type}

/-- A reader whose value is changed. -/
def map (f : α → β) (r : Reader α) : Reader β := fun cs =>
  match r cs with
  | .error e => .error e
  | .ok x => .ok ⟨f x.value, x.rest, x.shorter⟩

/-- A reader whose value must have a form. -/
def filterMap (f : α → Option β) (r : Reader α) : Reader β := fun cs =>
  match r cs with
  | .error e => .error e
  | .ok x =>
    match f x.value with
    | none => .error .mismatch
    | some y => .ok ⟨y, x.rest, x.shorter⟩

/-- A reader that stops at once. -/
def fail (e : Fault) : Reader α := fun _ => .error e

/-- What a reader read, of a text that is longer at its front. -/
def widen {cs ds : List Char} (h : cs.length ≤ ds.length) (x : Read α cs) : Read α ds :=
  ⟨x.value, x.rest, Nat.lt_of_lt_of_le x.shorter h⟩

/-- A reader that first passes over blanks, and then goes by the first character. -/
def token (f : (c : Char) → (cs : List Char) → Except Fault (Read α (c :: cs))) : Reader α :=
  fun cs =>
    match h : skipSpace cs with
    | [] => .error .malformed
    | c :: rest =>
      match f c rest with
      | .error e => .error e
      | .ok x => .ok (widen (h ▸ length_skipSpace_le cs) x)

/-- What follows a given character. -/
def after (x : Read α cs) : Read α (c :: cs) := widen (Nat.le_succ _) x

/-- A character that must come next. -/
def char (c : Char) : Reader Unit :=
  token fun d cs => if d = c then .ok ⟨(), cs, Nat.lt_succ_self _⟩ else .error .malformed

/-! ## Words, strings and numbers -/

/-- The letters of a word, of which the first has been read. -/
def letters (ws : List Char) (value : α) (c : Char) (cs : List Char) :
    Except Fault (Read α (c :: cs)) :=
  if ws.isPrefixOf cs then
    .ok ⟨value, cs.drop ws.length, by simp only [List.length_drop, List.length_cons]; omega⟩
  else .error .malformed

/-- A string whose opening quote has been read. -/
def stringAfter (lenient : Bool) (c : Char) (cs : List Char) :
    Except Fault (Read String (c :: cs)) :=
  match h : readString? lenient cs with
  | none => .error .malformed
  | some (s, rest) =>
    .ok ⟨String.ofList s, rest, Nat.lt_succ_of_lt (length_lt_of_readString? h)⟩

/-- A number.  A lenient reader does not ask whether it is infinite. -/
def number (lenient : Bool) (cs : List Char) : Except Fault (Read Json cs) :=
  match h : Numeral.read? cs with
  | none => .error .malformed
  | some (n, rest) =>
    match n.toJson? with
    | some j => .ok ⟨j, rest, length_lt_of_read? h⟩
    | none => if lenient then .ok ⟨.null, rest, length_lt_of_read? h⟩ else .error .malformed

/-- The name of a member. -/
def name (lenient : Bool) : Reader String :=
  token fun c cs => if c = '"' then stringAfter lenient c cs else .error .malformed

/-! ## Arrays and objects -/

/-- One reader after another. -/
def andThen (r : Reader α) (f : α → Reader β) : Reader β := fun cs =>
  match r cs with
  | .error e => .error e
  | .ok x =>
    match f x.value x.rest with
    | .error e => .error e
    | .ok y => .ok (widen (Nat.le_of_lt x.shorter) y)

/-- The character that comes next. -/
def anyChar : Reader Char := token fun c cs => .ok ⟨c, cs, Nat.lt_succ_self _⟩

/-- The items of an array after its bracket or after a comma, and the closing bracket. -/
def items (item : Reader α) (cs : List Char) : Except Fault (Read (List α) cs) :=
  match item cs with
  | .error e => .error e
  | .ok x =>
    match anyChar x.rest with
    | .error e => .error e
    | .ok c =>
      if c.value = ',' then
        match items item c.rest with
        | .error e => .error e
        | .ok xs =>
          .ok ⟨x.value :: xs.value, xs.rest,
            Nat.lt_trans xs.shorter (Nat.lt_trans c.shorter x.shorter)⟩
      else if c.value = ']' then .ok ⟨[x.value], c.rest, Nat.lt_trans c.shorter x.shorter⟩
      else .error .malformed
termination_by cs.length
decreasing_by exact Nat.lt_trans c.shorter x.shorter

/-- The array whose opening bracket has been read. -/
def array (item : Reader α) (c : Char) (cs : List Char) :
    Except Fault (Read (List α) (c :: cs)) :=
  match anyChar cs with
  | .error e => .error e
  | .ok d =>
    if d.value = ']' then .ok ⟨[], d.rest, Nat.lt_succ_of_lt d.shorter⟩
    else
      match items item cs with
      | .error e => .error e
      | .ok xs => .ok (after xs)

/-- A reader that may be missing, where it is a fault to need it. -/
def expected (r : Option (Reader α)) (f : Reader α → Reader β) : Reader β :=
  match r with
  | none => fail .mismatch
  | some r => f r

/-- The members of an object after its brace or after a comma, and the closing brace.  Each member
changes what has been gathered from those before it.  A name that must not come any more has no
reader. -/
def members (lenient : Bool) (member : σ → String → Option (Reader σ)) (s : σ) (cs : List Char) :
    Except Fault (Read σ cs) :=
  match andThen (name lenient)
      (fun key => expected (member s key) fun r => andThen (char ':') fun _ => r) cs with
  | .error e => .error e
  | .ok x =>
    match anyChar x.rest with
    | .error e => .error e
    | .ok c =>
      if c.value = ',' then
        match members lenient member x.value c.rest with
        | .error e => .error e
        | .ok xs =>
          .ok ⟨xs.value, xs.rest, Nat.lt_trans xs.shorter (Nat.lt_trans c.shorter x.shorter)⟩
      else if c.value = '}' then .ok ⟨x.value, c.rest, Nat.lt_trans c.shorter x.shorter⟩
      else .error .malformed
termination_by cs.length
decreasing_by exact Nat.lt_trans c.shorter x.shorter

/-- The object whose opening brace has been read. -/
def object (lenient : Bool) (member : σ → String → Option (Reader σ)) (s : σ) (c : Char)
    (cs : List Char) : Except Fault (Read σ (c :: cs)) :=
  match anyChar cs with
  | .error e => .error e
  | .ok d =>
    if d.value = '}' then .ok ⟨s, d.rest, Nat.lt_succ_of_lt d.shorter⟩
    else
      match members lenient member s cs with
      | .error e => .error e
      | .ok xs => .ok (after xs)

/-! ## Any value -/

/-- Any value, where `inner` reads what stands in arrays and objects. -/
def valueOver (lenient : Bool) (inner : Option (Reader Json)) : Reader Json :=
  token fun c cs =>
    if c = 'n' then letters ['u', 'l', 'l'] .null c cs
    else if c = 't' then letters ['r', 'u', 'e'] (.bool true) c cs
    else if c = 'f' then letters ['a', 'l', 's', 'e'] (.bool false) c cs
    else if c = '"' then
      match stringAfter lenient c cs with
      | .error e => .error e
      | .ok x => .ok ⟨.string x.value, x.rest, x.shorter⟩
    else if c = '[' then
      match inner with
      | none => .error .malformed
      | some r =>
        match array r c cs with
        | .error e => .error e
        | .ok x => .ok ⟨.array x.value, x.rest, x.shorter⟩
    else if c = '{' then
      match inner with
      | none => .error .malformed
      | some r =>
        match object lenient
            (fun (s : List (String × Json)) key => some (map (fun j => (key, j) :: s) r))
            [] c cs with
        | .error e => .error e
        | .ok x => .ok ⟨.object x.value.reverse, x.rest, x.shorter⟩
    else number lenient (c :: cs)

/-- Any value with at most a number of arrays and objects inside one another. -/
def value (lenient : Bool) : Nat → Reader Json
  | 0 => valueOver lenient none
  | levels + 1 => valueOver lenient (some (value lenient levels))

/-- A value that is passed over.  Every level of nesting has a character of its own, so the length
of the text bounds them. -/
def skip : Reader Unit := fun cs => map (fun _ => ()) (value true cs.length) cs

/-! ## Values of a type -/

/-- A value of another shape than expected: what is wrong with it, as far as it is read. -/
def wrongShape (c : Char) (cs : List Char) : Except Fault (Read α (c :: cs)) :=
  if c = '[' ∨ c = '{' then .error .mismatch
  else
    match value false 0 (c :: cs) with
    | .error e => .error e
    | .ok _ => .error .mismatch

/-- A string. -/
def string : Reader String :=
  token fun c cs => if c = '"' then stringAfter false c cs else wrongShape c cs

/-- A truth value. -/
def bool : Reader Bool :=
  token fun c cs =>
    if c = 't' then letters ['r', 'u', 'e'] true c cs
    else if c = 'f' then letters ['a', 'l', 's', 'e'] false c cs
    else wrongShape c cs

/-- The word `null`, or a value. -/
def optional (r : Reader α) : Reader (Option α) :=
  token fun c cs =>
    if c = 'n' then letters ['u', 'l', 'l'] none c cs else map some r (c :: cs)

/-- An array of values. -/
def list (r : Reader α) : Reader (List α) :=
  token fun c cs => if c = '[' then array r c cs else wrongShape c cs

/-- An object with any names, its members in the order of the text. -/
def dictionary (r : Reader α) : Reader (List (String × α)) :=
  token fun c cs =>
    if c = '{' then
      match object false
          (fun (s : List (String × α)) key => some (map (fun x => (key, x) :: s) r)) [] c cs with
      | .error e => .error e
      | .ok x => .ok ⟨x.value.reverse, x.rest, x.shorter⟩
    else wrongShape c cs

/-! ## Structures -/

/-- The reader of a member that may occur once. -/
def once (slot : Option β) (r : Reader α) : Option (Reader α) :=
  if slot.isSome then none else some r

/-- The items that are left of a structure written as an array, and the closing bracket. -/
def positions : List (σ → Reader σ) → Bool → σ → Reader σ
  | [], _, s => map (fun _ => s) (char ']')
  | r :: rs, first, s => token fun c cs =>
    if c = ']' then .ok ⟨s, cs, Nat.lt_succ_self _⟩
    else if first then andThen (r s) (positions rs false) (c :: cs)
    else if c = ',' then
      match andThen (r s) (positions rs false) cs with
      | .error e => .error e
      | .ok x => .ok (after x)
    else .error .malformed

/-- A structure: an object with named members, or an array of them in order. -/
def composite (start : σ) (member : σ → String → Option (Reader σ)) (order : List (σ → Reader σ)) :
    Reader σ :=
  token fun c cs =>
    if c = '{' then object false member start c cs
    else if c = '[' then
      match positions order true start cs with
      | .error e => .error e
      | .ok x => .ok (after x)
    else wrongShape c cs

/-! ## Texts -/

/-- What a reader reads from the front of a text, whatever follows. -/
def leading (r : Reader α) (text : String) : Except Fault α :=
  match r text.toList with
  | .error e => .error e
  | .ok x => .ok x.value

/-- What a reader reads from a text, if nothing but blanks follows. -/
def whole (r : Reader α) (text : String) : Except Fault α :=
  match r text.toList with
  | .error e => .error e
  | .ok x => if (skipSpace x.rest).isEmpty then .ok x.value else .error .malformed

end Reader

/-- The number of arrays and objects that may stand inside one another. -/
def maxNesting : Nat := 127

/-- The value of a text. -/
def parse? (text : String) : Option Json :=
  (Reader.whole (Reader.value false maxNesting) text).toOption

example : (parse? " [1, \x7b\"a\": -0.5e1\x7d] ").map compact = some "[1,\x7b\"a\":-5.0\x7d]" := by
  decide +kernel
example : (parse? "[1,]").map compact = none := by decide +kernel
example : (parse? "01").map compact = none := by decide +kernel
example : (parse? "\"\\ud83d\\ude00\"").map compact = some "\"😀\"" := by decide +kernel

end Json

end Rulebook
