import Rulebook.Number.Decimal
import Rulebook.Number.Power
import Rulebook.Yaml.Plain
import Rulebook.Yaml.Quoted

/-!
# Writing YAML scalars

A text is written so that it reads as itself, in the first form that can be.

A text with a newline is a block scalar.  Any other text is a plain scalar.  It
stands in single quotes if a plain scalar would be taken for a number, a truth value
or nothing, or if it has a character that means something where it is.  It stands in
double quotes, with escapes, if it has characters that cannot be written at all or
spaces that would be lost where a line ends.

Lines are indented by two spaces.  The first edition reads what is written here.
-/

namespace Rulebook

namespace Yaml

/-! ## What a plain scalar would be taken for -/

/-- The words that stand for nothing, for a truth value or for a number beyond all others. -/
def words : List String :=
  ["", "~", "null", "Null", "NULL", "true", "True", "TRUE", "false", "False", "FALSE",
    ".inf", ".Inf", ".INF", "+.inf", "+.Inf", "+.INF", "-.inf", "-.Inf", "-.INF",
    ".nan", ".NaN", ".NAN"]

/-- The number that digits of a base make. -/
def basedNumber? (base : Nat) (digits : List Char) : Option Nat :=
  match digits.mapM hexValue? with
  | none | some [] => none
  | some vs => if vs.all (· < base) then some (vs.foldl (fun n v => base * n + v) 0) else none

/-- The number of a text that tells its base. -/
def baseAndNumber? : List Char → Option Nat
  | '0' :: 'x' :: cs => basedNumber? 16 cs
  | '0' :: 'o' :: cs => basedNumber? 8 cs
  | '0' :: 'b' :: cs => basedNumber? 2 cs
  | _ => none

/-- Whether a text is a whole number of 128 bits that tells its base. -/
def isBased : List Char → Bool
  | '-' :: cs => (baseAndNumber? cs).any (· ≤ pow2 127)
  | '+' :: cs => (baseAndNumber? cs).any (· < pow2 128)
  | cs => (baseAndNumber? cs).any (· < pow2 128)

/-- Whether a text is nothing but digits, the first of them a zero, after a sign or without one.  It
looks like a number however great it is. -/
def isPadded (cs : List Char) : Bool :=
  let digits := (Decimal.readSign cs).2
  digits.head? == some '0' && digits.all Char.isDigit

/-- Whether a text reads as a number or looks like one. -/
def isNumber (cs : List Char) : Bool :=
  isBased cs || isPadded cs ||
    ((Decimal.read? cs).bind fun (negative, d) => d.toBinary64? negative).isSome

/-- Whether a plain scalar is something else than a text. -/
def isTaken (cs : List Char) : Bool := words.any (·.toList == cs) || isNumber cs

/-! ## What forms a text can have -/

/-- Whether a character can be written as it is. -/
def isPrintable (c : Char) : Bool :=
  c == '\n' || (' ' ≤ c && c ≤ '~') ||
    (0xA0 ≤ c.toNat && c.toNat ≠ 0xFEFF && c.toNat ≠ 0xFFFE && c.toNat ≠ 0xFFFF)

/-- Whether a character of a kind follows right after one of another kind. -/
def hasPair (p q : Char → Bool) : List Char → Bool
  | c :: d :: cs => (p c && q d) || hasPair p q (d :: cs)
  | _ => false

/-- Whether a character is a space. -/
def isSpace (c : Char) : Bool := c == ' '

/-- Whether a text cannot be written without escapes outside a block. -/
def needsEscapes (cs : List Char) : Bool :=
  !cs.all isPrintable || hasPair isSpace (isBreak .first) cs || hasPair (isBreak .first) isSpace cs

/-- Whether a text can be a block scalar. -/
def canBeBlock (cs : List Char) : Bool :=
  cs.all isPrintable && !hasPair isSpace (isBreak .first) cs && cs.getLast? != some ' '

/-- Whether a text begins with a character that has a meaning there. -/
def beginsWithMark : List Char → Bool
  | [] => false
  | c :: cs => isIndicator c || ((c == '-' || c == '?' || c == ':') && atGap .first cs)

/-- Whether a text has a colon before a space or at its end, or a comment after a space. -/
def hasMark : List Char → Bool
  | [] => false
  | ':' :: cs => atGap .first cs || hasMark cs
  | ' ' :: '#' :: _ => true
  | _ :: cs => hasMark cs

/-- Whether a text begins with three dashes or three dots. -/
def hasDocumentMark (cs : List Char) : Bool :=
  cs.take 3 == ['-', '-', '-'] || cs.take 3 == ['.', '.', '.']

/-- Whether a text without characters that need escapes can be a plain scalar. -/
def canBePlain (cs : List Char) : Bool :=
  !cs.any (isBreak .first) && !beginsWithMark cs && !hasMark cs && !hasDocumentMark cs &&
    cs.head? != some ' ' && cs.getLast? != some ' '

/-! ## Double quotes -/

/-- A digit of base sixteen. -/
def hexDigit (n : Nat) : Char := if n < 10 then Char.ofNat (48 + n) else Char.ofNat (55 + n)

/-- The last digits of a number in base sixteen. -/
def hexDigits : Nat → Nat → List Char
  | 0, _ => []
  | count + 1, n => hexDigits count (n / 16) ++ [hexDigit (n % 16)]

/-- The letter of an escape of one letter. -/
def letter? (c : Char) : Option Char :=
  if c = '\x00' then some '0'
  else if c = '\x07' then some 'a'
  else if c = '\x08' then some 'b'
  else if c = '\t' then some 't'
  else if c = '\n' then some 'n'
  else if c = '\x0b' then some 'v'
  else if c = '\x0c' then some 'f'
  else if c = '\r' then some 'r'
  else if c = '\x1b' then some 'e'
  else if c = '"' ∨ c = '\\' then some c
  else if c = '\x85' then some 'N'
  else if c.toNat = 0x2028 then some 'L'
  else if c.toNat = 0x2029 then some 'P'
  else none

/-- A character as it stands between double quotes. -/
def escaped (c : Char) : List Char :=
  match letter? c with
  | some l => ['\\', l]
  | none =>
    if isPrintable c then [c]
    else if c.toNat ≤ 0xFF then '\\' :: 'x' :: hexDigits 2 c.toNat
    else if c.toNat ≤ 0xFFFF then '\\' :: 'u' :: hexDigits 4 c.toNat
    else '\\' :: 'U' :: hexDigits 8 c.toNat

/-- A text between double quotes. -/
def inDoubleQuotes (cs : List Char) : List Char := '"' :: cs.flatMap escaped ++ ['"']

/-! ## Lines -/

/-- What lines are indented by. -/
def margin : List Char := [' ', ' ']

/-- A text whose characters are written one by one, indented where a line begins.  The flag tells
whether one begins here. -/
def indented (write : Char → List Char) : Bool → List Char → List Char
  | _, [] => []
  | begins, c :: cs =>
    if isBreak .first c then c :: indented write true cs
    else (if begins then margin else []) ++ write c ++ indented write false cs

/-- A character as it stands between single quotes. -/
def doubled (c : Char) : List Char := if c = '\'' then ['\'', '\''] else [c]

/-- Whether a text ends with the end of a line. -/
def endsLine (cs : List Char) : Bool := (cs.getLast?).any (isBreak .first)

/-- A text between single quotes. -/
def inSingleQuotes (cs : List Char) : List Char :=
  '\'' :: indented doubled false cs ++ (if endsLine cs then margin else []) ++ ['\'']

/-- The header of a block scalar with a text.  It tells the indentation if the text begins with a
space or the end of a line, and what becomes of the ends of lines at the end unless there is one. -/
def header (cs : List Char) : List Char :=
  (if (cs.head?).any fun c => isSpace c || isBreak .first c then ['|', '2'] else ['|']) ++
    (if !endsLine cs then ['-']
      else if cs.dropLast.isEmpty || endsLine cs.dropLast then ['+']
      else [])

/-- A text as a block scalar. -/
def inBlock (cs : List Char) : List Char := header cs ++ '\n' :: indented (fun c => [c]) true cs

/-! ## Scalars -/

/-- The scalar of a text. -/
def scalarText (cs : List Char) : List Char :=
  if cs.contains '\n' then (if canBeBlock cs then inBlock cs else inDoubleQuotes cs)
  else if needsEscapes cs then inDoubleQuotes cs
  else if isTaken cs || !canBePlain cs then inSingleQuotes cs
  else cs

/-- The scalar of a text and the end of its line, which a block scalar may have already. -/
def scalarLine (cs : List Char) : List Char :=
  scalarText cs ++ if endsLine (scalarText cs) then [] else ['\n']

example : scalarText "country = 'us'".toList = "country = 'us'".toList := by decide +kernel
example : scalarText "> 1".toList = "'> 1'".toList := by decide +kernel
example : scalarText "'x' = 1".toList = "'''x'' = 1'".toList := by decide +kernel
example : scalarText "a\tb".toList = "\"a\\tb\"".toList := by decide +kernel
example : scalarText "0x1F".toList = "'0x1F'".toList := by decide +kernel
example : scalarText "a\n b".toList = "|-\n  a\n   b".toList := by decide +kernel
example : scalarLine " a\n\n".toList = "|2+\n   a\n\n".toList := by decide +kernel

end Yaml

end Rulebook
