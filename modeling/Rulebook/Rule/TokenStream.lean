import Rulebook.Rule.Token

/-!
# Tokens one by one

A reader may also ask for the tokens of a text one by one.  A `TokenStream` is what is left
of the text then.  The first fault of the text is given out in its turn like a token, and
after it nothing is.
-/

namespace Rulebook

open Rulebook.Text (isBlank)

/-- A text that is read token by token. -/
structure TokenStream where
  /-- What is left of the text. -/
  rest : List Char
  /-- The offset that it begins at. -/
  offset : Nat
  /-- Whether a fault was given out. -/
  failed : Bool

namespace TokenStream

/-- The stream of a whole text. -/
def ofText (text : String) : TokenStream := ⟨text.toList, 0, false⟩

/-- The stream behind the blanks that it begins with. -/
def skipBlanks (s : TokenStream) : TokenStream :=
  ⟨Text.skipBlanks s.rest, s.offset + Token.width (s.rest.takeWhile isBlank), s.failed⟩

/-- The token at the front, or what is wrong there, and the stream behind it. -/
def take (s : TokenStream) : Option (Except LexError Token) × TokenStream :=
  match s.rest with
  | [] => (none, s)
  | c :: cs =>
    match Token.cut s.offset c cs with
    | .ok k => (some (.ok ⟨k.lexeme, s.offset⟩), ⟨k.rest, s.offset + k.width, s.failed⟩)
    | .error e => (some (.error e), { s with failed := true })

/-- What the stream gives out next, and the stream behind it. -/
def next (s : TokenStream) : Option (Except LexError Token) × TokenStream :=
  if s.failed then (none, s) else s.skipBlanks.take

/-- What the stream gives out when it is asked once more after a number of times. -/
def item (s : TokenStream) : Nat → Option (Except LexError Token)
  | 0 => s.next.1
  | n + 1 => s.next.2.item n

end TokenStream

end Rulebook
