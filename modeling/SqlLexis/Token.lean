import SqlLexis.Keyword
import SqlLexis.Source
import SqlLexis.Symbol

/-!
# Tokens

A token is a classified piece of a text. It records where it stops; where it starts is
known from the token before it and from what was skipped in between.
-/

namespace SqlLexis

/-- The class of a token. -/
inductive TokenKind where
  /-- A number without fraction, exponent or suffix. -/
  | int
  /-- A number with a fraction, an exponent or a suffix. -/
  | float
  /-- A number written `0x…`. -/
  | hex
  /-- A quoted string. -/
  | chars
  /-- A name that is not reserved. -/
  | identifier
  /-- A session or bind variable. -/
  | bindVariable
  /-- A reserved word. -/
  | keyword (k : Keyword)
  /-- An operator or punctuation. -/
  | symbol (s : Symbol)
  /-- The end of the text. -/
  | finish
  /-- A place where no token can be read. -/
  | error
  deriving Repr, DecidableEq

namespace TokenKind

/-- The class in capitals, without saying which keyword or symbol it is. -/
def name : TokenKind → String
  | int => "INT"
  | float => "FLOAT"
  | hex => "HEX"
  | chars => "CHARS"
  | identifier => "IDENTIFIER"
  | bindVariable => "VARIABLE"
  | keyword _ => "KEYWORD"
  | symbol _ => "SYMBOL"
  | finish => "END"
  | error => "ERROR"

/-- The token marks the end of the text. -/
def isFinish (k : TokenKind) : Bool := k == finish

/-- The token marks a failure. -/
def isError (k : TokenKind) : Bool := k == error

@[simp] theorem isFinish_iff {k : TokenKind} : k.isFinish = true ↔ k = finish := by
  simp [isFinish]

end TokenKind

/-- A classified piece of text. -/
structure Token where
  kind : TokenKind
  /-- The text of the token: decoded for quoted strings, empty at the end. -/
  literals : List Char
  /-- The position just past the token. -/
  stop : Nat
  deriving Repr, DecidableEq

namespace Token

/-- The token as one word: class, text and end position. -/
def display (t : Token) : String :=
  t.kind.name ++ "(" ++ String.ofList t.literals ++ ")@" ++ toString t.stop

end Token

/-- The token of class `kind` that takes `n` characters from position `start` on. Its text
is cut down to the source, its end is not. -/
def Source.cut (s : Source) (kind : TokenKind) (start n : Nat) : Token :=
  ⟨kind, s.slice start (start + n), start + n⟩

end SqlLexis
