import SqlLexis.Text.Escape
import SqlLexis.Token

/-!
# Lexical errors

Why a text cannot be split into tokens, and where. An error keeps the whole text so that
whoever reports it can point at the place.
-/

namespace SqlLexis

/-- What went wrong. -/
inductive LexicalError.Cause where
  /-- No token begins with this character. -/
  | unexpectedChar (c : Char)
  /-- The text ends inside a literal opened by this quote. -/
  | unterminatedChars (quote : Char)
  /-- The text ends inside a block comment. -/
  | unterminatedComment
  /-- The text ends inside a hint. -/
  | unterminatedHint
  /-- No hexadecimal digit follows `0x`. -/
  | missingHexDigits
  deriving Repr, DecidableEq

/-- A cause, the text it was found in and the position of the fault. -/
structure LexicalError where
  cause : LexicalError.Cause
  input : List Char
  offset : Nat
  deriving Repr, DecidableEq

namespace LexicalError

namespace Cause

def message : Cause → String
  | unexpectedChar c => "unexpected character " ++ Text.quotedChar c
  | unterminatedChars q => "unterminated quoted literal, missing closing " ++ q.toString
  | unterminatedComment => "unterminated block comment"
  | unterminatedHint => "unterminated hint"
  | missingHexDigits => "missing hex digits after `0x`"

/-- What the author of the text can do about it. -/
def help : Cause → String
  | unexpectedChar _ => "remove the character or quote it inside a string literal"
  | unterminatedChars q =>
    "add the closing " ++ q.toString ++ "; write " ++ q.toString ++ q.toString
      ++ " for a literal " ++ q.toString
  | unterminatedComment | unterminatedHint => "close it with `*/`"
  | missingHexDigits => "write at least one hex digit, e.g. `0x0`"

end Cause

def message (e : LexicalError) : String :=
  e.cause.message ++ " at offset " ++ toString e.offset

/-- The token a reader of tokens would see at the fault: its text is the character there,
or empty at the end of the text. -/
def token (e : LexicalError) : Token :=
  ⟨.error, (e.input.drop e.offset).take 1, e.offset⟩

end LexicalError

/-- An error found in this text. -/
def Source.fault (s : Source) (cause : LexicalError.Cause) (offset : Nat) : LexicalError :=
  ⟨cause, s.chars, offset⟩

end SqlLexis
