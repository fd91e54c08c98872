import SqlLexis.Text.Column

/-!
# Snippets

A line of text with a caret under one of its columns.
-/

namespace SqlLexis

structure Snippet where
  line : List Char
  /-- Number of the line, from one. -/
  lineNumber : Nat
  /-- Column of the caret, from one. -/
  column : Nat
  deriving Repr, DecidableEq

namespace Snippet

/-- Width of the line number: at least three. -/
def gutter (s : Snippet) : Nat :=
  max (Text.decimal s.lineNumber).length 3

/-- The numbered line. -/
def lineRow (s : Snippet) : List Char :=
  Text.padLeft ' ' s.gutter (Text.decimal s.lineNumber) ++ [' ', '|', ' '] ++ s.line

/-- The row with the caret, as far right as the column is in the line above. -/
def caretRow (s : Snippet) : List Char :=
  List.replicate s.gutter ' ' ++ [' ', '|', ' '] ++ List.replicate (s.column - 1) ' ' ++ ['^']

def format (s : Snippet) : List Char :=
  s.lineRow ++ ['\n'] ++ s.caretRow

end Snippet

end SqlLexis
