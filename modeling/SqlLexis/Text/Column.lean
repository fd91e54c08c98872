/-!
# Columns

Filling a text up to a width, counted in characters. A text that is wider already is left
as it is.
-/

namespace SqlLexis.Text

/-- Fills up on the left. -/
def padLeft (fill : Char) (width : Nat) (cs : List Char) : List Char :=
  List.replicate (width - cs.length) fill ++ cs

/-- Fills up with spaces on the right. -/
def padRight (width : Nat) (cs : List Char) : List Char :=
  cs ++ List.replicate (width - cs.length) ' '

/-- A number in decimal digits. -/
def decimal (n : Nat) : List Char :=
  Nat.toDigits 10 n

end SqlLexis.Text
