/-!
# Character classes

The classes that decide where a token begins and how far it runs. All of them are
about ASCII, except that the no-break space counts as a blank. Reading past either
end of a text yields `endOfInput`, which belongs to no other class, so every run of a
class stops there by itself.
-/

namespace SqlLexis

/-- What reading outside a text yields: U+001A. A text may also hold this character
itself, so loops compare positions and never wait for it. -/
def endOfInput : Char := '\x1a'

/-- An ASCII letter. -/
def isLetter (c : Char) : Bool :=
  ('a' ≤ c && c ≤ 'z') || ('A' ≤ c && c ≤ 'Z')

/-- An ASCII digit. -/
def isDigit (c : Char) : Bool :=
  '0' ≤ c && c ≤ '9'

/-- A hexadecimal digit of either case. -/
def isHexDigit (c : Char) : Bool :=
  isDigit c || ('a' ≤ c && c ≤ 'f') || ('A' ≤ c && c ≤ 'F')

/-- The characters that operators and punctuation are made of. -/
def symbolChars : List Char :=
  ['(', ')', '[', ']', '\x7b', '\x7d', '+', '-', '*', '/', '%', '^', '=', '>', '<', '~',
    '!', '?', '&', '|', '.', ':', '#', ',', ';']

/-- A character of an operator or of punctuation. -/
def isSymbolChar (c : Char) : Bool :=
  symbolChars.contains c

/-- Space, tab, line feed, carriage return, vertical tab, form feed and no-break space. -/
def blankChars : List Char :=
  [' ', '\t', '\n', '\r', '\x0b', '\x0c', '\u00a0']

/-- A character that separates tokens and means nothing else. -/
def isBlank (c : Char) : Bool :=
  blankChars.contains c

/-- The mark that stands for the end of the text. -/
def isEndOfInput (c : Char) : Bool :=
  c == endOfInput

/-- A character that a name may go on with. -/
def isNameChar (c : Char) : Bool :=
  isLetter c || isDigit c || c == '_' || c == '$'

/-- The quote around a name that may hold any character. -/
def nameQuote : Char := '\x60'

/-- A character that a name may start with: a letter, `_`, `$` or the name quote. -/
def isNameStart (c : Char) : Bool :=
  isLetter c || c == nameQuote || c == '_' || c == '$'

/-- The quote of string literals. -/
def singleQuote : Char := '\x27'

/-- The other quote of string literals. -/
def doubleQuote : Char := '\x22'

/-- The first character of `cs`, or the end mark. -/
def peek (cs : List Char) : Char :=
  cs.headD endOfInput

@[simp] theorem peek_nil : peek [] = endOfInput := rfl

@[simp] theorem peek_cons (c : Char) (cs : List Char) : peek (c :: cs) = c := rfl

/-- How many characters at the front of `cs` belong to a class. -/
def runLength (p : Char → Bool) (cs : List Char) : Nat :=
  (cs.takeWhile p).length

@[simp] theorem runLength_nil (p : Char → Bool) : runLength p [] = 0 := rfl

theorem runLength_le (p : Char → Bool) (cs : List Char) : runLength p cs ≤ cs.length :=
  (List.takeWhile_sublist p).length_le

theorem runLength_pos {p : Char → Bool} {c : Char} (h : p c = true) (cs : List Char) :
    0 < runLength p (c :: cs) := by
  simp [runLength, h]

/-- A text that starts with something else than the end mark is not empty. -/
theorem eq_cons_of_peek {cs : List Char} {c : Char} (h : peek cs = c) (hc : c ≠ endOfInput) :
    ∃ r, cs = c :: r := by
  cases cs with
  | nil => exact absurd h.symm hc
  | cons d r => exact ⟨r, by rw [← h]; rfl⟩

end SqlLexis
