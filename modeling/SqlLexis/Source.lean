import SqlLexis.Character
import SqlLexis.Text.Escape

/-!
# Source text

A text indexed by character. Positions may lie outside it: reading there yields
`endOfInput`, and slices are cut down to what the text has. `length_rest` and
`length_slice` say how much is left and how much is cut.
-/

namespace SqlLexis

/-- A text whose positions count characters. -/
structure Source where
  chars : List Char
  deriving Repr, DecidableEq

namespace Source

def ofString (s : String) : Source := ⟨s.toList⟩

def text (s : Source) : String := String.ofList s.chars

/-- Number of characters. -/
def length (s : Source) : Nat := s.chars.length

def isEmpty (s : Source) : Bool := s.chars.isEmpty

/-- What is left of the text from position `n` on; nothing when `n` is past the end. -/
def rest (s : Source) (n : Nat) : List Char := s.chars.drop n

/-- The character at a position, or `endOfInput` before the start and past the end. -/
def charAt (s : Source) (i : Int) : Char :=
  if 0 ≤ i then peek (s.rest i.toNat) else endOfInput

/-- The characters from `start` up to `stop`, both cut down to the text. -/
def slice (s : Source) (start stop : Nat) : List Char :=
  (s.chars.take stop).drop start

/-- The text and its length, as a record. -/
def display (s : Source) : String :=
  "Source \x7b text: " ++ Text.quotedText s.chars ++ ", len: " ++ toString s.length ++ " \x7d"

theorem length_rest (s : Source) (n : Nat) : (s.rest n).length = s.length - n := by
  simp [rest, length]

theorem length_slice (s : Source) (start stop : Nat) :
    (s.slice start stop).length = min stop s.length - start := by
  simp [slice, length]

/-- Position `n` is inside the text when something is left there. -/
theorem lt_length_of_rest_eq_cons {s : Source} {n : Nat} {c : Char} {r : List Char}
    (h : s.rest n = c :: r) : n + (r.length + 1) = s.length := by
  have hl := s.length_rest n
  rw [h] at hl
  simp at hl
  omega

theorem charAt_natCast (s : Source) (n : Nat) : s.charAt n = peek (s.rest n) := by
  simp [charAt]

end Source

end SqlLexis
