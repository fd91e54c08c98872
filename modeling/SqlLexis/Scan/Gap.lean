import SqlLexis.Dialect
import SqlLexis.LexicalError

/-!
# Gaps between tokens

Blanks, comments and hints. A line comment ends before its line feed, a block at its
first closing mark after the opening one, so `/*/` is not closed. `skipGap` passes over
a whole gap: blanks, then hints, then comments, each followed by blanks.
-/

namespace SqlLexis.Source

/-- The position after the blanks at `n`. -/
def skipBlanks (s : Source) (n : Nat) : Nat :=
  n + runLength isBlank (s.rest n)

/-- How many characters a block has left: up to and including its first closing mark. -/
def closeBlock : List Char → Option Nat
  | [] => none
  | '*' :: '/' :: _ => some 2
  | _ :: cs => (closeBlock cs).map (· + 1)

/-- The position after the block opened at `n`; its two opening characters are not looked at. -/
def skipBlock (s : Source) (n : Nat) (unclosed : LexicalError.Cause) : Except LexicalError Nat :=
  match closeBlock (s.rest (n + 2)) with
  | some k => .ok (n + 2 + k)
  | none => .error (s.fault unclosed n)

/-- The position after the hint at `n`. -/
def skipHint (s : Source) (n : Nat) : Except LexicalError Nat :=
  s.skipBlock n .unterminatedHint

/-- The position of the next line feed, or of the end of the text. -/
def skipLine (s : Source) (n : Nat) : Nat :=
  n + runLength (· != '\n') (s.rest n)

/-- The position after the comment at `n`: a block if it opens like one, else a line. -/
def skipComment (s : Source) (n : Nat) : Except LexicalError Nat :=
  if peek (s.rest n) = '/' ∧ peek (s.rest (n + 1)) = '*' then
    s.skipBlock n .unterminatedComment
  else
    .ok (s.skipLine n)

/-- A comment begins at `n`: a block, a line of two slashes or dashes, or a hash line where
the dialect has them. -/
def beginsComment (s : Source) (f : Forms) (n : Nat) : Bool :=
  match peek (s.rest n), peek (s.rest (n + 1)) with
  | '/', '/' => true
  | '-', '-' => true
  | '/', '*' => true
  | c, _ => f.hashComment && c == '#'

theorem le_skipBlanks (s : Source) (n : Nat) : n ≤ s.skipBlanks n :=
  Nat.le_add_right _ _

theorem closeBlock_bounds {cs : List Char} {k : Nat} (h : closeBlock cs = some k) :
    0 < k ∧ k ≤ cs.length := by
  fun_induction closeBlock cs generalizing k with
  | case1 => simp at h
  | case2 cs =>
    obtain rfl : 2 = k := by simpa using h
    simp
  | case3 c cs _ ih =>
    obtain ⟨j, hj, rfl⟩ := Option.map_eq_some_iff.mp h
    have := (ih hj).2
    simp only [List.length_cons]
    omega

theorem skipBlock_bounds {s : Source} {n m : Nat} {u : LexicalError.Cause}
    (h : s.skipBlock n u = .ok m) : n < m ∧ m ≤ s.length := by
  unfold skipBlock at h
  split at h
  · next k hk =>
    obtain rfl : n + 2 + k = m := by simpa using h
    have hb := closeBlock_bounds hk
    have hl := s.length_rest (n + 2)
    omega
  · exact absurd h (by simp)

/-- A comment that begins at `n` takes at least one character of the text. -/
theorem skipComment_bounds {s : Source} {f : Forms} {n m : Nat} (hb : s.beginsComment f n = true)
    (h : s.skipComment n = .ok m) : n < m ∧ m ≤ s.length := by
  unfold skipComment at h
  split at h
  · exact skipBlock_bounds h
  · obtain rfl : s.skipLine n = m := by simpa using h
    have hl := s.length_rest n
    cases hr : s.rest n with
    | nil => simp [beginsComment, hr, endOfInput] at hb
    | cons c r =>
      have hc : (c != '\n') = true := by
        by_cases hc : c = '\n'
        · simp [beginsComment, hr, hc] at hb
        · simp [hc]
      have hpos := runLength_pos (p := (· != '\n')) hc r
      have hle := runLength_le (· != '\n') (c :: r)
      rw [hr] at hl
      simp only [skipLine, hr]
      omega

/-- Passes over hints and the blanks after them, as long as a hint begins. -/
def skipHints (s : Source) (f : Forms) (n : Nat) : Except LexicalError Nat :=
  if f.beginsHint s n then
    match h : s.skipHint n with
    | .ok m =>
      have := skipBlock_bounds h
      have := s.le_skipBlanks m
      s.skipHints f (s.skipBlanks m)
    | .error e => .error e
  else
    .ok n
termination_by s.length - n

/-- Passes over comments and the blanks after them, as long as a comment begins. -/
def skipComments (s : Source) (f : Forms) (n : Nat) : Except LexicalError Nat :=
  if hb : s.beginsComment f n = true then
    match h : s.skipComment n with
    | .ok m =>
      have := skipComment_bounds hb h
      have := s.le_skipBlanks m
      s.skipComments f (s.skipBlanks m)
    | .error e => .error e
  else
    .ok n
termination_by s.length - n

/-- The position of the next token, or of the end of the text. -/
def skipGap (s : Source) (f : Forms) (n : Nat) : Except LexicalError Nat :=
  match s.skipHints f (s.skipBlanks n) with
  | .ok m => s.skipComments f m
  | .error e => .error e

theorem le_of_skipHints {s : Source} {f : Forms} {n m : Nat} (h : s.skipHints f n = .ok m) :
    n ≤ m := by
  fun_induction skipHints s f n with
  | case1 n _ k _ hb hs ih =>
    have := ih h
    omega
  | case2 => simp at h
  | case3 => simp at h; omega

theorem le_of_skipComments {s : Source} {f : Forms} {n m : Nat}
    (h : s.skipComments f n = .ok m) : n ≤ m := by
  fun_induction skipComments s f n with
  | case1 n _ k _ hb hs ih =>
    have := ih h
    omega
  | case2 => simp at h
  | case3 => simp at h; omega

/-- Skipping never goes back. -/
theorem le_of_skipGap {s : Source} {f : Forms} {n m : Nat} (h : s.skipGap f n = .ok m) :
    n ≤ m := by
  unfold skipGap at h
  split at h
  · next k hk =>
    have h1 := s.le_skipBlanks n
    have h2 := le_of_skipHints hk
    have h3 := le_of_skipComments h
    omega
  · exact absurd h (by simp)

end SqlLexis.Source
