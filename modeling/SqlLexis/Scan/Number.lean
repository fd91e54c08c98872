import SqlLexis.LexicalError

/-!
# Numbers

A decimal number is a sign, digits, a fraction, an exponent and a suffix, all but the
digits optional; each part is decided by looking at most three characters ahead. A
hexadecimal number is `0x` and at least one digit.
-/

namespace SqlLexis

/-- The parts of a decimal number, each as it is written. -/
structure Numeral where
  sign : List Char
  whole : List Char
  fraction : List Char
  exponent : List Char
  suffix : List Char
  deriving Repr, DecidableEq

namespace Numeral

/-- A leading minus. -/
def signPart : List Char → List Char
  | '-' :: _ => ['-']
  | _ => []

/-- A dot and the digits after it. Two dots are a range symbol and no fraction. -/
def fractionPart : List Char → List Char
  | '.' :: cs => if peek cs = '.' then [] else '.' :: cs.takeWhile isDigit
  | _ => []

/-- The sign of an exponent. -/
def exponentSign : List Char → List Char
  | '+' :: _ => ['+']
  | '-' :: _ => ['-']
  | _ => []

/-- The letter of an exponent, its sign and its digits, of which there is at least one. -/
def exponentPart : List Char → List Char
  | c :: cs =>
    if c = 'e' ∨ c = 'E' then
      let sign := exponentSign cs
      let digits := (cs.drop sign.length).takeWhile isDigit
      if digits = [] then [] else c :: (sign ++ digits)
    else []
  | [] => []

/-- A letter that marks a floating point number, unless a name goes on behind it. -/
def suffixPart : List Char → List Char
  | c :: cs =>
    if (c = 'f' ∨ c = 'F' ∨ c = 'd' ∨ c = 'D') ∧ isNameChar (peek cs) = false then [c] else []
  | [] => []

/-- The number at the front of a text. Each part is read where the one before it ends. -/
def read (cs : List Char) : Numeral :=
  let sign := signPart cs
  let afterSign := cs.drop sign.length
  let whole := afterSign.takeWhile isDigit
  let afterWhole := afterSign.drop whole.length
  let fraction := fractionPart afterWhole
  let afterFraction := afterWhole.drop fraction.length
  let exponent := exponentPart afterFraction
  let afterExponent := afterFraction.drop exponent.length
  ⟨sign, whole, fraction, exponent, suffixPart afterExponent⟩

/-- The number as it is written. -/
def lexeme (x : Numeral) : List Char :=
  x.sign ++ x.whole ++ x.fraction ++ x.exponent ++ x.suffix

/-- A fraction, an exponent or a suffix makes a number a floating point number. -/
def isFloat (x : Numeral) : Bool :=
  !(x.fraction.isEmpty && x.exponent.isEmpty && x.suffix.isEmpty)

/-! ### Each part stands at the front of what it is read from -/

theorem signPart_append (cs : List Char) : signPart cs ++ cs.drop (signPart cs).length = cs := by
  unfold signPart
  split <;> simp

theorem takeWhile_append_drop (p : Char → Bool) (cs : List Char) :
    cs.takeWhile p ++ cs.drop (cs.takeWhile p).length = cs := by
  induction cs with
  | nil => rfl
  | cons c cs ih => by_cases h : p c <;> simp [h, ih]

theorem fractionPart_append (cs : List Char) :
    fractionPart cs ++ cs.drop (fractionPart cs).length = cs := by
  unfold fractionPart
  split
  · split
    · simp
    · simp [takeWhile_append_drop]
  · simp

theorem exponentSign_append (cs : List Char) :
    exponentSign cs ++ cs.drop (exponentSign cs).length = cs := by
  unfold exponentSign
  split <;> simp

theorem exponentPart_append (cs : List Char) :
    exponentPart cs ++ cs.drop (exponentPart cs).length = cs := by
  cases cs with
  | nil => rfl
  | cons c cs =>
    simp only [exponentPart]
    split
    · split
      · simp
      · have h1 := exponentSign_append cs
        have h2 := takeWhile_append_drop isDigit (cs.drop (exponentSign cs).length)
        rw [List.drop_drop] at h2
        simp only [List.cons_append, List.length_cons, List.length_append, List.drop_succ_cons,
          List.append_assoc, List.cons.injEq, true_and]
        rw [h2, h1]
    · simp

theorem suffixPart_append (cs : List Char) :
    suffixPart cs ++ cs.drop (suffixPart cs).length = cs := by
  cases cs with
  | nil => rfl
  | cons c cs =>
    simp only [suffixPart]
    split <;> simp

/-- The number and what is left of the text make up the text. -/
theorem lexeme_append (cs : List Char) :
    (read cs).lexeme ++ cs.drop (read cs).lexeme.length = cs := by
  have h1 := signPart_append cs
  have h2 := takeWhile_append_drop isDigit (cs.drop (read cs).sign.length)
  have h3 := fractionPart_append
    ((cs.drop (read cs).sign.length).drop (read cs).whole.length)
  have h4 := exponentPart_append
    (((cs.drop (read cs).sign.length).drop (read cs).whole.length).drop (read cs).fraction.length)
  have h5 := suffixPart_append
    ((((cs.drop (read cs).sign.length).drop (read cs).whole.length).drop
      (read cs).fraction.length).drop (read cs).exponent.length)
  change (read cs).sign ++ cs.drop (read cs).sign.length = cs at h1
  change (read cs).whole ++ (cs.drop _).drop (read cs).whole.length = _ at h2
  change (read cs).fraction ++ List.drop (read cs).fraction.length _ = _ at h3
  change (read cs).exponent ++ List.drop (read cs).exponent.length _ = _ at h4
  change (read cs).suffix ++ List.drop (read cs).suffix.length _ = _ at h5
  simp only [lexeme, List.length_append, ← List.drop_drop, List.append_assoc]
  rw [h5, h4, h3, h2, h1]

theorem length_lexeme_le (cs : List Char) : (read cs).lexeme.length ≤ cs.length := by
  have h := congrArg List.length (lexeme_append cs)
  rw [List.length_append] at h
  omega

/-- A digit or a minus at the front is part of the number. -/
theorem lexeme_ne_nil_of_digit {c : Char} {cs : List Char} (h : isDigit c = true) :
    (read (c :: cs)).lexeme ≠ [] := by
  have hs : signPart (c :: cs) = [] := by
    unfold signPart
    split
    · next heq =>
      obtain ⟨rfl, -⟩ := List.cons.inj heq
      exact absurd h (by decide)
    · rfl
  simp [read, lexeme, hs, h]

theorem lexeme_ne_nil_of_minus (cs : List Char) : (read ('-' :: cs)).lexeme ≠ [] := by
  simp [read, lexeme, signPart]

theorem lexeme_ne_nil_of_dot {cs : List Char} (h : isDigit (peek cs) = true) :
    (read ('.' :: cs)).lexeme ≠ [] := by
  have hd : peek cs ≠ '.' := by
    intro hd
    rw [hd] at h
    exact absurd h (by decide)
  have hw : ('.' :: cs).takeWhile isDigit = [] := by
    have : isDigit '.' = false := by decide
    simp [this]
  simp [read, lexeme, signPart, fractionPart, hd, hw]

end Numeral

namespace Source

/-- The character before `n` can end a name, so a sign or dot at `n` belongs to no number. -/
def followsName (s : Source) (n : Nat) : Bool :=
  let previous := s.charAt ((n : Int) - 1)
  isNameChar previous || previous == nameQuote

/-- A decimal number begins at `n`. A digit always begins one; a dot needs a digit after
it and a minus a digit or a dot, and neither may follow a name. -/
def beginsNumber (s : Source) (n : Nat) : Bool :=
  let next := peek (s.rest (n + 1))
  match peek (s.rest n) with
  | '.' => isDigit next && !s.followsName n
  | '-' => (isDigit next || next == '.') && !s.followsName n
  | c => isDigit c

/-- The decimal number at `n`. -/
def scanNumber (s : Source) (n : Nat) : Token :=
  let x := Numeral.read (s.rest n)
  s.cut (if x.isFloat then .float else .int) n x.lexeme.length

/-- `0x` stands at `n`; the letter has to be lower case. -/
def beginsHex (s : Source) (n : Nat) : Bool :=
  peek (s.rest n) == '0' && peek (s.rest (n + 1)) == 'x'

/-- The hexadecimal number at `n`, whose first two characters are taken as they are. -/
def scanHex (s : Source) (n : Nat) : Except LexicalError Token :=
  let digits := runLength isHexDigit (s.rest (n + 2))
  if digits = 0 then .error (s.fault .missingHexDigits (n + 2))
  else .ok (s.cut .hex n (2 + digits))

theorem scanNumber_bounds {s : Source} {n : Nat} (h : s.beginsNumber n = true) :
    n < (s.scanNumber n).stop ∧ (s.scanNumber n).stop ≤ s.length := by
  have hl := s.length_rest n
  have hle := Numeral.length_lexeme_le (s.rest n)
  have hpos : 0 < (Numeral.read (s.rest n)).lexeme.length := by
    rw [List.length_pos_iff]
    cases hr : s.rest n with
    | nil => simp [beginsNumber, hr, endOfInput, isDigit] at h
    | cons c r =>
      have hnext : s.rest (n + 1) = r := by
        have : (s.rest n).drop 1 = r := by rw [hr]; rfl
        rwa [rest, List.drop_drop] at this
      simp only [beginsNumber, hr, hnext, peek_cons] at h
      split at h
      · next => exact Numeral.lexeme_ne_nil_of_dot (by simp_all)
      · next => exact Numeral.lexeme_ne_nil_of_minus r
      · next => exact Numeral.lexeme_ne_nil_of_digit h
  simp only [scanNumber, cut]
  omega

theorem scanHex_bounds {s : Source} {n : Nat} {t : Token} (h : s.scanHex n = .ok t) :
    n < t.stop ∧ t.stop ≤ s.length := by
  unfold scanHex at h
  simp only at h
  split at h
  · exact absurd h (by simp)
  · next hd =>
    obtain rfl := Except.ok.inj h
    have hl := s.length_rest (n + 2)
    have hle := runLength_le isHexDigit (s.rest (n + 2))
    simp only [cut]
    omega

end Source

end SqlLexis
