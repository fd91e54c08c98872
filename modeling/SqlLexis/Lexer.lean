import SqlLexis.Scan

/-!
# The lexer

Reads a text token by token. Its state is a position, the token last read and whether
iteration is over. There are three ways to go on: `next` reads one token and repeats the
end or an error for ever, `pull` yields each of them once and then nothing, and
`tokenize` reads all that is left. `next_decreases` is why the last two come to an end.
-/

namespace SqlLexis

structure Lexer where
  source : Source
  dictionary : Dictionary
  forms : Forms
  /-- Where the token last read stops. -/
  offset : Nat := 0
  /-- The token last read. -/
  current : Option Token := none
  /-- Iteration has yielded the end or an error. -/
  halted : Bool := false

namespace Lexer

/-- A lexer at the start of a text. -/
def ofDialect (source : Source) (d : Dialect) : Lexer :=
  ⟨source, d.dictionary, d.forms, 0, none, false⟩

/-- The character `delta` places away from the position. -/
def charAt (l : Lexer) (delta : Int) : Char :=
  l.source.charAt (l.offset + delta)

/-- The first token after the position. -/
def scan (l : Lexer) : Except LexicalError Token :=
  match l.source.skipGap l.forms l.offset with
  | .ok n => l.source.scanToken l.dictionary l.forms n
  | .error e => .error e

/-- What the next reading yields: the end again if it has been read, else a fresh token. -/
def upcoming (l : Lexer) : Except LexicalError Token :=
  match l.current with
  | some t => if t.kind = .finish then .ok t else l.scan
  | none => l.scan

/-- Reads one token and moves past it. A failure leaves the lexer as it was. -/
def next (l : Lexer) : Except LexicalError Token × Lexer :=
  match l.upcoming with
  | .ok t => (.ok t, { l with offset := t.stop, current := some t })
  | .error e => (.error e, l)

theorem scan_bounds {l : Lexer} {t : Token} (h : l.scan = .ok t) (ht : t.kind ≠ .finish) :
    l.offset < t.stop ∧ t.stop ≤ l.source.length := by
  unfold scan at h
  split at h
  · next n hn =>
    have hle := Source.le_of_skipGap hn
    have hb := Source.scanToken_bounds h ht
    omega
  · exact absurd h (by simp)

theorem upcoming_bounds {l : Lexer} {t : Token} (h : l.upcoming = .ok t)
    (ht : t.kind ≠ .finish) : l.offset < t.stop ∧ t.stop ≤ l.source.length := by
  unfold upcoming at h
  split at h
  · split at h
    · next hf =>
      obtain rfl := Except.ok.inj h
      exact absurd hf ht
    · exact scan_bounds h ht
  · exact scan_bounds h ht

/-- Reading a token other than the end leaves less text to read. -/
theorem next_decreases {l l' : Lexer} {t : Token} (h : l.next = (.ok t, l'))
    (ht : t.kind ≠ .finish) : l'.source.length - l'.offset < l.source.length - l.offset := by
  unfold next at h
  split at h
  · next u hu =>
    obtain ⟨h1, rfl⟩ := Prod.mk.inj h
    obtain rfl := Except.ok.inj h1
    have hb := upcoming_bounds hu ht
    simp only
    omega
  · exact absurd (Prod.mk.inj h).1 (by simp)

/-- All that reading a text to its end gives: the tokens read, the fault that stopped it if
there was one, and the lexer as it is left. -/
structure Run where
  tokens : List Token
  fault : Option LexicalError
  lexer : Lexer

/-- Reads on until the end of the text or the first error. -/
def run (l : Lexer) : Run :=
  match h : l.next with
  | (.error e, l') => ⟨[], some e, l'⟩
  | (.ok t, l') =>
    if hf : t.kind = .finish then ⟨[t], none, l'⟩
    else
      have := next_decreases h hf
      let r := l'.run
      ⟨t :: r.tokens, r.fault, r.lexer⟩
termination_by l.source.length - l.offset

/-- The tokens that are left, the end included, or the first error. -/
def tokenize (l : Lexer) : Except LexicalError (List Token) × Lexer :=
  let r := l.run
  match r.fault with
  | none => (.ok r.tokens, r.lexer)
  | some e => (.error e, r.lexer)

/-- The outcome after which iteration is over. -/
def isLast : Except LexicalError Token → Bool
  | .ok t => t.kind.isFinish
  | .error _ => true

/-- One step of iteration: the next outcome, or nothing once it is over. -/
def pull (l : Lexer) : Option (Except LexicalError Token) × Lexer :=
  if l.halted then (none, l)
  else
    let (r, l') := l.next
    (some r, { l' with halted := isLast r })

/-- How many outcomes iteration can still yield, at most. -/
def remaining (l : Lexer) : Nat :=
  if l.halted then 0 else l.source.length - l.offset + 1

theorem pull_decreases {l l' : Lexer} {r : Except LexicalError Token}
    (h : l.pull = (some r, l')) : l'.remaining < l.remaining := by
  unfold pull at h
  split at h
  · exact absurd (Prod.mk.inj h).1 (by simp)
  · next hh =>
    cases hr : l.next with
    | mk u k =>
      rw [hr] at h
      obtain ⟨h1, rfl⟩ := Prod.mk.inj h
      cases u with
      | error e => simp [remaining, isLast, hh]
      | ok t =>
        by_cases hf : t.kind = .finish
        · simp [remaining, isLast, hf, TokenKind.isFinish, hh]
        · have := next_decreases hr hf
          simp [remaining, isLast, hf, TokenKind.isFinish, hh]
          omega

/-- Iterates to the end: every outcome that is left. -/
def drain (l : Lexer) : List (Except LexicalError Token) × Lexer :=
  match h : l.pull with
  | (none, l') => ([], l')
  | (some r, l') =>
    have := pull_decreases h
    let (rs, l'') := l'.drain
    (r :: rs, l'')
termination_by l.remaining

end Lexer

/-- Splits a text into tokens under a dialect. -/
def tokenize (d : Dialect) (text : List Char) : Except LexicalError (List Token) :=
  ((Lexer.ofDialect ⟨text⟩ d).tokenize).1

end SqlLexis
