import SqlLexis.Proofs.NumberGrammar

/-!
# Numbers in front of names

An exponent or a suffix is meant to be left alone where it would run into a name, for otherwise a
word that begins with digits is torn apart. The scanner looks at the character behind a suffix, but
not at the one behind the digits of an exponent. `number_endsApart_iff` says for which numbers this
makes a difference, and that it is a name that is read next where it does.
-/

namespace SqlLexis

open Source

theorem not_stops_iff {p : Char → Bool} {r : List Char} :
    ¬ Stops p r ↔ ∃ c ∈ r.head?, p c = true := by
  simp [Stops]

namespace Numeral

/-! ## The rule and where it is broken -/

/-- Behind an exponent or a suffix no name goes on. -/
def EndsApart (x : Numeral) (r : List Char) : Prop :=
  x.exponent ≠ [] ∨ x.suffix ≠ [] → Stops isNameChar r

/-- A name goes on here, and its first letter does not stand alone as a suffix. -/
def RunsIntoName (cs : List Char) : Prop :=
  (∃ c ∈ cs.head?, isNameChar c = true) ∧ ¬ BeginsSuffix cs

variable {x : Numeral} {cs l r : List Char}

theorem Suffix.stops_of_ne_nil (h : Suffix cs l r) (hne : l ≠ []) : Stops isNameChar r := by
  cases h with
  | present _ hstops => exact hstops
  | absent _ => exact absurd rfl hne

/-- Looking for a suffix keeps a number apart from what follows, unless there is none. -/
theorem Suffix.stops_iff (h : Suffix cs l r) : Stops isNameChar r ↔ ¬ RunsIntoName cs := by
  cases h with
  | present hc hstops =>
      have hbegins : BeginsSuffix (_ :: r) := ⟨_, r, rfl, hc, hstops⟩
      exact iff_of_true hstops fun hruns => hruns.2 hbegins
  | absent hno =>
      rw [RunsIntoName, ← not_stops_iff, and_iff_left hno, not_not]

theorem Suffix.append (h : Suffix cs l r) : cs = l ++ r := by
  cases h with
  | present => rfl
  | absent => rfl

/-- The last part that is looked for is the suffix. -/
theorem Stands.suffix (h : x.Stands cs r) : Suffix (x.suffix ++ r) x.suffix r := by
  obtain ⟨-, -, -, -, hsuffix⟩ := h
  rw [← hsuffix.append]
  exact hsuffix

/-- Only an exponent without suffix can run into a name. -/
theorem Stands.endsApart_iff (h : x.Stands cs r) :
    x.EndsApart r ↔ (x.exponent ≠ [] → ¬ RunsIntoName (x.suffix ++ r)) := by
  constructor
  · intro hapart hexponent
    exact h.suffix.stops_iff.mp (hapart (Or.inl hexponent))
  · rintro hruns (hexponent | hsuffix)
    · exact h.suffix.stops_iff.mpr (hruns hexponent)
    · exact h.suffix.stops_of_ne_nil hsuffix

/-- No digit stands behind an exponent without suffix. -/
theorem Stands.stops_isDigit (h : x.Stands cs r) (hexponent : x.exponent ≠ [])
    (hsuffix : x.suffix = []) : Stops isDigit r := by
  obtain ⟨sign, whole, fraction, exponent, suffix⟩ := x
  obtain rfl : suffix = [] := hsuffix
  obtain ⟨-, -, -, hpart, hlast⟩ := h
  obtain rfl := hlast.append
  cases hpart with
  | present _ _ _ hrun => exact hrun.stops
  | absent _ => exact absurd rfl hexponent

/-- Where the rule is broken, the number has an exponent and no suffix, and a letter, `_` or `$`
stands behind it. -/
theorem Stands.nameStart_of_not_endsApart (h : x.Stands cs r) (hnot : ¬ x.EndsApart r) :
    isNameStart (peek r) = true ∧ peek r ≠ nameQuote := by
  obtain ⟨hparts, hstops⟩ := Classical.not_imp.mp hnot
  have hsuffix : x.suffix = [] := by
    by_contra hne
    exact hstops (h.suffix.stops_of_ne_nil hne)
  have hdigit := h.stops_isDigit (hparts.resolve_right fun hne => hne hsuffix) hsuffix
  obtain ⟨c, hc, hname⟩ := not_stops_iff.mp hstops
  obtain ⟨u, rfl⟩ := List.head?_eq_some_iff.mp hc
  have hno : isDigit c = false := hdigit c rfl
  constructor
  · simp only [isNameChar, hno, Bool.or_false, Bool.or_eq_true] at hname
    show isNameStart c = true
    rcases hname with (h | h) | h <;> simp [isNameStart, h]
  · show c ≠ nameQuote
    rintro rfl
    exact absurd hname (by decide)

end Numeral

/-! ## What the scanner does -/

/-- The number at `n` has the parts `x`, and the text goes on with `r`. -/
structure Source.TakesNumber (s : Source) (n : Nat) (x : Numeral) (r : List Char) : Prop where
  stands : x.Stands (s.rest n) r
  token : s.scanNumber n =
    ⟨if x.isFloat then .float else .int, x.lexeme, n + x.lexeme.length⟩
  rest : s.rest (s.scanNumber n).stop = r

/-- From `n` on stands a word that is read as a token of its own. -/
def Source.ReadsWord (s : Source) (n : Nat) : Prop :=
  ∃ word r, word ≠ [] ∧ LongestRun isNameChar (s.rest n) word r ∧
    ∀ d f, f.BuiltIn → f.national = false →
      s.scanToken d f n = .ok ⟨d.classify word .identifier, word, n + word.length⟩

variable {s : Source} {n : Nat}

theorem takesNumber (s : Source) (n : Nat) : ∃ x r, s.TakesNumber n x r := by
  obtain ⟨r, hr, hstands⟩ := Numeral.stands_read (s.rest n)
  have htoken := scanNumber_of_append hr
  refine ⟨_, r, hstands, htoken, ?_⟩
  rw [htoken]
  exact rest_of_append hr

theorem readsWord_of_nameStart (hstart : isNameStart (peek (s.rest n)) = true)
    (hq : peek (s.rest n) ≠ nameQuote) : s.ReadsWord n := by
  obtain ⟨word, r, hr, -, hword, hstop⟩ := exists_run isNameChar_endOfInput (s.rest n)
  have hne : word ≠ [] := by
    rintro rfl
    have hname := isNameChar_of_isNameStart hstart hq
    rw [hr, List.nil_append, hstop] at hname
    exact absurd hname Bool.false_ne_true
  refine ⟨word, r, hne, ⟨hr, hword, stops_of_peek hstop⟩, ?_⟩
  intro d f hf hnational
  have hno : startsNational f (s.rest n) = false := by simp [startsNational, hnational]
  rw [scanToken_of_nameStart hf hstart hno]
  rw [hr, peek_append hne] at hstart hq
  exact scanName_of_run hr hstart hq hword hstop

/-- A number with a suffix ends where no name goes on. One with an exponent does so exactly if
behind the digits of the exponent there is no name or one of a single letter that is a suffix, and
where it does not the rest of the name is read next. -/
theorem number_endsApart_iff (s : Source) (n : Nat) :
    ∃ x r, s.TakesNumber n x r ∧ (x.suffix ≠ [] → Stops isNameChar r) ∧
      (x.EndsApart r ↔ (x.exponent ≠ [] → ¬ Numeral.RunsIntoName (x.suffix ++ r))) ∧
      (¬ x.EndsApart r → s.ReadsWord (s.scanNumber n).stop) := by
  obtain ⟨x, r, h⟩ := takesNumber s n
  refine ⟨x, r, h, h.stands.suffix.stops_of_ne_nil, h.stands.endsApart_iff, ?_⟩
  intro hnot
  obtain ⟨hstart, hq⟩ := h.stands.nameStart_of_not_endsApart hnot
  rw [← h.rest] at hstart hq
  exact readsWord_of_nameStart hstart hq

/-- An exponent in front of a letter: the word behind the digits is torn apart. -/
theorem number_endsApart_iff_torn_word :
    let s : Source := .ofString "2e10x"
    s.beginsNumber 0 = true ∧ s.scanNumber 0 = ⟨.float, "2e10".toList, 4⟩ ∧
      ∃ x r, s.TakesNumber 0 x r ∧ x.exponent ≠ [] ∧ ¬ x.EndsApart r ∧ s.ReadsWord 4 := by
  intro s
  obtain ⟨x, r, h, -, hiff, hword⟩ := number_endsApart_iff s 0
  obtain ⟨hx, hr⟩ : Numeral.read (s.rest 0) = x ∧ ['x'] = r := by
    obtain ⟨r', hr', hread⟩ := Numeral.stands_read (s.rest 0)
    obtain ⟨hx, rfl⟩ := h.stands.unique hread
    have hrest : s.rest 0 = (Numeral.read (s.rest 0)).lexeme ++ ['x'] := by decide
    exact ⟨hx, List.append_cancel_left (hrest.symm.trans hr')⟩
  have hexponent : x.exponent ≠ [] := by
    rw [← hx]
    decide
  have hruns : Numeral.RunsIntoName (x.suffix ++ r) := by
    rw [← hx, ← hr]
    refine ⟨⟨'x', rfl, by decide⟩, ?_⟩
    rintro ⟨c, u, hcs, hc, -⟩
    obtain rfl : 'x' = c := (List.cons.inj hcs).1
    exact absurd hc (by decide)
  have hnot : ¬ x.EndsApart r := fun hapart => hiff.mp hapart hexponent hruns
  have hscan : s.scanNumber 0 = ⟨.float, "2e10".toList, 4⟩ := by decide
  rw [hscan] at hword
  exact ⟨by decide, hscan, x, r, h, hexponent, hnot, hword hnot⟩

end SqlLexis
