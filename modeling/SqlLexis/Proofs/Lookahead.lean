import SqlLexis.Proofs.Position

/-!
# What a token sees ahead

A scanner decides where its token ends by looking a few characters ahead. Two facts about
what stands there are used throughout: a text is `Clear` if nothing in it can carry a token
on, and `r'` `Resembles r` if a token in front of `r` cannot tell the two apart.
-/

namespace SqlLexis

/-- Nothing, or a text that begins with a blank. -/
def Clear (cs : List Char) : Prop := ∀ c ∈ cs.head?, isBlank c = true

/-- The texts agree up to a place where the first carries on neither a name nor a number and
the second is clear. -/
inductive Resembles : List Char → List Char → Prop
  | apart {r r' : List Char} : isNameChar (peek r) = false → peek r ≠ '.' → Clear r' →
      Resembles r r'
  | cons {r r' : List Char} (c : Char) : Resembles r r' → Resembles (c :: r) (c :: r')

namespace Clear

theorem nil : Clear [] := by simp [Clear]

theorem cons {c : Char} (h : isBlank c = true) (r : List Char) : Clear (c :: r) := by
  intro d hd
  obtain rfl : c = d := by simpa using hd
  exact h

/-- All that can stand in front of a clear text. -/
theorem peek_mem {cs : List Char} (h : Clear cs) : peek cs ∈ endOfInput :: blankChars := by
  cases cs with
  | nil => exact List.mem_cons_self
  | cons c cs =>
      have hc : isBlank c = true := h c rfl
      exact List.mem_cons_of_mem _ (List.contains_iff_mem.mp hc)

/-- A class without blanks does not go on in a clear text. -/
theorem not_class {cs : List Char} (h : Clear cs) {p : Char → Bool}
    (hp : (endOfInput :: blankChars).any p = false) : p (peek cs) = false :=
  Bool.eq_false_iff.mpr (List.any_eq_false.mp hp _ h.peek_mem)

theorem peek_ne {cs : List Char} (h : Clear cs) {c : Char}
    (hc : c ∉ endOfInput :: blankChars) : peek cs ≠ c :=
  fun he => hc (he ▸ h.peek_mem)

theorem not_nameChar {cs : List Char} (h : Clear cs) : isNameChar (peek cs) = false :=
  h.not_class (by decide)

theorem not_digit {cs : List Char} (h : Clear cs) : isDigit (peek cs) = false :=
  h.not_class (by decide)

end Clear

theorem isDigit_of_not_nameChar {c : Char} (h : isNameChar c = false) : isDigit c = false := by
  simp only [isNameChar, Bool.or_eq_false_iff] at h
  exact h.1.1.2

theorem isDigit_or_isLetter_of_isHexDigit {c : Char} (h : isHexDigit c = true) :
    isDigit c = true ∨ isLetter c = true := by
  have hsmall : c ≤ 'f' → c ≤ 'z' := fun hf => Char.le_trans hf (by decide)
  have hcapital : c ≤ 'F' → c ≤ 'Z' := fun hf => Char.le_trans hf (by decide)
  simp only [isHexDigit, isLetter, Bool.or_eq_true, Bool.and_eq_true, decide_eq_true_eq] at h ⊢
  rcases h with (h | ⟨ha, hf⟩) | ⟨ha, hf⟩
  · exact Or.inl h
  · exact Or.inr (Or.inl ⟨ha, hsmall hf⟩)
  · exact Or.inr (Or.inr ⟨ha, hcapital hf⟩)

namespace Resembles

/-- Common characters in front make no difference. -/
theorem append {r r' : List Char} (h : Resembles r r') (l : List Char) :
    Resembles (l ++ r) (l ++ r') := by
  induction l with
  | nil => exact h
  | cons c l ih => exact .cons c ih

/-- A text resembles itself with something clear put behind it. -/
theorem append_clear {v : List Char} (hv : Clear v) (r : List Char) : Resembles r (r ++ v) := by
  induction r with
  | nil => exact .apart isNameChar_endOfInput (by decide) hv
  | cons c r ih => exact .cons c ih

variable {r r' : List Char}

theorem isNameChar_peek (h : Resembles r r') :
    isNameChar (peek r') = isNameChar (peek r) := by
  cases h with
  | apart hn _ hc => rw [hn, hc.not_nameChar]
  | cons c _ => rfl

theorem isDigit_peek (h : Resembles r r') : isDigit (peek r') = isDigit (peek r) := by
  cases h with
  | apart hn _ hc => rw [isDigit_of_not_nameChar hn, hc.not_digit]
  | cons c _ => rfl

theorem peek_eq_dot_iff (h : Resembles r r') : peek r' = '.' ↔ peek r = '.' := by
  cases h with
  | apart _ hd hc => exact iff_of_false (hc.peek_ne (by decide)) hd
  | cons c _ => exact Iff.rfl

/-- A class without blanks that does not go on in a text does not go on in one like it. -/
theorem not_class (h : Resembles r r') {p : Char → Bool}
    (hp : (endOfInput :: blankChars).any p = false) (hr : p (peek r) = false) :
    p (peek r') = false := by
  cases h with
  | apart _ _ hc => exact hc.not_class hp
  | cons c _ => exact hr

theorem peek_ne (h : Resembles r r') {c : Char} (hc : c ∉ endOfInput :: blankChars)
    (hr : peek r ≠ c) : peek r' ≠ c := by
  cases h with
  | apart _ _ hclear => exact hclear.peek_ne hc
  | cons d _ => exact hr

end Resembles

end SqlLexis
