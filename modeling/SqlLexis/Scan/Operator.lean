import SqlLexis.LexicalError

/-!
# Operators and punctuation

The longest symbol of the table is found by taking the whole run of symbol characters
and shortening it until the table knows it.
-/

namespace SqlLexis

/-- The longest symbol among the first `n`, `n - 1`, … characters of a text. -/
def Symbol.longest? (cs : List Char) : Nat → Option Symbol
  | 0 => none
  | n + 1 =>
    match Symbol.ofChars? (cs.take (n + 1)) with
    | some s => some s
    | none => Symbol.longest? cs n

/-- The symbol at `n`. Where there is none, an error token holds the character found. -/
def Source.scanSymbol (s : Source) (n : Nat) : Token :=
  let cs := s.rest n
  match Symbol.longest? cs (runLength isSymbolChar cs) with
  | some sym => s.cut (.symbol sym) n sym.chars.length
  | none => ⟨.error, [peek cs], n⟩

theorem Symbol.chars_of_ofChars? {cs : List Char} {sym : Symbol} (h : ofChars? cs = some sym) :
    sym.chars = cs := by
  simpa using List.find?_some h

theorem Symbol.chars_ne_nil (sym : Symbol) : sym.chars ≠ [] := by
  cases sym <;> simp [Symbol.chars]

/-- The symbol found is one of the pieces tried. -/
theorem Symbol.chars_of_longest? {cs : List Char} {n : Nat} {sym : Symbol}
    (h : longest? cs n = some sym) : ∃ m ≤ n, sym.chars = cs.take m := by
  induction n with
  | zero => simp [longest?] at h
  | succ n ih =>
    simp only [longest?] at h
    split at h
    · next s hs =>
      obtain rfl := Option.some.inj h
      exact ⟨n + 1, Nat.le_refl _, chars_of_ofChars? hs⟩
    · obtain ⟨m, hm, hc⟩ := ih h
      exact ⟨m, by omega, hc⟩

theorem Source.scanSymbol_bounds {s : Source} {n : Nat}
    (h : (s.scanSymbol n).kind ≠ .error) :
    n < (s.scanSymbol n).stop ∧ (s.scanSymbol n).stop ≤ s.length := by
  unfold scanSymbol at h ⊢
  simp only at h ⊢
  split at h
  · next sym hs =>
    obtain ⟨m, -, hm⟩ := Symbol.chars_of_longest? hs
    have hpos := List.length_pos_iff.mpr sym.chars_ne_nil
    have hl := s.length_rest n
    have hle : sym.chars.length ≤ (s.rest n).length := by
      rw [hm]
      exact List.length_take_le' m _
    simp only [cut]
    omega
  · exact absurd rfl h

end SqlLexis
