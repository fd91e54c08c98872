import SqlLexis.Proofs.Position

/-!
# The longest symbol

The scanner takes the whole run of symbol characters and shortens it until the table knows
it. What it finds is the longest symbol that the text begins with, the run playing no part:
every symbol is made of symbol characters (`isSymbolChar_of_mem_chars`), so none reaches
past the run. Something is found wherever a symbol character stands, since each of them is a
symbol by itself (`exists_of_isSymbolChar`). Both together are `scanSymbol_longest`.
-/

namespace SqlLexis

namespace Symbol

/-- No symbol of the table in front of `cs` is longer than `sym`. -/
def Longest (sym : Symbol) (cs : List Char) : Prop :=
  ∀ other : Symbol, other.chars <+: cs → other.chars.length ≤ sym.chars.length

theorem isSymbolChar_of_mem_chars {sym : Symbol} {c : Char} (h : c ∈ sym.chars) :
    isSymbolChar c = true := by
  have hall : sym.chars.all isSymbolChar = true := by cases sym <;> rfl
  exact List.all_eq_true.mp hall c h

theorem ofChars?_chars (sym : Symbol) : ofChars? sym.chars = some sym := by
  cases sym <;> rfl

theorem chars_injective {a b : Symbol} (h : a.chars = b.chars) : a = b := by
  have ha := ofChars?_chars a
  rw [h, ofChars?_chars] at ha
  exact (Option.some.inj ha).symm

theorem length_le_run {sym : Symbol} {cs : List Char} (h : sym.chars <+: cs) :
    sym.chars.length ≤ runLength isSymbolChar cs := by
  obtain ⟨r, rfl⟩ := h
  rw [runLength, List.takeWhile_append_of_pos fun c hc => isSymbolChar_of_mem_chars hc]
  simp

/-- Shortening passes over every length that spells no symbol, and a symbol found on the way is a
prefix that is no longer than the longest one, hence that one. -/
theorem longest?_of_longest {sym : Symbol} {r : List Char} {k : Nat}
    (hmax : sym.Longest (sym.chars ++ r)) (hk : sym.chars.length ≤ k) :
    longest? (sym.chars ++ r) k = some sym := by
  induction k with
  | zero =>
      have hpos := List.length_pos_iff.mpr sym.chars_ne_nil
      omega
  | succ k ih =>
      rw [longest?]
      split
      · next other hother =>
          have hchars := chars_of_ofChars? hother
          have hlen := hmax other (hchars ▸ List.take_prefix _ _)
          have hle : min (k + 1) (sym.chars ++ r).length ≤ sym.chars.length := by
            rwa [hchars, List.length_take] at hlen
          have hsameChars : other.chars = sym.chars := by
            rw [hchars]
            rcases Nat.lt_or_ge sym.chars.length (k + 1) with h | h
            · have hr : r = [] := by
                rw [List.length_append] at hle
                exact List.eq_nil_of_length_eq_zero (by omega)
              rw [hr, List.append_nil, List.take_of_length_le (by omega)]
            · rw [show k + 1 = sym.chars.length by omega, List.take_left]
          rw [chars_injective hsameChars]
      · next hnone =>
          apply ih
          rcases Nat.lt_or_ge k sym.chars.length with h | h
          · rw [show k + 1 = sym.chars.length by omega, List.take_left, ofChars?_chars] at hnone
            exact absurd hnone (by simp)
          · exact h

theorem longest_of_longest? {sym : Symbol} {cs : List Char} {k : Nat}
    (h : longest? cs k = some sym) :
    sym.chars <+: cs ∧ ∀ other : Symbol, other.chars <+: cs → other.chars.length ≤ k →
      other.chars.length ≤ sym.chars.length := by
  induction k with
  | zero => simp [longest?] at h
  | succ k ih =>
      rw [longest?] at h
      split at h
      · next found hfound =>
          obtain rfl := Option.some.inj h
          have hchars := chars_of_ofChars? hfound
          refine ⟨hchars ▸ List.take_prefix _ _, ?_⟩
          intro other hother hk
          rw [hchars, List.length_take]
          exact Nat.le_min.mpr ⟨hk, hother.length_le⟩
      · next hnone =>
          obtain ⟨hp, hmax⟩ := ih h
          refine ⟨hp, ?_⟩
          intro other hother hk
          rcases Nat.lt_or_ge k other.chars.length with hlt | hge
          · obtain ⟨r, rfl⟩ := hother
            rw [show k + 1 = other.chars.length by omega, List.take_left, ofChars?_chars] at hnone
            exact absurd hnone (by simp)
          · exact hmax other hother hge

/-- Every symbol character is a symbol by itself. -/
theorem exists_of_isSymbolChar {c : Char} (h : isSymbolChar c = true) :
    ∃ sym : Symbol, ofChars? [c] = some sym := by
  have hall : symbolChars.all (fun c => (ofChars? [c]).isSome) = true := by decide
  exact Option.isSome_iff_exists.mp (List.all_eq_true.mp hall c (List.contains_iff_mem.mp h))

theorem longest?_ne_none {c : Char} (h : isSymbolChar c = true) (u : List Char) (k : Nat) :
    longest? (c :: u) (k + 1) ≠ none := by
  induction k with
  | zero =>
      obtain ⟨sym, hsym⟩ := exists_of_isSymbolChar h
      simp [longest?, hsym]
  | succ k ih =>
      rw [longest?]
      split
      · simp
      · exact ih

/-- Of the symbols that a text begins with, any two differ in length. -/
theorem Longest.length_lt {sym other : Symbol} {cs : List Char} (hmax : sym.Longest cs)
    (hsym : sym.chars <+: cs) (hother : other.chars <+: cs) (hne : other ≠ sym) :
    other.chars.length < sym.chars.length := by
  refine Nat.lt_of_le_of_ne (hmax other hother) ?_
  intro hlen
  have hfront := List.prefix_of_prefix_length_le hother hsym (Nat.le_of_eq hlen)
  exact hne (chars_injective (hfront.eq_of_length hlen))

end Symbol

namespace Source

variable {s : Source} {n : Nat}

theorem scanSymbol_of_longest {sym : Symbol} {r : List Char} (hs : s.rest n = sym.chars ++ r)
    (hmax : sym.Longest (sym.chars ++ r)) :
    s.scanSymbol n = ⟨.symbol sym, sym.chars, n + sym.chars.length⟩ := by
  have hrun : sym.chars.length ≤ runLength isSymbolChar (sym.chars ++ r) :=
    Symbol.length_le_run ⟨r, rfl⟩
  simp only [scanSymbol, hs, Symbol.longest?_of_longest hmax hrun, cut_of_append hs]

theorem exists_longest_of_scanSymbol (h : (s.scanSymbol n).kind ≠ .error) :
    ∃ sym r, s.rest n = sym.chars ++ r ∧ sym.Longest (sym.chars ++ r) ∧
      s.scanSymbol n = ⟨.symbol sym, sym.chars, n + sym.chars.length⟩ := by
  unfold scanSymbol at h ⊢
  simp only at h ⊢
  split at h
  · next sym hsym =>
      obtain ⟨⟨r, hr⟩, hmax⟩ := Symbol.longest_of_longest? hsym
      refine ⟨sym, r, hr.symm, ?_, cut_of_append hr.symm _⟩
      intro other hother
      rw [hr] at hother
      exact hmax other hother (Symbol.length_le_run hother)
  · exact absurd rfl h

/-- Where a symbol character stands, a symbol is found. -/
theorem scanSymbol_ne_error (h : isSymbolChar (peek (s.rest n)) = true) :
    (s.scanSymbol n).kind ≠ .error := by
  have hne : peek (s.rest n) ≠ endOfInput := by
    intro heq
    rw [heq] at h
    exact absurd h (by decide)
  obtain ⟨u, hu⟩ := eq_cons_of_peek rfl hne
  generalize peek (s.rest n) = c at h hu
  obtain ⟨k, hk⟩ : ∃ k, runLength isSymbolChar (c :: u) = k + 1 :=
    Nat.exists_eq_succ_of_ne_zero (Nat.ne_of_gt (runLength_pos h u))
  simp only [scanSymbol, hu, hk]
  split
  · simp [cut]
  · next hnone => exact absurd hnone (Symbol.longest?_ne_none h u k)

/-- Where no symbol character stands there is no run to shorten. -/
theorem scanSymbol_of_not_symbolChar (h : isSymbolChar (peek (s.rest n)) = false) :
    s.scanSymbol n = ⟨.error, [peek (s.rest n)], n⟩ := by
  have hrun : runLength isSymbolChar (s.rest n) = 0 := by
    have hstop := runLength_append (p := isSymbolChar) (l := []) (r := s.rest n) (by simp) h
    simpa using hstop
  simp only [scanSymbol, hrun, Symbol.longest?]

/-- Where a symbol character stands, the symbol read is the one symbol of the table that is
longer than all others the text begins with there, however far the run of symbol characters
goes. Anywhere else no symbol is read: an error token holds the character that stands there, or
the end mark past the end, and takes nothing of the text. -/
theorem scanSymbol_longest (s : Source) (n : Nat) :
    (isSymbolChar (s.charAt n) = true →
      ∃ sym : Symbol, sym.chars <+: s.rest n ∧
        (∀ other : Symbol, other.chars <+: s.rest n → other ≠ sym →
          other.chars.length < sym.chars.length) ∧
        s.scanSymbol n = ⟨.symbol sym, sym.chars, n + sym.chars.length⟩) ∧
      (isSymbolChar (s.charAt n) = false → s.scanSymbol n = ⟨.error, [s.charAt n], n⟩) ∧
      (s.length ≤ n → s.scanSymbol n = ⟨.error, [endOfInput], n⟩) := by
  rw [charAt_natCast]
  refine ⟨?_, scanSymbol_of_not_symbolChar, ?_⟩
  · intro h
    obtain ⟨sym, r, hr, hmax, hscan⟩ := exists_longest_of_scanSymbol (scanSymbol_ne_error h)
    have hfront : sym.chars <+: s.rest n := ⟨r, hr.symm⟩
    rw [← hr] at hmax
    exact ⟨sym, hfront, fun other hother hne => hmax.length_lt hfront hother hne, hscan⟩
  · intro h
    have hpeek : peek (s.rest n) = endOfInput := by rw [rest_length_le h, peek_nil]
    have hscan := scanSymbol_of_not_symbolChar (s := s) (n := n) (by rw [hpeek]; decide)
    rwa [hpeek] at hscan

/-- A run of five symbol characters that begins with three symbols, a character that belongs to
none, and the end of the text. -/
theorem scanSymbol_longest_in_run :
    let s : Source := .ofString "a<=>=-@"
    (isSymbolChar (s.charAt 1) = true ∧ isSymbolChar (s.charAt 6) = false ∧ s.length ≤ 7) ∧
      (∃ sym : Symbol, sym.chars <+: s.rest 1 ∧
        (∀ other : Symbol, other.chars <+: s.rest 1 → other ≠ sym →
          other.chars.length < sym.chars.length) ∧
        s.scanSymbol 1 = ⟨.symbol sym, sym.chars, 1 + sym.chars.length⟩) ∧
      s.scanSymbol 6 = ⟨.error, ['@'], 6⟩ ∧ s.scanSymbol 7 = ⟨.error, [endOfInput], 7⟩ := by
  intro s
  have h : isSymbolChar (s.charAt 1) = true ∧ isSymbolChar (s.charAt 6) = false ∧
      s.length ≤ 7 := by decide
  exact ⟨h, (scanSymbol_longest s 1).1 h.1, (scanSymbol_longest s 6).2.1 h.2.1,
    (scanSymbol_longest s 7).2.2 h.2.2⟩

end Source

end SqlLexis
