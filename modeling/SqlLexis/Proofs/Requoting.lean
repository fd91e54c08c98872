import SqlLexis.Proofs.Faults
import SqlLexis.Proofs.Lossless

/-!
# Reading back what was quoted

A quoted text is read in two passes: one loop looks for its end, and a second pass undoubles what
lies in between. `Source.Quotes` says without either of them what stands in the text: some content
with its quotes doubled, between quotes, and no further quote behind. `quoted_read_back` says that
the reader finds exactly this, so that quoting and reading are inverse to each other.
-/

namespace SqlLexis

open Source Quoted

variable {s : Source} {n m : Nat} {q : Char} {c u : List Char} {t : Token}

/-! ## One quoted text -/

/-- At `n` stands the content `c` between quotes `q`, every `q` in it doubled. What follows, from
`m` on, does not begin with `q`. -/
def Source.Quotes (s : Source) (q : Char) (n : Nat) (c : List Char) (m : Nat) : Prop :=
  ∃ r, s.rest n = wrap q c ++ r ∧ r.head? ≠ some q ∧ m = n + (wrap q c).length

namespace Source.Quotes

theorem slice (h : s.Quotes q n c m) : s.slice n m = wrap q c := by
  obtain ⟨r, hr, -, rfl⟩ := h
  exact slice_of_append hr

theorem scanChars (h : s.Quotes q n c m) (hq : q ≠ endOfInput) :
    s.scanChars n = .ok ⟨.chars, c, m⟩ := by
  obtain ⟨r, hr, hhead, rfl⟩ := h
  exact scanChars_of_wrap hq hr (mt (peek_eq_iff_head? hq r).mp hhead)

/-- A text is quoted in one way at most: the reader gives one answer. -/
theorem unique {c' : List Char} {m' : Nat} (h : s.Quotes q n c m) (h' : s.Quotes q n c' m')
    (hq : q ≠ endOfInput) : c = c' ∧ m = m' := by
  have hsame := Except.ok.inj ((h.scanChars hq).symm.trans (h'.scanChars hq))
  exact ⟨congrArg Token.literals hsame, congrArg Token.stop hsame⟩

end Source.Quotes

/-- Quoted content stands at `n` exactly if the quote there is closed. -/
theorem Source.exists_quotes_iff (hs : s.rest n = q :: u) :
    (∃ c m, s.Quotes q n c m) ↔ Closed q u := by
  constructor
  · rintro ⟨c, -, r, hr, hhead, -⟩
    rw [hs, wrap_append] at hr
    exact ⟨c, r, (List.cons.inj hr).2, hhead⟩
  · rintro ⟨c, r, rfl, hhead⟩
    exact ⟨c, _, r, by rw [hs, wrap_append], hhead, rfl⟩

theorem Source.scanChars_eq_ok_iff (hq : q ≠ endOfInput) (hs : s.rest n = q :: u) :
    s.scanChars n = .ok t ↔ t.kind = .chars ∧ s.Quotes q n t.literals t.stop := by
  constructor
  · intro h
    obtain ⟨c, r, hr, hpeek, rfl⟩ := exists_wrap_of_scanChars hs h
    exact ⟨rfl, r, hr, mt (peek_eq_iff_head? hq r).mpr hpeek, rfl⟩
  · rintro ⟨hk, h⟩
    rw [h.scanChars hq, ← hk]

/-- How a text is read at `n`, where the quote `q` stands. -/
structure Source.ReadsQuoted (s : Source) (q : Char) (n : Nat) : Prop where
  /-- The content and the end of what is quoted there are found, and nothing else is. -/
  reads : ∀ t, s.scanChars n = .ok t ↔ t.kind = .chars ∧ s.Quotes q n t.literals t.stop
  unique : ∀ c m c' m', s.Quotes q n c m → s.Quotes q n c' m' → c = c' ∧ m = m'
  /-- What was found, quoted again, is what stands there. -/
  requotes : ∀ t, s.scanChars n = .ok t → s.slice n t.stop = wrap q t.literals
  /-- The open quote is reported if nothing is quoted there. -/
  fails : ∀ e, s.scanChars n = .error e ↔
    (∀ c m, ¬ s.Quotes q n c m) ∧ e = s.fault (.unterminatedChars q) n

theorem Source.rest_of_getElem? (h : s.chars[n]? = some q) :
    s.rest n = q :: s.rest (n + 1) := by
  obtain ⟨hlt, hq⟩ := List.getElem?_eq_some_iff.mp h
  rw [rest, List.drop_eq_getElem_cons hlt, hq]
  rfl

theorem Source.readsQuoted (hat : s.chars[n]? = some q) (hq : q ≠ endOfInput) :
    s.ReadsQuoted q n where
  reads _ := scanChars_eq_ok_iff hq (rest_of_getElem? hat)
  unique _ _ _ _ h h' := h.unique h' hq
  requotes _ h := ((scanChars_eq_ok_iff hq (rest_of_getElem? hat)).mp h).2.slice
  fails e := by
    have hs := rest_of_getElem? hat
    rw [scanChars_eq_error_iff hq hs, ← exists_quotes_iff hs]
    simp only [not_exists]

/-! ## The lexer -/

variable {d : Dictionary} {f : Forms}

/-- Every token but the end is written behind the gap that the lexer stands in front of. -/
theorem Lexer.spells_of_next {l : Lexer} (hf : l.forms.BuiltIn) (h : l.next.1 = .ok t)
    (ht : t.kind ≠ .finish) :
    ∃ n, l.source.skipGap l.forms l.offset = .ok n ∧
      t.Spells l.forms (l.source.slice n t.stop) := by
  rw [next_fst] at h
  have hscan := scan_of_upcoming_ok h ht
  rw [scan] at hscan
  split at hscan
  · next n hskip =>
      obtain ⟨w, r, hr, hstop, hw⟩ := isLexeme_of_scanToken hf hscan ht
      refine ⟨n, hskip, ?_⟩
      rw [hstop, slice_of_append hr]
      exact hw.spells t.stop
  · exact absurd hscan (by simp)

/-- A text that is one quoted string is read as that string. -/
theorem tokenize_wrap (hf : f.BuiltIn) (hq : q = singleQuote ∨ q = doubleQuote) (c : List Char) :
    (Lexer.fresh ⟨wrap q c⟩ d f).tokenize.1 =
      .ok [⟨.chars, c, (wrap q c).length⟩, ⟨.finish, [], (wrap q c).length⟩] := by
  have hne : peek [] ≠ q := by
    rcases hq with rfl | rfl <;> decide
  have hr : Source.rest ⟨wrap q c⟩ 0 = [] ++ (wrap q c ++ []) := (List.append_nil _).symm
  have hend : Source.rest ⟨wrap q c⟩ (0 + ([] : List Char).length + (wrap q c).length) = [] :=
    rest_of_append (rest_of_append hr)
  have htiles : Tiles ⟨wrap q c⟩ d f 0 _ :=
    .token hr .nil (settled_quote hq _) (.string hq hne) (.finish hend .nil)
  show (Source.mk (wrap q c)).tokensFrom d f 0 = _
  simpa only [List.length_nil, Nat.add_zero, Nat.zero_add] using tokensFrom_of_tiles hf htiles

/-- Undoubling is the inverse of quoting. At any quote the reader finds what is quoted there, in
one way at most, and fails if nothing is. Whatever is put between quotes is read back, and the
content of any string that a lexer reads, quoted again, is the text it was read from. -/
theorem quoted_read_back :
    (∀ (s : Source) (n : Nat) (q : Char), s.chars[n]? = some q → q ≠ endOfInput →
      s.ReadsQuoted q n) ∧
    (∀ (d : Dictionary) (f : Forms) (q : Char) (c : List Char), f.BuiltIn →
      q = singleQuote ∨ q = doubleQuote →
      (Lexer.fresh ⟨wrap q c⟩ d f).tokenize.1 =
        .ok [⟨.chars, c, (wrap q c).length⟩, ⟨.finish, [], (wrap q c).length⟩]) ∧
    ∀ (l : Lexer) (t : Token), l.forms.BuiltIn → l.next.1 = .ok t → t.kind = .chars →
      ∃ n, l.source.skipGap l.forms l.offset = .ok n ∧
        (l.source.slice n t.stop = wrap singleQuote t.literals ∨
          l.source.slice n t.stop = wrap doubleQuote t.literals ∨
          l.forms.national = true ∧
            l.source.slice n t.stop = 'N' :: wrap singleQuote t.literals) := by
  refine ⟨?_, ?_, ?_⟩
  · intro s n q hat hq
    exact readsQuoted hat hq
  · intro d f q c hf hq
    exact tokenize_wrap hf hq c
  · intro l t hf h hk
    obtain ⟨n, hskip, hspells⟩ := Lexer.spells_of_next hf h (by simp [hk])
    refine ⟨n, hskip, ?_⟩
    simpa only [Token.Spells, hk] using hspells

/-- Six quotes in a row are two quotes in quotes, but from the second one on there are five and
none of them closes. A string holds the end mark, and a national string a single quote. -/
theorem quoted_read_back_runs :
    let s : Source := .ofString "''''''x"
    let d : Dictionary := .ofWords []
    let f : Forms := ⟨none, none, true, false⟩
    let c : List Char := [endOfInput, doubleQuote]
    let l := Lexer.fresh (.ofString " N'''' ") d f
    let t : Token := ⟨.chars, [singleQuote], 6⟩
    (s.ReadsQuoted singleQuote 0 ∧ s.Quotes singleQuote 0 [singleQuote, singleQuote] 6) ∧
      (s.ReadsQuoted singleQuote 1 ∧ ∀ c m, ¬ s.Quotes singleQuote 1 c m) ∧
      (Lexer.fresh ⟨wrap doubleQuote c⟩ d f).tokenize.1 =
        .ok [⟨.chars, c, 5⟩, ⟨.finish, [], 5⟩] ∧
      l.next.1 = .ok t ∧
      ∃ n, l.source.skipGap l.forms l.offset = .ok n ∧
        (l.source.slice n t.stop = wrap singleQuote t.literals ∨
          l.source.slice n t.stop = wrap doubleQuote t.literals ∨
          l.forms.national = true ∧
            l.source.slice n t.stop = 'N' :: wrap singleQuote t.literals) := by
  intro s d f c l t
  have hf : f.BuiltIn := ⟨.inl rfl, .inl rfl⟩
  have hsix := quoted_read_back.1 s 0 singleQuote rfl (by decide)
  have hfive := quoted_read_back.1 s 1 singleQuote rfl (by decide)
  have hnext : l.next.1 = .ok t := by decide +kernel
  refine ⟨⟨hsix, ?_⟩, ⟨hfive, ?_⟩, quoted_read_back.2.1 d f doubleQuote c hf (.inr rfl), hnext,
    quoted_read_back.2.2 l t hf hnext rfl⟩
  · exact ((hsix.reads ⟨.chars, [singleQuote, singleQuote], 6⟩).mp (by decide +kernel)).2
  · exact ((hfive.fails (s.fault (.unterminatedChars singleQuote) 1)).mp (by decide +kernel)).1

end SqlLexis
