import SqlLexis.Proofs.Lookahead

/-!
# The grammar of decimal numbers

A numeral has five parts, and each is read where the one before it ends. `WellFormed` says
what the parts may be, `Ends` what may follow so that none of them goes on. Reading gives a
well-formed numeral that ends where reading stopped (`wellFormed_read`, `exists_ends_read`),
and a well-formed numeral is read back from any text in which it ends
(`read_lexeme_append`).
-/

namespace SqlLexis.Numeral

/-! ## The grammar -/

/-- What the parts of a numeral may be. -/
structure WellFormed (x : Numeral) : Prop where
  sign : x.sign = [] ∨ x.sign = ['-']
  whole : ∀ c ∈ x.whole, isDigit c = true
  fraction : x.fraction = [] ∨ ∃ ds, x.fraction = '.' :: ds ∧ ∀ c ∈ ds, isDigit c = true
  exponent : x.exponent = [] ∨ ∃ e sg ds, x.exponent = e :: (sg ++ ds) ∧
    (e = 'e' ∨ e = 'E') ∧ (sg = [] ∨ sg = ['+'] ∨ sg = ['-']) ∧
    ds ≠ [] ∧ ∀ c ∈ ds, isDigit c = true
  suffix : x.suffix = [] ∨ ∃ c, x.suffix = [c] ∧ (c = 'f' ∨ c = 'F' ∨ c = 'd' ∨ c = 'D')

/-- No part of the numeral goes on in `r`. A suffix shields the parts before it, an
exponent the fraction. -/
structure Ends (x : Numeral) (r : List Char) : Prop where
  digit : x.suffix = [] → isDigit (peek r) = false
  fraction : x.fraction = [] → x.exponent = [] → x.suffix = [] → fractionPart r = []
  dot : x.fraction = ['.'] → x.exponent = [] → x.suffix = [] → peek r ≠ '.'
  exponent : x.exponent = [] → x.suffix = [] → exponentPart r = []
  suffix : x.suffix = [] → suffixPart r = []
  name : x.suffix ≠ [] → isNameChar (peek r) = false

theorem isFloat_eq_false_iff {x : Numeral} :
    x.isFloat = false ↔ x.fraction = [] ∧ x.exponent = [] ∧ x.suffix = [] := by
  simp [isFloat, and_assoc]

/-- A number that is no floating point number is a sign and digits. -/
theorem lexeme_of_not_float {x : Numeral} (h : x.isFloat = false) :
    x.lexeme = x.sign ++ x.whole := by
  obtain ⟨hfraction, hexponent, hsuffix⟩ := isFloat_eq_false_iff.mp h
  simp only [lexeme, hfraction, hexponent, hsuffix, List.append_nil]

/-! ## Each part of a text -/

theorem signPart_eq (cs : List Char) : signPart cs = [] ∨ signPart cs = ['-'] := by
  unfold signPart
  split
  · exact Or.inr rfl
  · exact Or.inl rfl

theorem fractionPart_eq (cs : List Char) :
    fractionPart cs = [] ∨
      ∃ ds u, cs = '.' :: (ds ++ u) ∧ fractionPart cs = '.' :: ds ∧
        (∀ c ∈ ds, isDigit c = true) ∧ isDigit (peek u) = false ∧ (ds = [] → peek u ≠ '.') := by
  unfold fractionPart
  split
  · next cs =>
      split
      · exact Or.inl rfl
      · next hd =>
          obtain ⟨ds, u, rfl, -, hds, hu⟩ := exists_run (p := isDigit) (by decide) cs
          refine Or.inr ⟨ds, u, rfl, ?_, hds, hu, ?_⟩
          · rw [takeWhile_append_of_stop hds hu]
          · rintro rfl
            exact hd
  · exact Or.inl rfl

theorem exponentSign_eq (cs : List Char) :
    exponentSign cs = [] ∨ exponentSign cs = ['+'] ∨ exponentSign cs = ['-'] := by
  unfold exponentSign
  split
  · exact Or.inr (Or.inl rfl)
  · exact Or.inr (Or.inr rfl)
  · exact Or.inl rfl

theorem exponentPart_eq (cs : List Char) :
    exponentPart cs = [] ∨
      ∃ e sg ds u, cs = e :: (sg ++ ds) ++ u ∧ exponentPart cs = e :: (sg ++ ds) ∧
        (e = 'e' ∨ e = 'E') ∧ (sg = [] ∨ sg = ['+'] ∨ sg = ['-']) ∧
        ds ≠ [] ∧ (∀ c ∈ ds, isDigit c = true) ∧ isDigit (peek u) = false := by
  cases cs with
  | nil => exact Or.inl rfl
  | cons e cs =>
      simp only [exponentPart]
      split
      · next he =>
          split
          · exact Or.inl rfl
          · next hds =>
              have hcs := exponentSign_append cs
              obtain ⟨ds, u, hu, -, hall, hend⟩ :=
                exists_run (p := isDigit) (by decide) (cs.drop (exponentSign cs).length)
              rw [hu, takeWhile_append_of_stop hall hend] at hds ⊢
              refine Or.inr ⟨e, exponentSign cs, ds, u, ?_, rfl, he, exponentSign_eq cs, hds,
                hall, hend⟩
              rw [hu] at hcs
              rw [List.cons_append, List.append_assoc, hcs]
      · exact Or.inl rfl

theorem suffixPart_eq (cs : List Char) :
    suffixPart cs = [] ∨
      ∃ c u, cs = c :: u ∧ suffixPart cs = [c] ∧ (c = 'f' ∨ c = 'F' ∨ c = 'd' ∨ c = 'D') ∧
        isNameChar (peek u) = false := by
  cases cs with
  | nil => exact Or.inl rfl
  | cons c u =>
      simp only [suffixPart]
      split
      · next h => exact Or.inr ⟨c, u, rfl, rfl, h.1, h.2⟩
      · exact Or.inl rfl

/-! ## What reading gives -/

/-- The text is the numeral and what is left, and each part is what its reader finds in
front of the parts behind it. -/
theorem read_stages (cs : List Char) :
    ∃ x r, read cs = x ∧ cs = x.lexeme ++ r ∧ signPart cs = x.sign ∧
      (x.whole ++ (x.fraction ++ (x.exponent ++ (x.suffix ++ r)))).takeWhile isDigit = x.whole ∧
      fractionPart (x.fraction ++ (x.exponent ++ (x.suffix ++ r))) = x.fraction ∧
      exponentPart (x.exponent ++ (x.suffix ++ r)) = x.exponent ∧
      suffixPart (x.suffix ++ r) = x.suffix := by
  obtain ⟨a, ha⟩ : ∃ a, a = cs.drop (signPart cs).length := ⟨_, rfl⟩
  obtain ⟨b, hb⟩ : ∃ b, b = a.drop (a.takeWhile isDigit).length := ⟨_, rfl⟩
  obtain ⟨c, hc⟩ : ∃ c, c = b.drop (fractionPart b).length := ⟨_, rfl⟩
  obtain ⟨d, hd⟩ : ∃ d, d = c.drop (exponentPart c).length := ⟨_, rfl⟩
  obtain ⟨r, hr⟩ : ∃ r, r = d.drop (suffixPart d).length := ⟨_, rfl⟩
  have h0 : signPart cs ++ a = cs := ha ▸ signPart_append cs
  have h1 : a.takeWhile isDigit ++ b = a := hb ▸ takeWhile_append_drop isDigit a
  have h2 : fractionPart b ++ c = b := hc ▸ fractionPart_append b
  have h3 : exponentPart c ++ d = c := hd ▸ exponentPart_append c
  have h4 : suffixPart d ++ r = d := hr ▸ suffixPart_append d
  refine ⟨⟨signPart cs, a.takeWhile isDigit, fractionPart b, exponentPart c, suffixPart d⟩, r,
    ?_, ?_, rfl, ?_, ?_, ?_, ?_⟩
  · simp only [read, ← ha, ← hb, ← hc, ← hd]
  · simp only [lexeme, List.append_assoc]
    rw [h4, h3, h2, h1, h0]
  · simp only [h4, h3, h2, h1]
  · simp only [h4, h3, h2]
  · simp only [h4, h3]
  · simp only [h4]

theorem wellFormed_read (cs : List Char) : (read cs).WellFormed := by
  obtain ⟨x, r, rfl, -, hsign, hwhole, hfraction, hexponent, hsuffix⟩ := read_stages cs
  constructor
  · rw [← hsign]
    exact signPart_eq cs
  · intro c hc
    rw [← hwhole] at hc
    exact List.mem_takeWhile_imp hc
  · rcases fractionPart_eq _ with h | ⟨ds, u, -, h, hds, -⟩ <;> rw [hfraction] at h
    · exact Or.inl h
    · exact Or.inr ⟨ds, h, hds⟩
  · rcases exponentPart_eq _ with h | ⟨e, sg, ds, u, -, h, he, hsg, hne, hds, -⟩ <;>
      rw [hexponent] at h
    · exact Or.inl h
    · exact Or.inr ⟨e, sg, ds, h, he, hsg, hne, hds⟩
  · rcases suffixPart_eq _ with h | ⟨c, u, -, h, hc, -⟩ <;> rw [hsuffix] at h
    · exact Or.inl h
    · exact Or.inr ⟨c, h, hc⟩

/-- Reading stops where no part goes on. -/
theorem exists_ends_read (cs : List Char) :
    ∃ r, cs = (read cs).lexeme ++ r ∧ (read cs).Ends r := by
  obtain ⟨x, r, rfl, hcs, -, hwhole, hfraction, hexponent, hsuffix⟩ := read_stages cs
  refine ⟨r, hcs, ?_, ?_, ?_, ?_, ?_, ?_⟩
  · intro hs
    rw [hs, List.nil_append] at hwhole hfraction hexponent
    rcases exponentPart_eq _ with he | ⟨e, sg, ds, u, hu, he, -, -, -, -, hend⟩ <;>
      rw [hexponent] at he
    · rw [he, List.nil_append] at hwhole hfraction
      rcases fractionPart_eq _ with hf | ⟨ds, u, hu, hf, -, hend, -⟩ <;> rw [hfraction] at hf
      · rw [hf, List.nil_append] at hwhole
        exact stop_of_takeWhile_append (by decide) hwhole
      · rw [hf, List.cons_append, List.cons.injEq, List.append_cancel_left_eq] at hu
        rwa [hu.2]
    · rw [he, List.append_cancel_left_eq] at hu
      rwa [hu]
  · intro hf he hs
    rwa [hf, he, hs] at hfraction
  · intro hf he hs
    rw [hf, he, hs] at hfraction
    rcases fractionPart_eq _ with hf' | ⟨ds, u, hu, hf', -, -, hdot⟩ <;> rw [hfraction] at hf'
    · exact absurd hf' (by simp)
    · obtain rfl : ds = [] := by simpa using hf'.symm
      obtain rfl : r = u := by simpa using hu
      exact hdot rfl
  · intro he hs
    rwa [he, hs] at hexponent
  · intro hs
    rwa [hs] at hsuffix
  · intro hs
    rcases suffixPart_eq _ with h | ⟨c, u, hu, h, -, hend⟩ <;> rw [hsuffix] at h
    · exact absurd h hs
    · rw [h, List.cons_append, List.cons.injEq, List.nil_append] at hu
      rwa [hu.2]

/-! ## Reading a well-formed numeral back -/

section ReadBack

variable {x : Numeral} {r : List Char}

theorem suffixPart_suffix (hx : x.WellFormed) (hr : x.Ends r) :
    suffixPart (x.suffix ++ r) = x.suffix := by
  rcases hx.suffix with hs | ⟨c, hs, hc⟩
  · rw [hs]
    exact hr.suffix hs
  · have hname := hr.name (by simp [hs])
    rw [hs]
    exact if_pos ⟨hc, hname⟩

/-- No digit stands behind the exponent. -/
theorem not_digit_after_exponent (hx : x.WellFormed) (hr : x.Ends r) :
    isDigit (peek (x.suffix ++ r)) = false := by
  rcases hx.suffix with hs | ⟨c, hs, hc⟩
  · rw [hs]
    exact hr.digit hs
  · rw [hs]
    rcases hc with rfl | rfl | rfl | rfl <;> rfl

theorem exponentSign_append_digits {sg ds u : List Char} (hsg : sg = [] ∨ sg = ['+'] ∨ sg = ['-'])
    (hne : ds ≠ []) (hds : ∀ c ∈ ds, isDigit c = true) : exponentSign (sg ++ (ds ++ u)) = sg := by
  obtain ⟨d, ds, rfl⟩ := List.exists_cons_of_ne_nil hne
  rcases hsg with rfl | rfl | rfl
  · have hd : isDigit d = true := hds d List.mem_cons_self
    simp only [List.nil_append, List.cons_append, exponentSign]
    split
    · exact absurd hd (by simp_all [isDigit])
    · exact absurd hd (by simp_all [isDigit])
    · rfl
  · rfl
  · rfl

theorem exponentPart_exponent (hx : x.WellFormed) (hr : x.Ends r) :
    exponentPart (x.exponent ++ (x.suffix ++ r)) = x.exponent := by
  rcases hx.exponent with he | ⟨e, sg, ds, he, hletter, hsg, hne, hds⟩
  · rw [he, List.nil_append]
    rcases hx.suffix with hs | ⟨c, hs, hc⟩
    · rw [hs]
      exact hr.exponent he hs
    · rw [hs]
      rcases hc with rfl | rfl | rfl | rfl <;> rfl
  · have hrun := takeWhile_append_of_stop hds (not_digit_after_exponent hx hr)
    have hsign := exponentSign_append_digits (u := x.suffix ++ r) hsg hne hds
    rw [he, List.cons_append, List.append_assoc]
    simp only [exponentPart, if_pos hletter, hsign, List.drop_left, hrun, if_neg hne]

theorem not_digit_after_fraction (hx : x.WellFormed) (hr : x.Ends r) :
    isDigit (peek (x.exponent ++ (x.suffix ++ r))) = false := by
  rcases hx.exponent with he | ⟨e, sg, ds, he, hletter, -⟩
  · rw [he]
    exact not_digit_after_exponent hx hr
  · rw [he]
    rcases hletter with rfl | rfl <;> rfl

/-- Behind a fraction without digits there is no second dot. -/
theorem no_dot_after_fraction (hx : x.WellFormed) (hr : x.Ends r) (hf : x.fraction = ['.']) :
    peek (x.exponent ++ (x.suffix ++ r)) ≠ '.' := by
  rcases hx.exponent with he | ⟨e, sg, ds, he, hletter, -⟩
  · rcases hx.suffix with hs | ⟨c, hs, hc⟩
    · rw [he, hs]
      exact hr.dot hf he hs
    · rw [he, hs]
      rcases hc with rfl | rfl | rfl | rfl <;> simp
  · rw [he]
    rcases hletter with rfl | rfl <;> simp

theorem fractionPart_fraction (hx : x.WellFormed) (hr : x.Ends r) :
    fractionPart (x.fraction ++ (x.exponent ++ (x.suffix ++ r))) = x.fraction := by
  rcases hx.fraction with hf | ⟨ds, hf, hds⟩
  · rw [hf, List.nil_append]
    rcases hx.exponent with he | ⟨e, sg, ds, he, hletter, -⟩
    · rcases hx.suffix with hs | ⟨c, hs, hc⟩
      · rw [he, hs]
        exact hr.fraction hf he hs
      · rw [he, hs]
        rcases hc with rfl | rfl | rfl | rfl <;> rfl
    · rw [he]
      rcases hletter with rfl | rfl <;> rfl
  · have hrun := takeWhile_append_of_stop hds (not_digit_after_fraction hx hr)
    have hdot : peek (ds ++ (x.exponent ++ (x.suffix ++ r))) ≠ '.' := by
      cases ds with
      | nil => exact no_dot_after_fraction hx hr hf
      | cons d ds =>
          intro hd
          have hdigit := hds d List.mem_cons_self
          rw [show d = '.' from hd] at hdigit
          exact absurd hdigit (by decide)
    rw [hf, List.cons_append]
    simp only [fractionPart, if_neg hdot, hrun]

theorem not_digit_after_whole (hx : x.WellFormed) (hr : x.Ends r) :
    isDigit (peek (x.fraction ++ (x.exponent ++ (x.suffix ++ r)))) = false := by
  rcases hx.fraction with hf | ⟨ds, hf, -⟩
  · rw [hf]
    exact not_digit_after_fraction hx hr
  · rw [hf]
    rfl

/-- A numeral without sign does not begin with a minus. -/
theorem peek_ne_minus (hx : x.WellFormed) (hs : x.sign = []) (hne : x.lexeme ≠ []) :
    peek (x.lexeme ++ r) ≠ '-' := by
  obtain ⟨sign, whole, fraction, exponent, suffix⟩ := x
  obtain rfl : sign = [] := hs
  cases whole with
  | cons d whole =>
      intro hd
      have hdigit := hx.whole d List.mem_cons_self
      rw [show d = '-' from hd] at hdigit
      exact absurd hdigit (by decide)
  | nil =>
      rcases hx.fraction with rfl | ⟨ds, rfl, -⟩
      · rcases hx.exponent with rfl | ⟨e, sg, ds, rfl, hletter, -⟩
        · rcases hx.suffix with rfl | ⟨c, rfl, hc⟩
          · exact absurd rfl hne
          · rcases hc with rfl | rfl | rfl | rfl <;> simp [lexeme]
        · rcases hletter with rfl | rfl <;> simp [lexeme]
      · simp [lexeme]

theorem signPart_lexeme (hx : x.WellFormed) (hne : x.lexeme ≠ []) :
    signPart (x.lexeme ++ r) = x.sign := by
  rcases hx.sign with hs | hs
  · have hpeek := peek_ne_minus (r := r) hx hs hne
    rw [hs]
    unfold signPart
    split
    · next heq => exact absurd (congrArg peek heq) hpeek
    · rfl
  · simp [lexeme, hs, signPart]

/-- A numeral is read back wherever it ends. -/
theorem read_lexeme_append (hx : x.WellFormed) (hr : x.Ends r) (hne : x.lexeme ≠ []) :
    read (x.lexeme ++ r) = x := by
  have hsign := signPart_lexeme (r := r) hx hne
  have hafter : (x.lexeme ++ r).drop x.sign.length =
      x.whole ++ (x.fraction ++ (x.exponent ++ (x.suffix ++ r))) := by
    simp only [lexeme, List.append_assoc, List.drop_left]
  have hwhole := takeWhile_append_of_stop hx.whole (not_digit_after_whole hx hr)
  simp only [read, hsign, hafter, hwhole, List.drop_left, fractionPart_fraction hx hr,
    exponentPart_exponent hx hr, suffixPart_suffix hx hr]

end ReadBack

/-! ## Where a numeral ends -/

theorem fractionPart_of_clear {r : List Char} (h : Clear r) : fractionPart r = [] := by
  unfold fractionPart
  split
  · exact absurd rfl (h.peek_ne (c := '.') (by decide))
  · rfl

theorem exponentPart_of_clear {r : List Char} (h : Clear r) : exponentPart r = [] := by
  cases r with
  | nil => rfl
  | cons c r =>
      have hletter : ¬ (c = 'e' ∨ c = 'E') := by
        rintro (rfl | rfl) <;> exact absurd (h _ rfl) (by decide)
      exact if_neg hletter

theorem suffixPart_of_clear {r : List Char} (h : Clear r) : suffixPart r = [] := by
  cases r with
  | nil => rfl
  | cons c r =>
      refine if_neg ?_
      rintro ⟨rfl | rfl | rfl | rfl, -⟩ <;> exact absurd (h _ rfl) (by decide)

/-- Every numeral ends in front of a clear text. -/
theorem Ends.of_clear (x : Numeral) {r : List Char} (h : Clear r) : x.Ends r where
  digit _ := h.not_digit
  fraction _ _ _ := fractionPart_of_clear h
  dot _ _ _ := h.peek_ne (by decide)
  exponent _ _ := exponentPart_of_clear h
  suffix _ := suffixPart_of_clear h
  name _ := h.not_nameChar

theorem fractionPart_of_resembles {r r' : List Char} (h : Resembles r r')
    (hr : fractionPart r = []) : fractionPart r' = [] := by
  cases h with
  | apart _ _ hc => exact fractionPart_of_clear hc
  | @cons u u' c h =>
      by_cases hc : c = '.'
      · subst hc
        simp only [fractionPart] at hr ⊢
        split at hr
        · next hd => rw [if_pos (h.peek_eq_dot_iff.mpr hd)]
        · simp at hr
      · unfold fractionPart
        split
        · next heq => exact absurd (List.cons.inj heq).1 hc
        · rfl

/-- The digits of an exponent begin, or do not, alike in texts that look alike. -/
theorem digits_after_sign_of_resembles {u u' : List Char} (h : Resembles u u')
    (hu : isDigit (peek (u.drop (exponentSign u).length)) = false) :
    isDigit (peek (u'.drop (exponentSign u').length)) = false := by
  cases h with
  | @apart u u' _ _ hc =>
      have hsign : exponentSign u' = [] := by
        unfold exponentSign
        split
        · exact absurd rfl (hc.peek_ne (c := '+') (by decide))
        · exact absurd rfl (hc.peek_ne (c := '-') (by decide))
        · rfl
      rw [hsign]
      exact hc.not_digit
  | @cons v v' c h =>
      unfold exponentSign at hu ⊢
      split at hu
      · next heq =>
          obtain ⟨rfl, rfl⟩ := List.cons.inj heq
          exact h.isDigit_peek.trans hu
      · next heq =>
          obtain ⟨rfl, rfl⟩ := List.cons.inj heq
          exact h.isDigit_peek.trans hu
      · next hplus hminus =>
          split
          · next heq => exact absurd (congrArg (· :: v) (List.cons.inj heq).1) (hplus v)
          · next heq => exact absurd (congrArg (· :: v) (List.cons.inj heq).1) (hminus v)
          · exact hu

theorem exponentPart_cons_eq_nil_iff {c : Char} {u : List Char} :
    exponentPart (c :: u) = [] ↔
      ((c = 'e' ∨ c = 'E') → isDigit (peek (u.drop (exponentSign u).length)) = false) := by
  have hrun : (u.drop (exponentSign u).length).takeWhile isDigit = [] ↔
      isDigit (peek (u.drop (exponentSign u).length)) = false := by
    constructor
    · intro h
      exact stop_of_takeWhile_append (l := []) (by decide) h
    · intro h
      exact takeWhile_append_of_stop (l := []) (by simp) h
  simp only [exponentPart]
  split
  · next hc =>
      rw [← hrun]
      split
      · next hd => simp [hd]
      · next hd => simp [hd, hc]
  · next hc => simp [hc]

theorem exponentPart_of_resembles {r r' : List Char} (h : Resembles r r')
    (hr : exponentPart r = []) : exponentPart r' = [] := by
  cases h with
  | apart _ _ hc => exact exponentPart_of_clear hc
  | cons c h =>
      rw [exponentPart_cons_eq_nil_iff] at hr ⊢
      intro hc
      exact digits_after_sign_of_resembles h (hr hc)

theorem suffixPart_of_resembles {r r' : List Char} (h : Resembles r r')
    (hr : suffixPart r = []) : suffixPart r' = [] := by
  cases h with
  | apart _ _ hc => exact suffixPart_of_clear hc
  | cons c h =>
      simp only [suffixPart] at hr ⊢
      rwa [h.isNameChar_peek]

/-- A numeral ends in front of what looks like a text it ends in. -/
theorem Ends.of_resembles {x : Numeral} {r r' : List Char} (h : x.Ends r)
    (hr : Resembles r r') : x.Ends r' where
  digit hs := hr.isDigit_peek.trans (h.digit hs)
  fraction hf he hs := fractionPart_of_resembles hr (h.fraction hf he hs)
  dot hf he hs := fun hd => h.dot hf he hs (hr.peek_eq_dot_iff.mp hd)
  exponent he hs := exponentPart_of_resembles hr (h.exponent he hs)
  suffix hs := suffixPart_of_resembles hr (h.suffix hs)
  name hs := hr.isNameChar_peek.trans (h.name hs)

end SqlLexis.Numeral
