import SqlLexis.Proofs.Stream

/-!
# Where reading fails

A reading fails in four ways and in no other: at a block that is never closed, at a character
that no token begins with, at a quote that is never closed, and at `0x` without a digit. `Faulty`
says so without a scanner; `next_fails` says that a lexer in any state fails exactly there and
names the cause and the place.

The two loops over a gap would fail at the same open block. It counts as a hint if the first
loop reaches it, with nothing but hints before it (`skipGap_of_open_hint`), and else as a comment
(`skipGap_of_open_comment`).

That nothing else fails rests on the symbol table: every symbol character is a symbol by itself
(`Symbol.exists_of_isSymbolChar`), so where a symbol is looked for one is found.
-/

namespace SqlLexis

open Source Quoted

/-! ## The grammar of faults -/

/-- A quoted text goes on with `cs` behind its opening quote and is closed, by a quote that no
other quote follows. -/
def Closed (q : Char) (cs : List Char) : Prop :=
  ∃ body r, cs = encode q body ++ q :: r ∧ r.head? ≠ some q

/-- A character that a token may begin with. -/
def startsToken (f : Forms) (c : Char) : Bool :=
  isLetter c || isDigit c || isSymbolChar c
    || ['_', '$', nameQuote, singleQuote, doubleQuote].contains c
    || (f.bindVariable.isSome && c == '@')

/-- What stands in front of a text and is no token: the cause, and how far from the front it
is reported. -/
inductive Broken (f : Forms) : List Char → LexicalError.Cause → Nat → Prop
  | stray {c : Char} {u : List Char} : isBlank c = false → startsToken f c = false →
      Broken f (c :: u) (.unexpectedChar c) 0
  | quote {q : Char} {u : List Char} : q ∈ [singleQuote, doubleQuote, nameQuote] →
      ¬ Closed q u → Broken f (q :: u) (.unterminatedChars q) 0
  | national {u : List Char} : f.national = true → ¬ Closed singleQuote u →
      Broken f ('N' :: singleQuote :: u) (.unterminatedChars singleQuote) 1
  | hex {u : List Char} : (∀ c ∈ u.head?, isHexDigit c = false) →
      Broken f ('0' :: 'x' :: u) .missingHexDigits 2

/-- A hint of the dialect begins with `cs`. -/
def Forms.opensHint (f : Forms) (cs : List Char) : Bool := f.beginsHint ⟨cs⟩ 0

/-- `g` is made of blanks and closed hints only, when `r` is what follows it. -/
inductive Hints (f : Forms) : List Char → List Char → Prop
  | nil {r : List Char} : Hints f [] r
  | blank {c : Char} {g r : List Char} : isBlank c = true → Hints f g r → Hints f (c :: g) r
  | block {body g r : List Char} :
      f.opensHint (['/', '*'] ++ body ++ ['*', '/'] ++ (g ++ r)) = true →
      ¬ ['*', '/'] <:+: body ++ ['*'] → Hints f g r →
      Hints f (['/', '*'] ++ body ++ ['*', '/'] ++ g) r

/-- Reading on from `n` fails for this cause at this position: a block in the gap is never
closed, or what stands behind the gap is no token. A block counts as a hint if it opens like one
and nothing but hints stands before it in the gap. -/
inductive Faulty (s : Source) (f : Forms) (n : Nat) : LexicalError.Cause → Nat → Prop
  | hint {g u : List Char} : s.rest n = g ++ '/' :: '*' :: u → ¬ ['*', '/'] <:+: u →
      Hints f g ('/' :: '*' :: u) → f.opensHint ('/' :: '*' :: u) = true →
      Faulty s f n .unterminatedHint (n + g.length)
  | comment {g u : List Char} : s.rest n = g ++ '/' :: '*' :: u → ¬ ['*', '/'] <:+: u →
      Gap f g ('/' :: '*' :: u) →
      ¬ (Hints f g ('/' :: '*' :: u) ∧ f.opensHint ('/' :: '*' :: u) = true) →
      Faulty s f n .unterminatedComment (n + g.length)
  | token {g r : List Char} {c : LexicalError.Cause} {k : Nat} : s.rest n = g ++ r →
      Gap f g r → Settled f r → Broken f r c k → Faulty s f n c (n + g.length + k)

variable {s : Source} {d : Dictionary} {f : Forms} {n m : Nat} {e : LexicalError}

/-! ## Open blocks -/

theorem Forms.BuiltIn.beginsHint_eq (hf : f.BuiltIn) (s : Source) (n : Nat) :
    f.beginsHint s n = f.opensHint (s.rest n) := by
  rcases hf.hint with hn | hn | hn <;> simp only [opensHint, beginsHint, hn]
  · rfl
  · rfl

theorem Hints.blanks {b g r : List Char} (hb : ∀ c ∈ b, isBlank c = true) (h : Hints f g r) :
    Hints f (b ++ g) r := by
  induction b with
  | nil => exact h
  | cons c b ih =>
      exact .blank (hb c List.mem_cons_self) (ih fun c hc => hb c (List.mem_cons_of_mem _ hc))

theorem skipHints_of_ok (hb : f.beginsHint s n = true) (h : s.skipHint n = .ok m) :
    s.skipHints f n = s.skipHints f (s.skipBlanks m) := by
  rw [skipHints, if_pos hb]
  split
  · next k hk =>
      obtain rfl : k = m := Except.ok.inj (hk.symm.trans h)
      rfl
  · next e he => exact absurd (he.symm.trans h) (by simp)

theorem skipHints_of_error (hb : f.beginsHint s n = true) (h : s.skipHint n = .error e) :
    s.skipHints f n = .error e := by
  rw [skipHints, if_pos hb]
  split
  · next k hk => exact absurd (hk.symm.trans h) (by simp)
  · next e' he => rw [Except.error.inj (he.symm.trans h)]

/-- The hint loop passes over blanks and hints. -/
theorem skipHints_of_hints (hf : f.BuiltIn) {g r : List Char} (h : Hints f g r)
    (hr : s.rest n = g ++ r) :
    s.skipHints f (s.skipBlanks n) = s.skipHints f (s.skipBlanks (n + g.length)) := by
  induction h generalizing n with
  | nil => rfl
  | @blank c g r hc _ ih =>
      have hr' : s.rest (n + 1) = g ++ r := by
        rw [rest_add, hr]
        rfl
      rw [skipBlanks_of_blank hr hc, ih hr', List.length_cons, Nat.add_right_comm, Nat.add_assoc]
  | @block body g r ho hb _ ih =>
      have hblock : s.rest n = ['/', '*'] ++ body ++ ['*', '/'] ++ (g ++ r) := by
        rw [hr, List.append_assoc]
      have hbegin : f.beginsHint s n = true := by rw [hf.beginsHint_eq, hblock, ho]
      rw [skipBlanks_of_not_blank (by rw [hblock]; rfl),
        skipHints_of_ok hbegin (skipBlock_of_first hblock hb), ih (rest_of_append hblock),
        Nat.add_assoc, ← List.length_append]

theorem block_of_skipBlock {c : LexicalError.Cause} {u : List Char}
    (hr : s.rest n = '/' :: '*' :: u) (h : s.skipBlock n c = .ok m) :
    ∃ body v, s.rest n = ['/', '*'] ++ body ++ ['*', '/'] ++ v ∧
      ¬ ['*', '/'] <:+: body ++ ['*'] ∧ m = n + (['/', '*'] ++ body ++ ['*', '/']).length := by
  have hafter : s.rest (n + 2) = u := by
    rw [rest_add, hr]
    rfl
  cases hclose : closeBlock u with
  | none =>
      rw [skipBlock, hafter, hclose] at h
      exact absurd h (by simp)
  | some k =>
      obtain ⟨body, v, rfl, rfl, hb⟩ := closeBlock_eq_some hclose
      have hblock : s.rest n = ['/', '*'] ++ body ++ ['*', '/'] ++ v := by simp [hr]
      rw [skipBlock_of_first hblock hb] at h
      exact ⟨body, v, hblock, hb, (Except.ok.inj h).symm⟩

/-- The hint loop fails only behind blanks and hints, where another hint opens. -/
theorem hints_of_skipHints_error (hf : f.BuiltIn)
    (h : s.skipHints f (s.skipBlanks n) = .error e) :
    ∃ g u, s.rest n = g ++ '/' :: '*' :: u ∧ Hints f g ('/' :: '*' :: u) ∧
      f.opensHint ('/' :: '*' :: u) = true ∧
      e = s.fault .unterminatedHint (n + g.length) := by
  generalize hm : s.skipBlanks n = m at h
  fun_induction skipHints s f m generalizing n with
  | case1 m hbegin k hk _ _ ih =>
      obtain ⟨b, r, hb, hrun, hblanks, -⟩ := exists_run isBlank_endOfInput (s.rest n)
      obtain rfl : n + b.length = m := by rw [← hm, skipBlanks, hrun]
      have hrest := rest_of_append hb
      obtain ⟨w, hw⟩ := hf.block_of_beginsHint hbegin
      obtain ⟨body, v, hblock, hfirst, rfl⟩ := block_of_skipBlock hw.symm hk
      obtain ⟨g, u, hg, hhints, hopen, he⟩ := ih rfl h
      obtain rfl : v = g ++ '/' :: '*' :: u := (rest_of_append hblock).symm.trans hg
      have ho := hbegin
      rw [hf.beginsHint_eq, hblock] at ho
      refine ⟨b ++ (['/', '*'] ++ body ++ ['*', '/'] ++ g), u, ?_,
        (Hints.block ho hfirst hhints).blanks hblanks, hopen, ?_⟩
      · rw [hb, ← hrest, hblock]
        simp only [List.append_assoc]
      · rw [he]
        simp only [List.length_append, Nat.add_assoc]
  | case2 m hbegin e' hskip =>
      obtain ⟨b, r, hb, hrun, hblanks, -⟩ := exists_run isBlank_endOfInput (s.rest n)
      obtain rfl : n + b.length = m := by rw [← hm, skipBlanks, hrun]
      obtain ⟨u, hu⟩ := hf.block_of_beginsHint hbegin
      obtain rfl : ['/', '*'] ++ u = r := hu.trans (rest_of_append hb)
      obtain ⟨rfl, -⟩ := skipBlock_fault_of_error hskip .unterminatedHint
      refine ⟨b, u, hb, ?_, ?_, (Except.error.inj h).symm⟩
      · rw [← List.append_nil b]
        exact Hints.nil.blanks hblanks
      · rw [hf.beginsHint_eq, ← hu] at hbegin
        exact hbegin
  | case3 m hbegin => exact absurd h (by simp)

theorem skipGap_of_open_hint (hf : f.BuiltIn) {g u : List Char}
    (hr : s.rest n = g ++ '/' :: '*' :: u) (hu : ¬ ['*', '/'] <:+: u)
    (hg : Hints f g ('/' :: '*' :: u)) (ho : f.opensHint ('/' :: '*' :: u) = true) :
    s.skipGap f n = .error (s.fault .unterminatedHint (n + g.length)) := by
  have hrest := rest_of_append hr
  have hbegin : f.beginsHint s (n + g.length) = true := by rw [hf.beginsHint_eq, hrest, ho]
  rw [skipGap, skipHints_of_hints hf hg hr, skipBlanks_of_not_blank (by rw [hrest]; rfl),
    skipHints_of_error hbegin (skipBlock_of_open hrest hu)]

/-- Both loops stop at the same block, so an open block that is no hint behind hints is reported
as a comment. -/
theorem skipGap_of_open_comment (hf : f.BuiltIn) {g u : List Char}
    (hr : s.rest n = g ++ '/' :: '*' :: u) (hu : ¬ ['*', '/'] <:+: u)
    (hg : Gap f g ('/' :: '*' :: u))
    (hno : ¬ (Hints f g ('/' :: '*' :: u) ∧ f.opensHint ('/' :: '*' :: u) = true)) :
    s.skipGap f n = .error (s.fault .unterminatedComment (n + g.length)) := by
  have hc := skipComments_of_open hr hg hu
  rw [skipGap]
  split
  · next k hk => rw [skipComments_of_skipHints hf hk, hc]
  · next e he =>
      obtain ⟨g', u', hr', hhints, hopen, rfl⟩ := hints_of_skipHints_error hf he
      obtain ⟨k, hfault, hk⟩ := skipComments_of_skipHints_error hf he
      have hoff : n + g'.length = k := congrArg LexicalError.offset hfault
      have hsameBlock : k = n + g.length :=
        congrArg LexicalError.offset (Except.error.inj (hk.symm.trans hc))
      obtain ⟨rfl, htail⟩ := List.append_inj (hr'.symm.trans hr) (by omega)
      rw [htail] at hhints hopen
      exact absurd ⟨hhints, hopen⟩ hno

/-! ## Quotes -/

theorem close_eq_none_iff {q : Char} (hq : q ≠ endOfInput) {cs : List Char} :
    close q cs = none ↔ ¬ Closed q cs := by
  constructor
  · rintro hnone ⟨body, r, rfl, hr⟩
    rw [close_encode hq (mt (peek_eq_iff_head? hq r).mp hr)] at hnone
    exact absurd hnone (by simp)
  · intro hopen
    cases hc : close q cs with
    | none => rfl
    | some k =>
        obtain ⟨body, r, hcs, -, hr⟩ := exists_of_close hc
        exact absurd ⟨body, r, hcs, mt (peek_eq_iff_head? hq r).mpr hr⟩ hopen

/-- A quoted text has no end exactly if it is not closed. -/
theorem quotedEnd_eq_error_iff {q : Char} (hq : q ≠ endOfInput) {u : List Char}
    (hs : s.rest n = q :: u) :
    s.quotedEnd q n = .error e ↔ ¬ Closed q u ∧ e = s.fault (.unterminatedChars q) n := by
  have hrest : s.rest (n + 1) = u := by
    rw [rest_add, hs]
    rfl
  rw [quotedEnd, hrest, ← close_eq_none_iff hq]
  cases close q u with
  | none => simp [eq_comm]
  | some k => simp

theorem scanChars_eq_error_iff {q : Char} (hq : q ≠ endOfInput) {u : List Char}
    (hs : s.rest n = q :: u) :
    s.scanChars n = .error e ↔ ¬ Closed q u ∧ e = s.fault (.unterminatedChars q) n := by
  have hpeek : peek (s.rest n) = q := by rw [hs, peek_cons]
  rw [← quotedEnd_eq_error_iff hq hs]
  simp only [scanChars, hpeek]
  cases s.quotedEnd q n <;> simp

/-- Only a name in quotes can fail. -/
theorem scanName_eq_error_iff :
    s.scanName d n = .error e ↔
      ∃ u, s.rest n = nameQuote :: u ∧ ¬ Closed nameQuote u ∧
        e = s.fault (.unterminatedChars nameQuote) n := by
  rw [scanName]
  split
  · next hq =>
      obtain ⟨u, hu⟩ := eq_cons_of_peek hq (by decide)
      have hend := quotedEnd_eq_error_iff (e := e) (q := nameQuote) (by decide) hu
      have hex : (∃ v, s.rest n = nameQuote :: v ∧ ¬ Closed nameQuote v ∧
          e = s.fault (.unterminatedChars nameQuote) n) ↔
          ¬ Closed nameQuote u ∧ e = s.fault (.unterminatedChars nameQuote) n := by
        simp [hu]
      rw [hex, ← hend]
      cases s.quotedEnd nameQuote n <;> simp
  · next hq =>
      constructor
      · intro h
        exact absurd h (by simp)
      · rintro ⟨u, hu, -⟩
        rw [hu] at hq
        exact absurd rfl hq

/-! ## Hexadecimal numbers -/

theorem scanHex_eq_error_iff {u : List Char} (hs : s.rest n = '0' :: 'x' :: u) :
    s.scanHex n = .error e ↔
      (∀ c ∈ u.head?, isHexDigit c = false) ∧ e = s.fault .missingHexDigits (n + 2) := by
  have hrest : s.rest (n + 2) = u := by
    rw [rest_add, hs]
    rfl
  have hrun : runLength isHexDigit u = 0 ↔ ∀ c ∈ u.head?, isHexDigit c = false := by
    cases u with
    | nil => simp
    | cons c u => cases hc : isHexDigit c <;> simp [runLength, hc]
  simp only [scanHex, hrest]
  rw [← hrun]
  split
  · next h0 => simp [h0, eq_comm]
  · next h0 => simp [h0]

/-! ## One token -/

/-- A character that no token begins with belongs to none of the classes. -/
theorem startsToken_eq_false_iff {c : Char} :
    startsToken f c = false ↔
      isNameStart c = false ∧ isDigit c = false ∧ isSymbolChar c = false ∧
        ¬ (c = singleQuote ∨ c = doubleQuote) ∧ ¬ (f.bindVariable.isSome = true ∧ c = '@') := by
  simp only [startsToken, isNameStart, ← Bool.not_eq_true, Bool.or_eq_true, Bool.and_eq_true,
    beq_iff_eq, List.contains_iff_mem, List.mem_cons, List.not_mem_nil, or_false]
  grind

theorem startsNumber_of_isDigit {joined : Bool} {cs : List Char} (h : isDigit (peek cs) = true) :
    startsNumber joined cs = true := by
  unfold startsNumber
  split
  · next hc => exact absurd h (by rw [hc]; decide)
  · next hc => exact absurd h (by rw [hc]; decide)
  · exact h

/-- Nothing begins with a stray character. -/
theorem scanToken_of_stray (hf : f.BuiltIn) {c : Char} {u : List Char} (hs : s.rest n = c :: u)
    (hc : startsToken f c = false) :
    s.scanToken d f n = .error (s.fault (.unexpectedChar c) n) := by
  obtain ⟨hname, hdigit, hsym, hquote, hat⟩ := startsToken_eq_false_iff.mp hc
  have hpeek : peek (s.rest n) = c := by rw [hs, peek_cons]
  have hne : ∀ x, isNameStart x = true ∨ isDigit x = true ∨ isSymbolChar x = true → c ≠ x := by
    rintro x hx rfl
    simp [hname, hdigit, hsym] at hx
  have hvar : f.beginsVariable s n = false := by
    rw [← Bool.not_eq_true, hf.beginsVariable_iff, hs]
    rintro ⟨hsome, r, hr⟩
    exact hat ⟨hsome, (List.cons.inj hr).1⟩
  have hnat : startsNational f (s.rest n) = false := by
    simp [startsNational, hpeek, hne 'N' (by decide)]
  have hhex := startsHex_of_peek_ne (hpeek ▸ hne '0' (by decide) : peek (s.rest n) ≠ '0')
  have hnum : startsNumber (s.followsName n) (s.rest n) = false := by
    rw [← Bool.not_eq_true]
    intro h
    rcases peek_of_startsNumber h with hd | hd | hd <;> rw [hpeek] at hd
    · simp [hdigit] at hd
    · exact hne '.' (by decide) hd
    · exact hne '-' (by decide) hd
  have hin : ¬ s.length ≤ n := by
    intro hle
    rw [rest_length_le hle] at hs
    exact absurd hs (by simp)
  simp only [scanToken, beginsNumber_eq, beginsHex_eq, beginsNational_eq, hvar, hnat, hhex, hnum,
    hpeek, hname, hsym, hquote, hin, Bool.false_eq_true, if_false]

/-- Where reading fails a token is broken, and a character that no rule takes begins no token. -/
theorem broken_of_scanToken (hf : f.BuiltIn) (hblank : isBlank (peek (s.rest n)) = false)
    (h : s.scanToken d f n = .error e) :
    ∃ c k, Broken f (s.rest n) c k ∧ e = s.fault c (n + k) := by
  simp only [scanToken, beginsNumber_eq, beginsHex_eq, beginsNational_eq] at h
  split at h
  · exact absurd h (by simp)
  next hvar =>
  split at h
  · next hn =>
      obtain ⟨⟨hnat, hN⟩, hq⟩ : (f.national = true ∧ peek (s.rest n) = 'N') ∧
          peek ((s.rest n).drop 1) = singleQuote := by simpa [startsNational] using hn
      obtain ⟨u, hu⟩ := eq_cons_of_peek hN (by decide)
      rw [hu] at hq
      obtain ⟨v, rfl⟩ := eq_cons_of_peek hq (by decide)
      have hrest : s.rest (n + 1) = singleQuote :: v := by
        rw [rest_add, hu]
        rfl
      obtain ⟨hopen, he⟩ := (scanChars_eq_error_iff (by decide) hrest).mp h
      rw [hu]
      exact ⟨_, 1, .national hnat hopen, he⟩
  split at h
  · obtain ⟨u, hu, hopen, he⟩ := scanName_eq_error_iff.mp h
    rw [hu]
    exact ⟨_, 0, .quote (by simp) hopen, he⟩
  next hname =>
  split at h
  · next hhex =>
      obtain ⟨h0, hx⟩ : peek (s.rest n) = '0' ∧ peek ((s.rest n).drop 1) = 'x' := by
        simpa [startsHex] using hhex
      obtain ⟨u, hu⟩ := eq_cons_of_peek h0 (by decide)
      rw [hu] at hx
      obtain ⟨v, rfl⟩ := eq_cons_of_peek hx (by decide)
      obtain ⟨hdigits, he⟩ := (scanHex_eq_error_iff hu).mp h
      rw [hu]
      exact ⟨_, 2, .hex hdigits, he⟩
  split at h
  · exact absurd h (by simp)
  next hnum =>
  split at h
  · next hsym =>
      rw [if_neg (scanSymbol_ne_error hsym)] at h
      exact absurd h (by simp)
  next hsym =>
  split at h
  · next hq =>
      have hne : peek (s.rest n) ≠ endOfInput := by
        rcases hq with hq | hq <;> rw [hq] <;> decide
      obtain ⟨u, hu⟩ := eq_cons_of_peek rfl hne
      obtain ⟨hopen, he⟩ := (scanChars_eq_error_iff hne hu).mp h
      rw [hu]
      refine ⟨_, 0, .quote ?_ hopen, he⟩
      rcases hq with hq | hq <;> simp [hq]
  next hquote =>
  split at h
  · exact absurd h (by simp)
  next hin =>
  cases hs : s.rest n with
  | nil =>
      have hl := s.length_rest n
      rw [hs, List.length_nil] at hl
      omega
  | cons c u =>
      have hpeek : peek (s.rest n) = c := by rw [hs, peek_cons]
      rw [hpeek] at h hname hsym hquote hblank
      have hdigit : isDigit c = false := by
        rw [← Bool.not_eq_true]
        intro hd
        exact hnum (startsNumber_of_isDigit (by rwa [hpeek]))
      have hat : ¬ (f.bindVariable.isSome = true ∧ c = '@') := by
        rintro ⟨hsome, rfl⟩
        exact hvar (hf.beginsVariable_iff.mpr ⟨hsome, u, hs⟩)
      have hstart : startsToken f c = false :=
        startsToken_eq_false_iff.mpr
          ⟨by simpa using hname, hdigit, by simpa using hsym, hquote, hat⟩
      exact ⟨_, 0, .stray hblank hstart, (Except.error.inj h).symm⟩

theorem scanToken_of_broken (hf : f.BuiltIn) {c : LexicalError.Cause} {k : Nat} {r : List Char}
    (hs : s.rest n = r) (h : Broken f r c k) :
    s.scanToken d f n = .error (s.fault c (n + k)) := by
  cases h with
  | stray _ hc => exact scanToken_of_stray hf hs hc
  | @quote q u hq hopen =>
      have hne : q ≠ endOfInput := by
        rintro rfl
        exact absurd hq (by decide)
      by_cases hname : q = nameQuote
      · subst hname
        have hnat : startsNational f (s.rest n) = false := by simp [startsNational, hs, nameQuote]
        rw [scanToken_of_nameStart hf (by rw [hs]; rfl) hnat]
        exact scanName_eq_error_iff.mpr ⟨u, hs, hopen, rfl⟩
      · have hquote : q = singleQuote ∨ q = doubleQuote := by simpa [hname] using hq
        rw [scanToken_of_quote hf hquote hs]
        exact (scanChars_eq_error_iff hne hs).mpr ⟨hopen, rfl⟩
  | @national u hnat hopen =>
      have hrest : s.rest (n + 1) = singleQuote :: u := by
        rw [rest_add, hs]
        rfl
      rw [scanToken_of_national hf hnat hs]
      exact (scanChars_eq_error_iff (by decide) hrest).mpr ⟨hopen, rfl⟩
  | hex hdigits =>
      rw [scanToken_of_startsHex hf (by rw [hs]; rfl)]
      exact (scanHex_eq_error_iff hs).mpr ⟨hdigits, rfl⟩

/-! ## One reading -/

namespace Lexer

variable {l : Lexer}

theorem next_fst (l : Lexer) : l.next.1 = l.upcoming := by
  rw [next]
  split
  · next t ht => rw [ht]
  · next e he => rw [he]

/-- A reading that fails does so where the grammar says. -/
theorem faulty_of_scan (hf : l.forms.BuiltIn) (h : l.scan = .error e) :
    e.input = l.source.chars ∧ Faulty l.source l.forms l.offset e.cause e.offset := by
  rw [scan] at h
  split at h
  · next m hskip =>
      obtain ⟨g, r, hr, hg, hs, rfl⟩ := gap_of_skipGap hf hskip
      have hrest := rest_of_append hr
      obtain ⟨c, k, hbroken, rfl⟩ := broken_of_scanToken hf (by rw [hrest]; exact hs.blank) h
      rw [hrest] at hbroken
      exact ⟨rfl, .token hr hg hs hbroken⟩
  · next e' hskip =>
      obtain ⟨g, u, c, hr, hg, hu, -, -⟩ := open_of_skipGap hf hskip
      obtain rfl := Except.error.inj h
      by_cases hh : Hints l.forms g ('/' :: '*' :: u) ∧ l.forms.opensHint ('/' :: '*' :: u) = true
      · rw [skipGap_of_open_hint hf hr hu hh.1 hh.2] at hskip
        obtain rfl := Except.error.inj hskip
        exact ⟨rfl, .hint hr hu hh.1 hh.2⟩
      · rw [skipGap_of_open_comment hf hr hu hg hh] at hskip
        obtain rfl := Except.error.inj hskip
        exact ⟨rfl, .comment hr hu hg hh⟩

/-- Where the grammar says so, reading fails. -/
theorem scan_of_faulty (hf : l.forms.BuiltIn) {c : LexicalError.Cause} {o : Nat}
    (h : Faulty l.source l.forms l.offset c o) : l.scan = .error (l.source.fault c o) := by
  cases h with
  | hint hr hu hg ho => rw [scan, skipGap_of_open_hint hf hr hu hg ho]
  | comment hr hu hg hno => rw [scan, skipGap_of_open_comment hf hr hu hg hno]
  | token hr hg hs hbroken =>
      rw [scan, skipGap_of_gap hf hr hg hs]
      exact scanToken_of_broken hf (rest_of_append hr) hbroken

end Lexer

/-- After any calls on a fresh lexer, unless the end has been read, the next reading fails
exactly if the text is faulty behind the position, with that cause, at that place and with the
whole text. Looking for a symbol never fails. -/
theorem next_fails (hf : f.BuiltIn) (s : Source) (d : Dictionary) (calls : List Lexer.Call)
    (hopen : Lexer.NotFinished ((Lexer.fresh s d f).after calls).current) :
    (∀ e, ((Lexer.fresh s d f).after calls).next.1 = .error e ↔
      e.input = s.chars ∧
        Faulty s f ((Lexer.fresh s d f).after calls).offset e.cause e.offset) ∧
    ∀ n, isSymbolChar (peek (s.rest n)) = true → (s.scanSymbol n).kind ≠ .error := by
  obtain ⟨hs, -, hforms⟩ := Lexer.after_input (Lexer.fresh s d f) calls
  have hnext := (Lexer.next_fst _).trans (Lexer.upcoming_of_notFinished hopen)
  generalize (Lexer.fresh s d f).after calls = l at hs hforms hnext
  obtain rfl : l.source = s := hs
  obtain rfl : l.forms = f := hforms
  rw [hnext]
  refine ⟨fun e => ⟨Lexer.faulty_of_scan hf, ?_⟩, fun _ h => scanSymbol_ne_error h⟩
  rintro ⟨hinput, hfaulty⟩
  rw [Lexer.scan_of_faulty hf hfaulty, Source.fault, ← hinput]

/-- A national string behind a hash comment, whose only quotes are doubled. -/
theorem next_fails_open_national :
    let f : Forms := ⟨some Forms.executableComment, some Forms.atSign, true, true⟩
    let s : Source := .ofString "x #1\nN'it''s"
    let l := (Lexer.fresh s (.ofWords [.SELECT]) f).after [.next]
    f.BuiltIn ∧ Lexer.NotFinished l.current ∧ l.offset = 1 ∧
      Faulty s f l.offset (.unterminatedChars singleQuote) 6 ∧
      l.next.1 = .error ⟨.unterminatedChars singleQuote, s.chars, 6⟩ := by
  intro f s l
  have hf : f.BuiltIn := ⟨.inr (.inl rfl), .inr rfl⟩
  have hcurrent : l.current = some ⟨.identifier, ['x'], 1⟩ := by decide +kernel
  have hoffset : l.offset = 1 := by decide +kernel
  have hopen : Lexer.NotFinished l.current := by
    intro t ht
    obtain rfl := Option.some.inj (hcurrent.symm.trans ht)
    simp
  have hgap : Gap f [' ', '#', '1', '\n'] "N'it''s".toList :=
    .blank (by decide) (@Gap.line f ['#'] ['1'] ['\n'] _ (by decide) (by decide)
      (by simp [LineEnd]) (.blank (by decide) .nil))
  have hclosed : ¬ Closed singleQuote "it''s".toList :=
    (close_eq_none_iff (by decide)).mp (by decide)
  have hfaulty : Faulty s f l.offset (.unterminatedChars singleQuote) 6 := by
    rw [hoffset]
    exact .token rfl hgap ⟨by decide, by decide, by decide⟩ (.national rfl hclosed)
  exact ⟨hf, hopen, hoffset, hfaulty, ((next_fails hf s _ [.next] hopen).1 _).mpr ⟨rfl, hfaulty⟩⟩

end SqlLexis
