import SqlLexis.Proofs.Faults
import SqlLexis.Proofs.Lockstep

/-!
# National strings and variables extend the plain forms

Both forms are tried before all others, and yet neither takes a text away from another rule.

Without national strings `N'…'` is read as a name and a string. With them it is read as the same
string, so one reading takes one step where the other takes two (`national_step`), and the tokens
of the first are those of the second with the marks left out: `joinNational`.

Without variables no token begins with `@`, so a reading that comes upon one fails there
(`variable_step`). A reading that does not fail in this way never comes upon one between tokens,
and variables change nothing in it.
-/

namespace SqlLexis

open Source Quoted

variable {s : Source} {d : Dictionary} {f : Forms} {n m : Nat} {t u : Token}

/-! ## Marks of national strings -/

/-- The name `N`, and a string that a single quote opens right behind it. -/
def Source.Marks (s : Source) (t u : Token) : Prop :=
  t.kind = .identifier ∧ t.literals = ['N'] ∧ u.kind = .chars ∧ peek (s.rest t.stop) = singleQuote

instance : Decidable (s.Marks t u) :=
  inferInstanceAs (Decidable (_ ∧ _ ∧ _ ∧ _))

/-- The tokens with every mark of a national string merged into its string. -/
def Source.joinNational (s : Source) : List Token → List Token
  | t :: u :: ts =>
      if s.Marks t u then u :: s.joinNational ts else t :: s.joinNational (u :: ts)
  | ts => ts

theorem joinNational_of_marks (h : s.Marks t u) (ts : List Token) :
    s.joinNational (t :: u :: ts) = u :: s.joinNational ts := by
  rw [joinNational, if_pos h]

theorem joinNational_of_not_marks (h : ∀ u, ¬ s.Marks t u) (ts : List Token) :
    s.joinNational (t :: ts) = t :: s.joinNational ts := by
  cases ts with
  | nil => rfl
  | cons u ts => rw [joinNational, if_neg (h u)]

theorem Keyword.text_ne_mark (k : Keyword) : k.text ≠ "N" := by
  cases k <;> decide

/-- The mark is reserved in no dictionary. -/
theorem Dictionary.classify_mark (d : Dictionary) : d.classify ['N'] .identifier = .identifier := by
  have hnone : d.find? ['N'] = none := by
    rw [find?, List.find?_eq_none]
    intro k _
    simpa [raise] using k.text_ne_mark
  rw [classify, hnone]

theorem Forms.BuiltIn.setNational (hf : f.BuiltIn) (b : Bool) :
    Forms.BuiltIn { f with national := b } :=
  ⟨hf.hint, hf.bindVariable⟩

/-! ## One step of two -/

theorem Lexeme.peek_ne_of_mark {joined : Bool} {k : TokenKind} {v l r : List Char}
    (h : Lexeme d f joined k v l r) (hnat : f.national = true) (hk : k = .identifier)
    (hv : v = ['N']) : peek r ≠ singleQuote := by
  cases h with
  | name _ _ _ _ hno =>
      subst hv
      simpa [startsNational, hnat] using hno
  | quotedName => exact absurd hv (by simp [wrap, nameQuote])
  | number =>
      split at hk <;> exact absurd hk (by simp)
  | _ => exact absurd hk (by simp)

/-- Where national strings are read, no name is the mark of one. -/
theorem not_marks_of_scanToken (hf : f.BuiltIn) (hnat : f.national = true)
    (h : s.scanToken d f n = .ok t) (u : Token) : ¬ s.Marks t u := by
  rintro ⟨hkind, hlit, -, hquote⟩
  obtain ⟨l, r, hl, hstop, hlex⟩ := isLexeme_of_scanToken hf h (by simp [hkind])
  rw [hstop, rest_of_append hl] at hquote
  exact hlex.peek_ne_of_mark hnat hkind hlit hquote

/-- What both readings do at a position: the same, or the one with national strings takes as one
token what the other takes as a mark and a string. -/
theorem national_step (hf : f.BuiltIn) (s : Source) (d : Dictionary) (n : Nat) :
    s.scanToken d { f with national := false } n = s.scanToken d { f with national := true } n ∨
    ∃ mark : Token, s.scanToken d { f with national := false } n = .ok mark ∧
      mark.kind ≠ .finish ∧
      s.skipGap { f with national := false } mark.stop = .ok mark.stop ∧
      s.scanToken d { f with national := false } mark.stop =
        s.scanToken d { f with national := true } n ∧
      ∀ t, s.scanToken d { f with national := true } n = .ok t → s.Marks mark t := by
  have hoff : ∀ cs, startsNational { f with national := false } cs = false := fun _ => rfl
  cases hnat : startsNational { f with national := true } (s.rest n) with
  | false =>
      left
      simp only [scanToken, beginsNational_eq, hoff, hnat]
      rfl
  | true =>
      right
      obtain ⟨hN, hq⟩ : peek (s.rest n) = 'N' ∧ peek ((s.rest n).drop 1) = singleQuote := by
        simpa [startsNational] using hnat
      obtain ⟨cs, hcs⟩ := eq_cons_of_peek hN (by decide)
      rw [hcs] at hq
      obtain ⟨r, rfl⟩ := eq_cons_of_peek hq (by decide)
      have hrest : s.rest (n + 1) = singleQuote :: r := by
        rw [rest_add, hcs]
        rfl
      have hstring := scanToken_of_national (d := d) (hf.setNational true) rfl hcs
      refine ⟨⟨.identifier, ['N'], n + 1⟩, ?_, by simp, ?_, ?_, ?_⟩
      · rw [scanToken_of_nameStart (hf.setNational false) (by rw [hcs]; rfl) (hoff _),
          scanName_of_run (w := ['N']) hcs (by decide) (by decide) (List.all_eq_true.mp rfl) rfl,
          d.classify_mark]
        rfl
      · exact skipGap_of_gap (hf.setNational false) (g := []) hrest .nil (settled_quote (.inl rfl) r)
      · rw [hstring]
        exact scanToken_of_quote (hf.setNational false) (.inl rfl) hrest
      · intro t ht
        exact ⟨rfl, rfl, kind_scanChars (hstring.symm.trans ht), by rw [hrest]; rfl⟩

/-- Reading with national strings gives what reading without them gives, every mark merged into
its string. -/
theorem tokensFrom_national (hf : f.BuiltIn) (s : Source) (d : Dictionary) (n : Nat) :
    s.tokensFrom d { f with national := true } n =
      (s.tokensFrom d { f with national := false } n).map s.joinNational := by
  have hgap : ∀ k, s.skipGap { f with national := false } k =
      s.skipGap { f with national := true } k := by
    intro k
    apply skipGap_congr <;> rfl
  induction n using tokensFrom_induction (s := s) (d := d) (f := { f with national := true }) with
  | gap n e hskip =>
      rw [tokensFrom_of_skip_error hskip, tokensFrom_of_skip_error ((hgap n).trans hskip)]
      rfl
  | error n m e hskip hscan =>
      have hskip' := (hgap n).trans hskip
      rw [tokensFrom_of_error hskip hscan]
      rcases national_step hf s d m with hsame | ⟨mark, hmark, hfin, hnone, hstring, -⟩
      · rw [tokensFrom_of_error hskip' (hsame.trans hscan)]
        rfl
      · rw [tokensFrom_of_token hskip' hmark hfin,
          tokensFrom_of_error hnone (hstring.trans hscan)]
        rfl
  | finish n m t hskip hscan ht =>
      have hskip' := (hgap n).trans hskip
      rw [tokensFrom_of_finish hskip hscan ht]
      rcases national_step hf s d m with hsame | ⟨mark, -, -, -, -, hmarks⟩
      · rw [tokensFrom_of_finish hskip' (hsame.trans hscan) ht]
        rfl
      · exact absurd ((hmarks t hscan).2.2.1.symm.trans ht) (by simp)
  | token n m t hskip hscan ht ih =>
      have hskip' := (hgap n).trans hskip
      rw [tokensFrom_of_token hskip hscan ht, ih]
      rcases national_step hf s d m with hsame | ⟨mark, hmark, hfin, hnone, hstring, hmarks⟩
      · have hno := not_marks_of_scanToken (hf.setNational true) rfl hscan
        have hjoin := joinNational_of_not_marks hno
        rw [tokensFrom_of_token hskip' (hsame.trans hscan) ht]
        cases s.tokensFrom d { f with national := false } t.stop with
        | error e => rfl
        | ok ts => exact congrArg Except.ok (hjoin ts).symm
      · have hjoin := joinNational_of_marks (hmarks t hscan)
        rw [tokensFrom_of_token hskip' hmark hfin,
          tokensFrom_of_token hnone (hstring.trans hscan) ht]
        cases s.tokensFrom d { f with national := false } t.stop with
        | error e => rfl
        | ok ts => exact congrArg Except.ok (hjoin ts).symm

/-! ## Variables -/

/-- What both readings do at a position: the same, unless an at sign stands there, at which the
one without variables fails. -/
theorem variable_step (hf : f.BuiltIn) (s : Source) (d : Dictionary) (n : Nat) :
    s.scanToken d { f with bindVariable := some Forms.atSign } n =
        s.scanToken d { f with bindVariable := none } n ∨
      ∃ e, s.scanToken d { f with bindVariable := none } n = .error e ∧
        e.cause = .unexpectedChar '@' := by
  have hon : Forms.BuiltIn { f with bindVariable := some Forms.atSign } := ⟨hf.hint, .inr rfl⟩
  have hoff : Forms.BuiltIn { f with bindVariable := none } := ⟨hf.hint, .inl rfl⟩
  by_cases hat : peek (s.rest n) = '@'
  · obtain ⟨cs, hcs⟩ := eq_cons_of_peek hat (by decide)
    exact .inr ⟨_, scanToken_of_stray hoff hcs rfl, rfl⟩
  · left
    simp only [scanToken, hon.not_beginsVariable hat, hoff.not_beginsVariable hat]
    rfl

/-- Unless reading without variables fails at an at sign, reading with them gives the same. -/
theorem tokensFrom_variable (hf : f.BuiltIn) (s : Source) (d : Dictionary) (n : Nat)
    (h : ∀ e, s.tokensFrom d { f with bindVariable := none } n = .error e →
      e.cause ≠ .unexpectedChar '@') :
    s.tokensFrom d { f with bindVariable := some Forms.atSign } n =
      s.tokensFrom d { f with bindVariable := none } n := by
  have hgap : ∀ k, s.skipGap { f with bindVariable := some Forms.atSign } k =
      s.skipGap { f with bindVariable := none } k := by
    intro k
    apply skipGap_congr <;> rfl
  induction n using tokensFrom_induction (s := s) (d := d) (f := { f with bindVariable := none })
    with
  | gap n e hskip =>
      rw [tokensFrom_of_skip_error hskip, tokensFrom_of_skip_error ((hgap n).trans hskip)]
  | error n m e hskip hscan =>
      have hout := tokensFrom_of_error hskip hscan
      rcases variable_step hf s d m with hsame | ⟨e', he', hcause⟩
      · rw [hout, tokensFrom_of_error ((hgap n).trans hskip) (hsame.trans hscan)]
      · obtain rfl := Except.error.inj (hscan.symm.trans he')
        exact absurd hcause (h e hout)
  | finish n m t hskip hscan ht =>
      rcases variable_step hf s d m with hsame | ⟨e, he, -⟩
      · rw [tokensFrom_of_finish hskip hscan ht,
          tokensFrom_of_finish ((hgap n).trans hskip) (hsame.trans hscan) ht]
      · exact absurd (hscan.symm.trans he) (by simp)
  | token n m t hskip hscan ht ih =>
      have hout := tokensFrom_of_token hskip hscan ht
      rcases variable_step hf s d m with hsame | ⟨e, he, -⟩
      · have hrest := ih fun e he => h e (by rw [hout, he]; rfl)
        rw [hout, tokensFrom_of_token ((hgap n).trans hskip) (hsame.trans hscan) ht, hrest]
      · exact absurd (hscan.symm.trans he) (by simp)

/-- With national strings the tokens are those without, every mark merged into its string, and the
errors are the same. With variables the outcome is the one without, unless that is a failure at
an at sign. -/
theorem tokenize_extended (hf : f.BuiltIn) (s : Source) (d : Dictionary) :
    (Lexer.fresh s d { f with national := true }).tokenize.1 =
        (Lexer.fresh s d { f with national := false }).tokenize.1.map s.joinNational ∧
      ((∀ e, (Lexer.fresh s d { f with bindVariable := none }).tokenize.1 = .error e →
          e.cause ≠ .unexpectedChar '@') →
        (Lexer.fresh s d { f with bindVariable := some Forms.atSign }).tokenize.1 =
          (Lexer.fresh s d { f with bindVariable := none }).tokenize.1) :=
  ⟨tokensFrom_national hf s d 0, tokensFrom_variable hf s d 0⟩

/-- A name that ends in `N`, a national string, the name `N` apart from a string, and at signs in a
string and in a comment. -/
theorem tokenize_extended_marks :
    let s : Source := .ofString "xN'a'N'b''@'N 'c'/*@*/"
    let d : Dictionary := .ofWords [.SELECT]
    let f : Forms := {}
    let b : Token := ⟨.chars, ['b', singleQuote, '@'], 12⟩
    let before : List Token := [⟨.identifier, ['x', 'N'], 2⟩, ⟨.chars, ['a'], 5⟩]
    let behind : List Token := [⟨.identifier, ['N'], 13⟩, ⟨.chars, ['c'], 17⟩, ⟨.finish, [], 22⟩]
    let plain := before ++ ⟨.identifier, ['N'], 6⟩ :: b :: behind
    f.BuiltIn ∧ (Lexer.fresh s d { f with national := false }).tokenize.1 = .ok plain ∧
      (Lexer.fresh s d { f with national := true }).tokenize.1 = .ok (before ++ b :: behind) ∧
      (∀ e, (Lexer.fresh s d { f with bindVariable := none }).tokenize.1 = .error e →
        e.cause ≠ .unexpectedChar '@') ∧
      (Lexer.fresh s d { f with bindVariable := some Forms.atSign }).tokenize.1 = .ok plain := by
  intro s d f b before behind plain
  have hf : f.BuiltIn := ⟨.inl rfl, .inl rfl⟩
  have hplain : (Lexer.fresh s d f).tokenize.1 = .ok plain := by decide +kernel
  have hno : ∀ e, (Lexer.fresh s d { f with bindVariable := none }).tokenize.1 = .error e →
      e.cause ≠ .unexpectedChar '@' := by
    intro e he
    exact absurd (hplain.symm.trans he) (by simp)
  obtain ⟨hnational, hvariable⟩ := tokenize_extended hf s d
  refine ⟨hf, hplain, ?_, hno, (hvariable hno).trans hplain⟩
  rw [hnational]
  exact congrArg (Except.map s.joinNational) hplain

end SqlLexis
