import SqlLexis.Proofs.LexerState
import SqlLexis.Proofs.Lexeme

/-!
# Token streams

What tokenizing from a position gives, first as a recursion over gaps and tokens
(`tokensFrom`, which hides the lexer's state) and then, for the built-in forms, as a
derivation in the grammars of gaps and lexemes: `Tiles s d f n ts` says that the text from
`n` on is laid out as the tokens `ts`. `tokensFrom_eq_ok_iff` says that the two are the same.
-/

namespace SqlLexis

/-! ## Tokenizing from a position -/

/-- The tokens from position `n` on, the end included, or the first error. -/
def Source.tokensFrom (s : Source) (d : Dictionary) (f : Forms) (n : Nat) :
    Except LexicalError (List Token) :=
  (Lexer.tokenize ⟨s, d, f, n, none, false⟩).1

theorem tokenize_eq_tokensFrom (d : Dialect) (text : List Char) :
    tokenize d text = (Source.mk text).tokensFrom d.dictionary d.forms 0 := rfl

namespace Lexer

/-- Something other than the end was read last, or nothing. -/
def NotFinished (current : Option Token) : Prop :=
  ∀ t, current = some t → t.kind ≠ .finish

theorem upcoming_of_notFinished {l : Lexer} (h : NotFinished l.current) :
    l.upcoming = l.scan := by
  rw [upcoming]
  split
  · next t ht => exact if_neg (h t ht)
  · rfl

/-- Unless the end was read, reading on does not depend on what was read last. -/
theorem run_change_current {l : Lexer} (hl : NotFinished l.current) {current : Option Token}
    (hc : NotFinished current) (b : Bool) :
    (run { l with current := current, halted := b }).tokens = l.run.tokens ∧
      (run { l with current := current, halted := b }).fault = l.run.fault := by
  have hup : ∀ l : Lexer, NotFinished l.current → ∀ o, l.upcoming = o →
      ∀ current, NotFinished current →
      upcoming { l with current := current, halted := b } = o := by
    intro l hl o ho current hc
    rw [upcoming_of_notFinished hl] at ho
    rw [upcoming_of_notFinished hc]
    exact ho
  induction l using run_induction generalizing current with
  | error l e hu =>
      rw [run_of_error hu, run_of_error (hup l hl _ hu current hc)]
      exact ⟨rfl, rfl⟩
  | finish l t hu ht =>
      rw [run_of_finish hu ht, run_of_finish (hup l hl _ hu current hc) ht]
      exact ⟨rfl, rfl⟩
  | token l t hu ht ih =>
      have hopen : NotFinished (some t) := by
        intro u hu
        obtain rfl := Option.some.inj hu
        exact ht
      obtain ⟨h1, h2⟩ := ih hopen hopen
      rw [run_of_token hu ht, run_of_token (hup l hl _ hu current hc) ht]
      exact ⟨congrArg (t :: ·) h1, h2⟩

theorem tokenize_change_current {l : Lexer} (hl : NotFinished l.current)
    {current : Option Token} (hc : NotFinished current) (b : Bool) :
    (tokenize { l with current := current, halted := b }).1 = l.tokenize.1 := by
  obtain ⟨h1, h2⟩ := run_change_current hl hc b
  simp only [tokenize, h1, h2]
  cases l.run.fault <;> rfl

theorem tokenize_of_error {l : Lexer} {e : LexicalError} (h : l.upcoming = .error e) :
    l.tokenize.1 = .error e := by
  rw [tokenize, run_of_error h]

theorem tokenize_of_finish {l : Lexer} {t : Token} (h : l.upcoming = .ok t)
    (ht : t.kind = .finish) : l.tokenize.1 = .ok [t] := by
  rw [tokenize, run_of_finish h ht]

theorem tokenize_of_token {l : Lexer} {t : Token} (h : l.upcoming = .ok t)
    (ht : t.kind ≠ .finish) : l.tokenize.1 = (l.advance t).tokenize.1.map (t :: ·) := by
  simp only [tokenize, run_of_token h ht]
  cases (l.advance t).run.fault <;> rfl

end Lexer

namespace Source

open Lexer

variable {s : Source} {d : Dictionary} {f : Forms} {n m : Nat} {t : Token} {e : LexicalError}

theorem tokensFrom_of_skip_error (h : s.skipGap f n = .error e) :
    s.tokensFrom d f n = .error e := by
  apply tokenize_of_error
  simp only [upcoming, scan, h]

theorem tokensFrom_of_error (hg : s.skipGap f n = .ok m) (h : s.scanToken d f m = .error e) :
    s.tokensFrom d f n = .error e := by
  apply tokenize_of_error
  simp only [upcoming, scan, hg, h]

theorem tokensFrom_of_finish (hg : s.skipGap f n = .ok m) (h : s.scanToken d f m = .ok t)
    (ht : t.kind = .finish) : s.tokensFrom d f n = .ok [t] := by
  refine tokenize_of_finish ?_ ht
  simp only [upcoming, scan, hg, h]

theorem tokensFrom_of_token (hg : s.skipGap f n = .ok m) (h : s.scanToken d f m = .ok t)
    (ht : t.kind ≠ .finish) :
    s.tokensFrom d f n = (s.tokensFrom d f t.stop).map (t :: ·) := by
  have hup : upcoming ⟨s, d, f, n, none, false⟩ = .ok t := by
    simp only [upcoming, scan, hg, h]
  have hnone : NotFinished none := by simp [NotFinished]
  have hsome : NotFinished (some t) := by
    intro u hu
    obtain rfl := Option.some.inj hu
    exact ht
  have hrest : (Lexer.tokenize ⟨s, d, f, t.stop, some t, false⟩).1 = s.tokensFrom d f t.stop :=
    tokenize_change_current (l := ⟨s, d, f, t.stop, none, false⟩) hnone hsome false
  rw [tokensFrom, tokenize_of_token hup ht]
  exact congrArg (Except.map (t :: ·)) hrest

/-- To show something of the positions from which a text is read, show it where reading stops
and carry it back over one token. -/
theorem tokensFrom_induction {P : Nat → Prop}
    (gap : ∀ n e, s.skipGap f n = .error e → P n)
    (error : ∀ n m e, s.skipGap f n = .ok m → s.scanToken d f m = .error e → P n)
    (finish : ∀ n m t, s.skipGap f n = .ok m → s.scanToken d f m = .ok t → t.kind = .finish →
      P n)
    (token : ∀ n m t, s.skipGap f n = .ok m → s.scanToken d f m = .ok t → t.kind ≠ .finish →
      P t.stop → P n)
    (n : Nat) : P n := by
  induction hk : s.length - n using Nat.strongRecOn generalizing n with
  | ind k ih =>
      subst hk
      cases hskip : s.skipGap f n with
      | error e => exact gap n e hskip
      | ok m =>
          cases hscan : s.scanToken d f m with
          | error e => exact error n m e hskip hscan
          | ok t =>
              by_cases ht : t.kind = .finish
              · exact finish n m t hskip hscan ht
              · have hle := le_of_skipGap hskip
                have hbounds := scanToken_bounds hscan ht
                exact token n m t hskip hscan ht (ih _ (by omega) t.stop rfl)

end Source

/-! ## Texts laid out as tokens -/

/-- The text from `n` on is laid out as the given tokens: a gap and a lexeme for each, and a
gap up to the end of the text for the last. -/
inductive Tiles (s : Source) (d : Dictionary) (f : Forms) : Nat → List Token → Prop
  | finish {n : Nat} {g : List Char} : s.rest n = g → Gap f g [] →
      Tiles s d f n [⟨.finish, [], n + g.length⟩]
  | token {n : Nat} {k : TokenKind} {v g l r : List Char} {ts : List Token} :
      s.rest n = g ++ (l ++ r) → Gap f g (l ++ r) → Settled f (l ++ r) →
      Lexeme d f (s.followsName (n + g.length)) k v l r →
      Tiles s d f (n + g.length + l.length) ts →
      Tiles s d f n (⟨k, v, n + g.length + l.length⟩ :: ts)

theorem settled_nil (f : Forms) : Settled f [] where
  blank := isBlank_endOfInput
  block := by simp
  line o ho hp := by
    obtain rfl := List.prefix_nil.mp hp
    rcases mem_lineOpeners ho with h | h | ⟨-, h⟩ <;> exact absurd h (by simp)

/-- A quote stands in front of no gap. -/
theorem settled_quote {f : Forms} {q : Char} (hq : q = singleQuote ∨ q = doubleQuote)
    (cs : List Char) : Settled f (q :: cs) where
  blank := by rcases hq with rfl | rfl <;> rfl
  block := by rcases hq with rfl | rfl <;> simp [singleQuote, doubleQuote]
  line o ho := by
    rcases mem_lineOpeners ho with rfl | rfl | ⟨-, rfl⟩ <;>
      rcases hq with rfl | rfl <;> simp [singleQuote, doubleQuote]

theorem Lexeme.kind_ne_finish {d : Dictionary} {f : Forms} {joined : Bool} {k : TokenKind}
    {v l r : List Char} (h : Lexeme d f joined k v l r) : k ≠ .finish := by
  cases h with
  | name =>
      rw [Dictionary.classify]
      split <;> simp
  | number => split <;> simp
  | userVariable => simp
  | systemVariable => simp
  | national => simp
  | quotedName => simp
  | hex => simp
  | symbol => simp
  | string => simp

namespace Source

variable {s : Source} {d : Dictionary} {f : Forms} {n : Nat} {ts : List Token}

/-- Past its text a source scans the end. -/
theorem scanToken_of_rest_nil (hf : f.BuiltIn) (h : s.rest n = []) :
    s.scanToken d f n = .ok ⟨.finish, [], n⟩ := by
  have hlen : s.length ≤ n := by
    have hl := s.length_rest n
    rw [h] at hl
    simp at hl
    omega
  have hword : NotWord (peek (s.rest n)) := by
    rw [h]
    exact ⟨by decide, by decide, by decide⟩
  rw [scanToken_of_notWord hf hword, h]
  simp only [hlen, if_true]
  rfl

theorem tokensFrom_of_tiles (hf : f.BuiltIn) (h : Tiles s d f n ts) :
    s.tokensFrom d f n = .ok ts := by
  induction h with
  | @finish n g hr hg =>
      have hr' : s.rest n = g ++ [] := by rw [hr, List.append_nil]
      exact tokensFrom_of_finish (skipGap_of_gap hf hr' hg (settled_nil f))
        (scanToken_of_rest_nil hf (rest_of_append hr')) rfl
  | token hr hg hs hl _ ih =>
      have hscan := scanToken_of_lexeme hf (rest_of_append hr) hl
      rw [tokensFrom_of_token (skipGap_of_gap hf hr hg hs) hscan hl.kind_ne_finish, ih]
      rfl

theorem tiles_of_tokensFrom (hf : f.BuiltIn) (h : s.tokensFrom d f n = .ok ts) :
    Tiles s d f n ts := by
  induction n using tokensFrom_induction (s := s) (d := d) (f := f) generalizing ts with
  | gap n e hskip =>
      rw [tokensFrom_of_skip_error hskip] at h
      exact absurd h (by simp)
  | error n m e hskip hscan =>
      rw [tokensFrom_of_error hskip hscan] at h
      exact absurd h (by simp)
  | finish n m t hskip hscan ht =>
      obtain ⟨g, r, hr, hg, -, rfl⟩ := gap_of_skipGap hf hskip
      obtain ⟨hlen, rfl⟩ := (kind_scanToken hscan).2 ht
      obtain rfl : r = [] := by
        rw [← rest_of_append hr]
        exact rest_length_le hlen
      rw [tokensFrom_of_finish hskip hscan ht] at h
      rw [← Except.ok.inj h]
      exact .finish (by rw [hr, List.append_nil]) hg
  | token n m t hskip hscan ht ih =>
      obtain ⟨g, r, hr, hg, hs, rfl⟩ := gap_of_skipGap hf hskip
      rw [tokensFrom_of_token hskip hscan ht] at h
      obtain ⟨us, hus, rfl⟩ : ∃ us, s.tokensFrom d f t.stop = .ok us ∧ t :: us = ts := by
        cases hrest : s.tokensFrom d f t.stop with
        | error e =>
            rw [hrest] at h
            exact absurd h (by simp [Except.map])
        | ok us =>
            rw [hrest] at h
            exact ⟨us, rfl, Except.ok.inj h⟩
      obtain ⟨l, r', hl, hstop, hlex⟩ := isLexeme_of_scanToken hf hscan ht
      obtain rfl : r = l ++ r' := (rest_of_append hr).symm.trans hl
      have htail := ih hus
      rw [hstop] at htail
      obtain ⟨kind, literals, stop⟩ := t
      obtain rfl : stop = n + g.length + l.length := hstop
      exact .token hr hg hs hlex htail

/-- Tokenizing succeeds with `ts` exactly if the text is laid out as `ts`. -/
theorem tokensFrom_eq_ok_iff (hf : f.BuiltIn) :
    s.tokensFrom d f n = .ok ts ↔ Tiles s d f n ts :=
  ⟨tiles_of_tokensFrom hf, tokensFrom_of_tiles hf⟩

end Source

end SqlLexis
