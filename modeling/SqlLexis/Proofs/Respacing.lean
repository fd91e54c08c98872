import SqlLexis.Proofs.Lossless

/-!
# Printing tokens back

The tokens of a text, written one after the other with a single space between them, are read
back as the same tokens: `tokenize_respaced`. Writing them apart changes what stands before
and behind every one of them, so this rests on `Lexeme.of_clear`, which says of each class
that a blank behind it makes no difference.

The one token that cannot be written apart is a number made of nothing but a minus. It is
read only in front of two dots, and alone it is a symbol.
-/

namespace SqlLexis

open Source

variable {s s' : Source} {d : Dictionary} {f : Forms} {n m : Nat}

/-! ## The texts of tokens -/

/-- What a token says, wherever it stands. -/
def Token.content (t : Token) : TokenKind × List Char := (t.kind, t.literals)

/-- Where the token behind position `n` begins. -/
def Source.startAfter (s : Source) (f : Forms) (n : Nat) : Nat :=
  match s.skipGap f n with
  | .ok m => m
  | .error _ => n

/-- The source texts of tokens that follow each other from `n` on, without the end. -/
def Source.lexemesFrom (s : Source) (f : Forms) (n : Nat) : List Token → List (List Char)
  | [] => []
  | t :: ts =>
      if t.kind = .finish then []
      else s.slice (s.startAfter f n) t.stop :: s.lexemesFrom f t.stop ts

/-- The tokens of a text written with single spaces between them. -/
def respaced (d : Dialect) (text : List Char) (ts : List Token) : List Char :=
  [' '].intercalate ((Source.mk text).lexemesFrom d.forms 0 ts)

theorem startAfter_of_gap (hf : f.BuiltIn) {g r : List Char} (hr : s.rest n = g ++ r)
    (hg : Gap f g r) (hs : Settled f r) : s.startAfter f n = n + g.length := by
  rw [startAfter, skipGap_of_gap hf hr hg hs]

theorem lexemesFrom_of_token (hf : f.BuiltIn) {k : TokenKind} {v g l r : List Char}
    {ts : List Token} (hr : s.rest n = g ++ (l ++ r)) (hg : Gap f g (l ++ r))
    (hs : Settled f (l ++ r)) (hk : k ≠ .finish) :
    s.lexemesFrom f n (⟨k, v, n + g.length + l.length⟩ :: ts) =
      l :: s.lexemesFrom f (n + g.length + l.length) ts := by
  rw [lexemesFrom, if_neg hk, startAfter_of_gap hf hr hg hs,
    slice_of_append (rest_of_append hr)]

/-- Every text but the first has a space in front. -/
theorem intercalate_space (l : List Char) (ls : List (List Char)) :
    [' '].intercalate (l :: ls) = l ++ ls.flatMap (' ' :: ·) := by
  induction ls generalizing l with
  | nil => simp
  | cons l' ls ih =>
      rw [List.intercalate_cons_cons, ih, List.flatMap_cons]
      simp

theorem clear_flatMap_space (ls : List (List Char)) : Clear (ls.flatMap (' ' :: ·)) := by
  cases ls with
  | nil => exact .nil
  | cons l ls => exact .cons (by decide) _

/-! ## A lone minus -/

/-- A number that is only a minus stands in front of two dots; one would have begun a fraction. -/
theorem Lexeme.dots_of_minus {joined : Bool} {k : TokenKind} {v l r : List Char}
    (h : Lexeme d f joined k v l r) (hk : k = .int) (hv : v = ['-']) : ['.', '.'] <+: r := by
  cases h with
  | @number x r hx hends hne hhex hnum =>
      obtain rfl := Numeral.minus_of_lexeme hx hv
      have hdigit : isDigit (peek r) = false := hends.digit rfl
      have hdot : peek r = '.' := by
        have hsign : (isDigit (peek r) || peek r == '.') = true :=
          (Bool.and_eq_true_iff.mp hnum).1
        simpa [hdigit] using hsign
      obtain ⟨u, rfl⟩ := eq_cons_of_peek hdot (by decide)
      have hsecondDot : peek u = '.' := by
        by_contra hne
        have hfraction := hends.fraction rfl rfl rfl
        rw [Numeral.fractionPart, if_neg hne] at hfraction
        exact absurd hfraction (by simp)
      obtain ⟨w, rfl⟩ := eq_cons_of_peek hsecondDot (by decide)
      exact ⟨w, rfl⟩
  | name =>
      rw [Dictionary.classify] at hk
      split at hk <;> exact absurd hk (by simp)
  | userVariable => exact absurd hk (by simp)
  | systemVariable => exact absurd hk (by simp)
  | national => exact absurd hk (by simp)
  | quotedName => exact absurd hk (by simp)
  | hex => exact absurd hk (by simp)
  | symbol => exact absurd hk (by simp)
  | string => exact absurd hk (by simp)

theorem Lexeme.lexeme_of_int {joined : Bool} {k : TokenKind} {v l r : List Char}
    (h : Lexeme d f joined k v l r) (hk : k = .int) : l = v := by
  have hspells := h.spells 0
  subst hk
  exact hspells.1

theorem Tiles.dots_of_minus {ts : List Token} (h : Tiles s d f n ts) :
    ∀ t ∈ ts, t.kind = .int → t.literals = ['-'] → ['.', '.'] <+: s.rest t.stop := by
  induction h with
  | finish =>
      intro t ht hk
      obtain rfl := List.mem_singleton.mp ht
      exact absurd hk (by simp)
  | token hr _ _ hl _ ih =>
      intro t ht hk hv
      rcases List.mem_cons.mp ht with rfl | ht
      · show ['.', '.'] <+: s.rest _
        rw [rest_of_append (rest_of_append hr)]
        exact hl.dots_of_minus hk hv
      · exact ih t ht hk hv

/-! ## Writing tokens apart -/

/-- One token written apart: a gap in front that ends no name and something clear behind. -/
theorem Tiles.token_apart {joined : Bool} {k : TokenKind} {v g l r r' : List Char}
    {ts : List Token} (hs : Settled f (l ++ r)) (hl : Lexeme d f joined k v l r)
    (hminus : k = .int → v ≠ ['-']) (hr' : s'.rest m = g ++ (l ++ r'))
    (hg : Gap f g (l ++ r')) (hfree : s'.followsName (m + g.length) = false) (hclear : Clear r')
    (hts : Tiles s' d f (m + g.length + l.length) ts) :
    Tiles s' d f m (⟨k, v, m + g.length + l.length⟩ :: ts) := by
  refine .token hr' hg (hs.of_clear hl.ne_nil hclear) ?_ hts
  rw [hfree]
  apply hl.of_clear hclear
  intro hk
  rw [hl.lexeme_of_int hk]
  exact hminus hk

/-- Tokens with a space in front of each are the same tokens. -/
theorem Tiles.exists_spaced (hf : f.BuiltIn) {ts : List Token} (h : Tiles s d f n ts)
    (hminus : ∀ t ∈ ts, t.kind = .int → t.literals ≠ ['-'])
    (hr' : s'.rest m = (s.lexemesFrom f n ts).flatMap (' ' :: ·)) :
    ∃ us, Tiles s' d f m us ∧ us.map Token.content = ts.map Token.content := by
  induction h generalizing m with
  | finish => exact ⟨_, .finish hr' .nil, rfl⟩
  | @token n k v g l r ts hr hg hs hl _ ih =>
      rw [lexemesFrom_of_token hf hr hg hs hl.kind_ne_finish, List.flatMap_cons] at hr'
      have hrest : s'.rest m = [' '] ++ (l ++ _) := hr'
      have hfree : s'.followsName (m + 1) = false := by
        rw [followsName_succ, hr']
        rfl
      obtain ⟨us, hus, hcontent⟩ := ih (fun t ht => hminus t (List.mem_cons_of_mem _ ht))
        (rest_of_append (rest_of_append hrest))
      refine ⟨_, token_apart hs hl (hminus _ List.mem_cons_self) hrest (.blank (by decide) .nil)
        hfree (clear_flatMap_space _) hus, ?_⟩
      rw [List.map_cons, List.map_cons, hcontent]
      rfl

theorem Tiles.exists_respaced (hf : f.BuiltIn) {ts : List Token} (h : Tiles s d f n ts)
    (hminus : ∀ t ∈ ts, t.kind = .int → t.literals ≠ ['-']) :
    ∃ us, Tiles ⟨[' '].intercalate (s.lexemesFrom f n ts)⟩ d f 0 us ∧
      us.map Token.content = ts.map Token.content := by
  cases h with
  | finish => exact ⟨_, .finish rfl .nil, rfl⟩
  | @token _ k v g l r ts hr hg hs hl htail =>
      rw [lexemesFrom_of_token hf hr hg hs hl.kind_ne_finish, intercalate_space]
      have hrest : (Source.mk (l ++ (s.lexemesFrom f (n + g.length + l.length) ts).flatMap
          (' ' :: ·))).rest 0 = [] ++ (l ++ _) := rfl
      obtain ⟨us, hus, hcontent⟩ := htail.exists_spaced hf
        (fun t ht => hminus t (List.mem_cons_of_mem _ ht)) (rest_of_append (rest_of_append hrest))
      refine ⟨_, token_apart hs hl (hminus _ List.mem_cons_self) hrest .nil (followsName_zero _)
        (clear_flatMap_space _) hus, ?_⟩
      rw [List.map_cons, List.map_cons, hcontent]
      rfl

/-- The tokens of a text, written with single spaces between them, are read back, unless one
of them is a lone minus; and that is read only in front of two dots. -/
theorem tokenize_respaced (d : Dialect) {text : List Char} {ts : List Token}
    (h : tokenize d text = .ok ts) :
    (∀ t ∈ ts, t.kind = .int → t.literals = ['-'] → ['.', '.'] <+: text.drop t.stop) ∧
      ((∀ t ∈ ts, t.kind = .int → t.literals ≠ ['-']) →
        ∃ us, tokenize d (respaced d text ts) = .ok us ∧
          us.map Token.content = ts.map Token.content) := by
  have hf := d.forms_builtIn
  rw [tokenize_eq_tokensFrom] at h
  have htiles := tiles_of_tokensFrom hf h
  refine ⟨htiles.dots_of_minus, ?_⟩
  intro hminus
  obtain ⟨us, hus, hcontent⟩ := htiles.exists_respaced hf hminus
  refine ⟨us, ?_, hcontent⟩
  rw [tokenize_eq_tokensFrom]
  exact tokensFrom_of_tiles hf hus

/-- A minus joined to a variable is a symbol, and stays one when a space comes in between. -/
theorem tokenize_respaced_joined_minus :
    let text := ['@', 'a', '-', '1']
    let ts : List Token := [⟨.bindVariable, ['@', 'a'], 2⟩, ⟨.symbol .sub, ['-'], 3⟩,
      ⟨.int, ['1'], 4⟩, ⟨.finish, [], 4⟩]
    tokenize .mysql text = .ok ts ∧ (∀ t ∈ ts, t.kind = .int → t.literals ≠ ['-']) ∧
      ∃ us, tokenize .mysql (respaced .mysql text ts) = .ok us ∧
        us.map Token.content = ts.map Token.content := by
  intro text ts
  have htext : tokenize .mysql text = .ok ts := by
    apply tokensFrom_of_tiles Dialect.mysql.forms_builtIn
    refine .token (g := []) (l := ['@', 'a']) rfl .nil ⟨by decide, by decide, by decide⟩ ?_ ?_
    · exact .userVariable (w := ['a']) rfl (List.all_eq_true.mp rfl) (by decide) (by decide)
    refine .token (g := []) (l := ['-']) rfl .nil ⟨by decide, by decide, by decide⟩ ?_ ?_
    · refine .symbol (by decide) ?_
      intro other hother
      cases other <;> first | decide | exact absurd hother (by decide)
    refine .token (g := []) (l := ['1']) rfl .nil ⟨by decide, by decide, by decide⟩ ?_ ?_
    · exact .number (Numeral.wellFormed_read ['1']) (.of_clear _ .nil) (by decide) (by decide)
        (by decide)
    exact .finish rfl .nil
  have hminus : ∀ t ∈ ts, t.kind = .int → t.literals ≠ ['-'] := by decide
  exact ⟨htext, hminus, (tokenize_respaced .mysql htext).2 hminus⟩

end SqlLexis
