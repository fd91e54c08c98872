import SqlLexis.Proofs.Respacing

/-!
# Other gaps

What is skipped between two tokens can be replaced by anything else that is skipped, as long
as it begins with a blank: `tokenize_refilled`. Neither what a comment says nor how it ends
reaches a token. A token in front of a gap sees no more than that nothing carries it on
(`StandsIn.resembles`), and a token behind it sees that no name ends there
(`Gap.not_endsName`).
-/

namespace SqlLexis

open Source

variable {s s' : Source} {d : Dictionary} {f : Forms} {n m : Nat}

/-! ## What can be put in place of a gap -/

/-- Blanks, closed blocks, and line comments that each have their line feed. -/
inductive Padding (f : Forms) : List Char → Prop
  | nil : Padding f []
  | blank {c : Char} {g : List Char} : isBlank c = true → Padding f g → Padding f (c :: g)
  | block {body g : List Char} : ¬ ['*', '/'] <:+: body ++ ['*'] → Padding f g →
      Padding f (['/', '*'] ++ body ++ ['*', '/'] ++ g)
  | line {o body g : List Char} : o ∈ f.lineOpeners → '\n' ∉ body → Padding f g →
      Padding f (o ++ body ++ '\n' :: g)

/-- Padding that begins with a blank. -/
structure Filler (f : Forms) (g : List Char) : Prop where
  blank : isBlank (peek g) = true
  padding : Padding f g

/-- Padding is a gap whatever follows it. -/
theorem Padding.gap {g : List Char} (h : Padding f g) (r : List Char) : Gap f g r := by
  induction h with
  | nil => exact .nil
  | blank hc _ ih => exact .blank hc ih
  | block hb _ ih => exact .block hb ih
  | line ho hb _ ih => exact .line ho hb (by simp [LineEnd]) (.blank (by decide) ih)

theorem Filler.ne_nil {g : List Char} (h : Filler f g) : g ≠ [] := by
  rintro rfl
  exact absurd h.blank (by decide)

theorem Filler.clear_append {g : List Char} (h : Filler f g) (r : List Char) : Clear (g ++ r) := by
  obtain ⟨c, g, rfl⟩ := List.exists_cons_of_ne_nil h.ne_nil
  exact .cons h.blank (g ++ r)

/-! ## How a gap begins and ends -/

/-- The text ends like a name. -/
def endsName (l : List Char) : Bool :=
  l.getLast?.elim false fun c => isNameChar c || c == nameQuote

theorem endsName_concat (u : List Char) (c : Char) :
    endsName (u ++ [c]) = (isNameChar c || c == nameQuote) := by
  simp [endsName]

theorem endsName_append {l : List Char} (hl : l ≠ []) (u : List Char) :
    endsName (u ++ l) = endsName l := by
  rw [← List.dropLast_concat_getLast hl, ← List.append_assoc, endsName_concat, endsName_concat]

/-- Behind a piece of text, only the piece decides whether a name ends there. -/
theorem Source.followsName_append {l r : List Char} (h : s.rest n = l ++ r) (hl : l ≠ []) :
    s.followsName (n + l.length) = endsName l := by
  obtain ⟨u, c, rfl⟩ : ∃ u c, l = u ++ [c] :=
    ⟨l.dropLast, l.getLast hl, (List.dropLast_concat_getLast hl).symm⟩
  have hrest : s.rest (n + u.length) = c :: r := by
    rw [List.append_assoc] at h
    exact rest_of_append h
  rw [List.length_append, List.length_singleton, ← Nat.add_assoc, followsName_succ, hrest,
    endsName_concat, peek_cons]

theorem not_endsName_of_blank {c : Char} (hc : isBlank c = true) : endsName [c] = false := by
  have hclear : Clear [c] := .cons hc []
  have hquote : peek [c] ≠ nameQuote := hclear.peek_ne (by decide)
  simpa [endsName] using ⟨hclear.not_nameChar, hquote⟩

/-- Nothing that begins a gap carries on a name or a number. -/
theorem Gap.peek_of_ne_nil {g r : List Char} (h : Gap f g r) (hg : g ≠ []) :
    isNameChar (peek g) = false ∧ peek g ≠ '.' := by
  cases h with
  | nil => exact absurd rfl hg
  | @blank c g r hc _ =>
      have hclear : Clear (c :: g) := .cons hc g
      exact ⟨hclear.not_nameChar, hclear.peek_ne (by decide)⟩
  | block => exact ⟨rfl, by simp⟩
  | line ho => rcases mem_lineOpeners ho with rfl | rfl | ⟨-, rfl⟩ <;> exact ⟨rfl, by simp⟩

/-- A gap that a token follows does not end like a name: it ends in a blank or a closing mark,
since a line comment would run on to its line feed. -/
theorem Gap.not_endsName {g r : List Char} (h : Gap f g r) (hr : ¬ LineEnd r) :
    endsName g = false := by
  induction h with
  | nil => rfl
  | @blank c g r hc _ ih =>
      by_cases hg : g = []
      · rw [hg]
        exact not_endsName_of_blank hc
      · rw [← List.singleton_append, endsName_append hg]
        exact ih hr
  | @block body g r _ _ ih =>
      by_cases hg : g = []
      · rw [hg, List.append_nil, endsName_append (by simp)]
        rfl
      · rw [endsName_append hg]
        exact ih hr
  | @line o body g r _ _ he _ ih =>
      have hg : g ≠ [] := by
        rintro rfl
        exact hr he
      rw [endsName_append hg]
      exact ih hr

theorem Settled.not_lineEnd {cs : List Char} (h : Settled f cs) (hne : cs ≠ []) :
    ¬ LineEnd cs := by
  obtain ⟨c, cs, rfl⟩ := List.exists_cons_of_ne_nil hne
  intro hend
  have hblank : isBlank c = false := h.blank
  rw [hend c rfl] at hblank
  exact absurd hblank (by decide)

/-! ## Putting one gap in place of another -/

/-- `g'` stands in for the gap `g`: it is the same, or both are there and `g'` is a filler. -/
def StandsIn (f : Forms) (g g' : List Char) : Prop := g' = g ∨ g ≠ [] ∧ Filler f g'

namespace StandsIn

variable {g g' r r' : List Char}

theorem nil_iff (h : StandsIn f g g') : g' = [] ↔ g = [] := by
  rcases h with rfl | ⟨hg, hfill⟩
  · exact Iff.rfl
  · exact iff_of_false hfill.ne_nil hg

theorem gap (h : StandsIn f g g') (hg : Gap f g r) (hr : LineEnd r → LineEnd r') :
    Gap f g' r' := by
  rcases h with rfl | ⟨-, hfill⟩
  · exact hg.change_rest hr
  · exact hfill.padding.gap r'

theorem not_endsName (h : StandsIn f g g') (hg : Gap f g r) (hr : ¬ LineEnd r) :
    endsName g' = false := by
  rcases h with rfl | ⟨-, hfill⟩
  · exact hg.not_endsName hr
  · exact (hfill.padding.gap r).not_endsName hr

/-- A token in front cannot tell the two gaps apart. -/
theorem resembles (h : StandsIn f g g') (hg : Gap f g r) (hr : Resembles r r') :
    Resembles (g ++ r) (g' ++ r') := by
  rcases h with rfl | ⟨hne, hfill⟩
  · exact hr.append g'
  · obtain ⟨hname, hdot⟩ := hg.peek_of_ne_nil hne
    rw [← peek_append hne r] at hname hdot
    exact .apart hname hdot (hfill.clear_append r')

/-- A token behind is joined to a name in both texts or in none. -/
theorem followsName (h : StandsIn f g g') (hg : Gap f g r) (hr : ¬ LineEnd r)
    (hs : s.rest n = g ++ r) (hs' : s'.rest m = g' ++ r')
    (hjoin : s'.followsName m = s.followsName n) :
    s'.followsName (m + g'.length) = s.followsName (n + g.length) := by
  by_cases hnil : g = []
  · rw [hnil, h.nil_iff.mpr hnil]
    exact hjoin
  · have hnil' : g' ≠ [] := fun h' => hnil (h.nil_iff.mp h')
    rw [followsName_append hs hnil, followsName_append hs' hnil', hg.not_endsName hr,
      h.not_endsName hg hr]

end StandsIn

/-! ## A text with other gaps -/

/-- What is skipped from position `n` on. -/
def Source.gapAt (s : Source) (f : Forms) (n : Nat) : List Char :=
  s.slice n (s.startAfter f n)

/-- What stands in for the gap at `n`: nothing if there is none, else `fill n`. -/
def Source.refillAt (s : Source) (f : Forms) (fill : Nat → List Char) (n : Nat) : List Char :=
  if s.gapAt f n = [] then [] else fill n

/-- The text that holds the given tokens from `n` on, with every gap replaced: the one that
begins at position `k` becomes `fill k`, and where there is no gap none is put. -/
def Source.refilled (s : Source) (f : Forms) (fill : Nat → List Char) (n : Nat) :
    List Token → List Char
  | [] => []
  | t :: ts =>
      s.refillAt f fill n ++ (s.slice (s.startAfter f n) t.stop ++ s.refilled f fill t.stop ts)

section Refilled

variable {g l r : List Char}

theorem gapAt_of_gap (hf : f.BuiltIn) (hr : s.rest n = g ++ r) (hg : Gap f g r)
    (hs : Settled f r) : s.gapAt f n = g := by
  rw [gapAt, startAfter_of_gap hf hr hg hs, slice_of_append hr]

theorem refilled_token (hf : f.BuiltIn) (hr : s.rest n = g ++ (l ++ r)) (hg : Gap f g (l ++ r))
    (hs : Settled f (l ++ r)) (fill : Nat → List Char) (k : TokenKind) (v : List Char)
    (ts : List Token) :
    s.refilled f fill n (⟨k, v, n + g.length + l.length⟩ :: ts) =
      s.refillAt f fill n ++ (l ++ s.refilled f fill (n + g.length + l.length) ts) := by
  rw [refilled, startAfter_of_gap hf hr hg hs, slice_of_append (rest_of_append hr)]

theorem refilled_finish (hf : f.BuiltIn) (hr : s.rest n = g) (hg : Gap f g [])
    (fill : Nat → List Char) :
    s.refilled f fill n [⟨.finish, [], n + g.length⟩] = s.refillAt f fill n := by
  have hr' : s.rest n = g ++ ([] ++ []) := by rw [hr, List.append_nil, List.append_nil]
  have h := refilled_token hf hr' hg (settled_nil f) fill .finish [] []
  simpa [refilled] using h

/-- A text whose gaps are filled with themselves is the same text. -/
theorem Tiles.refilled_gapAt (hf : f.BuiltIn) {ts : List Token} (h : Tiles s d f n ts) :
    s.refilled f (s.gapAt f) n ts = s.rest n := by
  have hself : ∀ k, s.refillAt f (s.gapAt f) k = s.gapAt f k := by
    intro k
    rw [refillAt]
    split
    · next hnil => rw [hnil]
    · rfl
  induction h with
  | @finish n g hr hg =>
      have hr' : s.rest n = g ++ [] := by rw [hr, List.append_nil]
      rw [refilled_finish hf hr hg, hself, gapAt_of_gap hf hr' hg (settled_nil f), hr]
  | @token n k v g l r ts hr hg hs _ _ ih =>
      rw [refilled_token hf hr hg hs, hself, gapAt_of_gap hf hr hg hs, ih,
        rest_of_append (rest_of_append hr), hr]

variable {fill : Nat → List Char} (hf : f.BuiltIn)
  (hfill : ∀ k, fill k = s.gapAt f k ∨ Filler f (fill k))

include hf hfill in
theorem standsIn_refillAt (hr : s.rest n = g ++ r) (hg : Gap f g r) (hs : Settled f r) :
    StandsIn f g (s.refillAt f fill n) := by
  have hgap := gapAt_of_gap hf hr hg hs
  have hk := hfill n
  rw [refillAt]
  rw [hgap] at hk ⊢
  split
  · next hnil => exact Or.inl hnil.symm
  · next hne => exact hk.imp_right fun h => ⟨hne, h⟩

include hf hfill in
/-- In front of what is left, a token cannot tell whether the gaps there are replaced. -/
theorem Tiles.resembles_refilled {ts : List Token} (h : Tiles s d f n ts) :
    Resembles (s.rest n) (s.refilled f fill n ts) := by
  induction h with
  | @finish n g hr hg =>
      have hr' : s.rest n = g ++ [] := by rw [hr, List.append_nil]
      have hin := standsIn_refillAt hf hfill hr' hg (settled_nil f)
      have hres := hin.resembles hg (.append_clear .nil [])
      rw [refilled_finish hf hr hg, hr']
      simpa using hres
  | @token n k v g l r ts hr hg hs _ _ ih =>
      have hin := standsIn_refillAt hf hfill hr hg hs
      rw [rest_of_append (rest_of_append hr)] at ih
      rw [refilled_token hf hr hg hs, hr]
      exact hin.resembles hg (ih.append l)

include hf hfill in
/-- A text with other gaps holds the same tokens. -/
theorem Tiles.exists_refilled {ts : List Token} (h : Tiles s d f n ts)
    (hr' : s'.rest m = s.refilled f fill n ts)
    (hjoin : s'.followsName m = s.followsName n) :
    ∃ us, Tiles s' d f m us ∧ us.map Token.content = ts.map Token.content := by
  induction h generalizing m with
  | @finish n g hr hg =>
      have hrest : s.rest n = g ++ [] := by rw [hr, List.append_nil]
      have hin := standsIn_refillAt hf hfill hrest hg (settled_nil f)
      rw [refilled_finish hf hr hg] at hr'
      exact ⟨_, .finish hr' (hin.gap hg id), rfl⟩
  | @token n k v g l r ts hr hg hs hl htail ih =>
      have hin := standsIn_refillAt hf hfill hr hg hs
      have hres := htail.resembles_refilled hf hfill
      rw [rest_of_append (rest_of_append hr)] at hres
      rw [refilled_token hf hr hg hs] at hr'
      have hend : ¬ LineEnd (l ++ r) := hs.not_lineEnd (by simp [hl.ne_nil])
      have hsame := hin.followsName hg hend hr hr' hjoin
      have hjoinedAlike : s'.followsName (m + (s.refillAt f fill n).length + l.length) =
          s.followsName (n + g.length + l.length) := by
        rw [followsName_append (rest_of_append hr') hl.ne_nil,
          followsName_append (rest_of_append hr) hl.ne_nil]
      obtain ⟨us, hus, hcontent⟩ := ih (rest_of_append (rest_of_append hr')) hjoinedAlike
      refine ⟨⟨k, v, _⟩ :: us, .token hr' (hin.gap hg fun h => absurd h hend)
        (hs.of_resembles hl.ne_nil hres) ?_ hus, ?_⟩
      · rw [hsame]
        exact hl.of_resembles hres
      · rw [List.map_cons, List.map_cons, hcontent]
        rfl

end Refilled

/-- A text is made of its tokens and gaps, and each gap can be kept or replaced, on its own, by
blanks and comments that begin with a blank: the tokens stay the same. -/
theorem tokenize_refilled (d : Dialect) {text : List Char} {ts : List Token}
    (h : tokenize d text = .ok ts) {fill : Nat → List Char}
    (hfill : ∀ n, fill n = (Source.mk text).gapAt d.forms n ∨ Filler d.forms (fill n)) :
    (Source.mk text).refilled d.forms ((Source.mk text).gapAt d.forms) 0 ts = text ∧
      ∃ us, tokenize d ((Source.mk text).refilled d.forms fill 0 ts) = .ok us ∧
        us.map Token.content = ts.map Token.content := by
  have hf := d.forms_builtIn
  rw [tokenize_eq_tokensFrom] at h
  have htiles := tiles_of_tokensFrom hf h
  refine ⟨htiles.refilled_gapAt hf, ?_⟩
  have hrest : (Source.mk ((Source.mk text).refilled d.forms fill 0 ts)).rest 0 =
      (Source.mk text).refilled d.forms fill 0 ts := rfl
  obtain ⟨us, hus, hcontent⟩ := htiles.exists_refilled hf hfill hrest
    (by rw [followsName_zero, followsName_zero])
  refine ⟨us, ?_, hcontent⟩
  rw [tokenize_eq_tokensFrom]
  exact tokensFrom_of_tiles hf hus

/-- A block that ends right before a sign becomes a line comment that holds a name quote, and
a line comment that the end of the text ends becomes a block. -/
theorem tokenize_refilled_comments :
    let text := "x/*/*/-1#c".toList
    let ts : List Token :=
      [⟨.identifier, ['x'], 1⟩, ⟨.int, ['-', '1'], 8⟩, ⟨.finish, [], 10⟩]
    let fill : Nat → List Char := fun n =>
      if n = 1 then [' ', '-', '-', nameQuote, '\n'] else [' ', '/', '*', '*', '/']
    tokenize .mysql text = .ok ts ∧ (∀ n, Filler Dialect.mysql.forms (fill n)) ∧
      (Source.mk text).refilled Dialect.mysql.forms fill 0 ts =
        ['x', ' ', '-', '-', nameQuote, '\n', '-', '1', ' ', '/', '*', '*', '/'] ∧
      ∃ us, tokenize .mysql ((Source.mk text).refilled Dialect.mysql.forms fill 0 ts) = .ok us ∧
        us.map Token.content = ts.map Token.content := by
  intro text ts fill
  have htext : tokenize .mysql text = .ok ts := by decide +kernel
  have hfill : ∀ n, Filler Dialect.mysql.forms (fill n) := by
    intro n
    by_cases hn : n = 1
    · refine ⟨by simp only [fill, hn]; decide, ?_⟩
      simp only [fill, hn, if_true]
      exact .blank (by decide)
        (@Padding.line _ ['-', '-'] [nameQuote] [] (by decide) (by decide) .nil)
    · refine ⟨by simp only [fill, hn]; decide, ?_⟩
      simp only [fill, hn, if_false]
      exact .blank (by decide) (@Padding.block _ [] [] (by decide) .nil)
  exact ⟨htext, hfill, by decide +kernel,
    (tokenize_refilled .mysql htext fun n => Or.inr (hfill n)).2⟩

end SqlLexis
