import Mathlib.Data.List.Chain
import SqlLexis.Proofs.Refilling

/-!
# Signs and dots between neighbours

A minus or a dot in front of a digit is part of a number, unless it follows a name. The scanner
decides this by the one character that stands before it. `tokenize_joins` says what that comes to
for whole tokens: only the token that a sign or dot directly abuts decides, by how its text ends,
and nothing that is skipped does.

`Source.placed` puts every token where it stands. What is read there is laid out as a gap, a lexeme
and what follows (`Tiles.exists_laid`); the rest is about how the lexemes of each class end
(`Lexeme.endsName_of_operand`) and what a gap shows to the token behind it
(`Placed.Laid.not_followsName`).
-/

namespace SqlLexis

open Source Quoted

variable {s : Source} {d : Dictionary} {f : Forms} {n : Nat} {joined : Bool} {k : TokenKind}
  {v g l r : List Char}

/-! ## How a lexeme ends -/

theorem endsName_of_nameChars (hne : l ≠ []) (hl : ∀ c ∈ l, isNameChar c = true) :
    endsName l = true := by
  rw [← List.dropLast_concat_getLast hne, endsName_concat, hl _ (List.getLast_mem hne),
    Bool.true_or]

theorem isNameChar_of_isDigit {c : Char} (h : isDigit c = true) : isNameChar c = true := by
  simp [isNameChar, h]

theorem isNameChar_of_isHexDigit {c : Char} (h : isHexDigit c = true) : isNameChar c = true := by
  rcases isDigit_or_isLetter_of_isHexDigit h with h | h <;> simp [isNameChar, h]

/-- The classes whose tokens a sign or dot may be joined to: names, reserved words and numbers
that are whole. -/
def TokenKind.isOperand : TokenKind → Bool
  | .identifier | .keyword _ | .int | .hex => true
  | _ => false

/-- A name, a reserved word or a whole number ends like a name, but for a lone minus. -/
theorem Lexeme.endsName_of_operand (h : Lexeme d f joined k v l r) (hk : k.isOperand = true) :
    endsName l = true ∨ k = .int ∧ v = ['-'] := by
  cases h with
  | name hstart _ hw =>
      refine Or.inl (endsName_of_nameChars ?_ hw)
      rintro rfl
      exact absurd hstart (by decide)
  | @quotedName body =>
      left
      rw [wrap, ← List.cons_append, endsName_concat]
      rfl
  | @hex w _ hne hw =>
      left
      rw [show '0' :: 'x' :: w = ['0', 'x'] ++ w from rfl, endsName_append hne]
      exact endsName_of_nameChars hne fun c hc => isNameChar_of_isHexDigit (hw c hc)
  | @number x r hx _ hne _ _ =>
      have hfloat : x.isFloat = false := by
        cases hf : x.isFloat with
        | false => rfl
        | true => simp [hf, TokenKind.isOperand] at hk
      have hlexeme := Numeral.lexeme_of_not_float hfloat
      by_cases hwhole : x.whole = []
      · rw [hwhole, List.append_nil] at hlexeme
        rcases hx.sign with hs | hs
        · exact absurd (hlexeme.trans hs) hne
        · exact Or.inr ⟨by simp [hfloat], hlexeme.trans hs⟩
      · left
        rw [hlexeme, endsName_append hwhole]
        exact endsName_of_nameChars hwhole fun c hc => isNameChar_of_isDigit (hx.whole c hc)
  | userVariable => exact absurd hk (by simp [TokenKind.isOperand])
  | systemVariable => exact absurd hk (by simp [TokenKind.isOperand])
  | national => exact absurd hk (by simp [TokenKind.isOperand])
  | symbol => exact absurd hk (by simp [TokenKind.isOperand])
  | string => exact absurd hk (by simp [TokenKind.isOperand])

/-- Where a number is read a number begins. -/
theorem Lexeme.startsNumber_of_number (h : Lexeme d f joined k v l r) (hk : k = .int ∨ k = .float) :
    l = v ∧ startsNumber joined (l ++ r) = true := by
  cases h with
  | number _ _ _ _ hstart => exact ⟨rfl, hstart⟩
  | name =>
      rw [Dictionary.classify] at hk
      split at hk <;> exact absurd hk (by simp)
  | userVariable => exact absurd hk (by simp)
  | systemVariable => exact absurd hk (by simp)
  | national => exact absurd hk (by simp)
  | quotedName => exact absurd hk (by simp)
  | hex => exact absurd hk (by simp)
  | symbol => exact absurd hk (by simp)
  | string => exact absurd hk (by simp)

/-- Where a symbol is read no number begins. -/
theorem Lexeme.not_startsNumber_of_symbol {sym : Symbol}
    (h : Lexeme d f joined k v l r) (hk : k = .symbol sym) :
    l = sym.chars ∧ startsNumber joined (l ++ r) = false := by
  cases h with
  | symbol hstart _ =>
      obtain rfl := TokenKind.symbol.inj hk
      exact ⟨rfl, hstart⟩
  | number =>
      split at hk <;> exact absurd hk (by simp)
  | name =>
      rw [Dictionary.classify] at hk
      split at hk <;> exact absurd hk (by simp)
  | userVariable => exact absurd hk (by simp)
  | systemVariable => exact absurd hk (by simp)
  | national => exact absurd hk (by simp)
  | quotedName => exact absurd hk (by simp)
  | hex => exact absurd hk (by simp)
  | string => exact absurd hk (by simp)

/-! ## Tokens where they stand -/

/-- A token where it stands: `after` is where the token before it ends, or the start of the text,
and `start` is where it begins itself. What lies in between is skipped. -/
structure Placed where
  token : Token
  after : Nat
  start : Nat

/-- The tokens that are read from `n` on, each where it stands. -/
def Source.placed (s : Source) (f : Forms) (n : Nat) : List Token → List Placed
  | [] => []
  | t :: ts => ⟨t, n, s.startAfter f n⟩ :: s.placed f t.stop ts

namespace Placed

/-- The text of the token as it is written. -/
def text (s : Source) (p : Placed) : List Char := s.slice p.start p.token.stop

/-- The token stands behind the gap `g`, is written `l`, and `r` is what the text goes on with. -/
structure Laid (s : Source) (d : Dictionary) (f : Forms) (p : Placed) (g l r : List Char) :
    Prop where
  rest : s.rest p.after = g ++ (l ++ r)
  gap : Gap f g (l ++ r)
  settled : Settled f (l ++ r)
  start : p.start = p.after + g.length
  stop : p.token.stop = p.start + l.length
  lexeme : Lexeme d f (s.followsName p.start) p.token.kind p.token.literals l r

namespace Laid

variable {p : Placed}

theorem rest_start (h : p.Laid s d f g l r) : s.rest p.start = l ++ r := by
  rw [h.start, rest_of_append h.rest]

theorem rest_stop (h : p.Laid s d f g l r) : s.rest p.token.stop = r := by
  rw [h.stop, rest_of_append h.rest_start]

theorem text_eq (h : p.Laid s d f g l r) : p.text s = l := by
  rw [text, h.stop, slice_of_append h.rest_start]

/-- Behind a token, only its own text decides whether a name ends there. -/
theorem followsName_stop (h : p.Laid s d f g l r) : s.followsName p.token.stop = endsName l := by
  rw [h.stop, followsName_append h.rest_start h.lexeme.ne_nil]

/-- Behind a gap no name ends. -/
theorem not_followsName (h : p.Laid s d f g l r) (hlt : p.after < p.start) :
    s.followsName p.start = false := by
  have hg : g ≠ [] := by
    rintro rfl
    rw [h.start] at hlt
    exact absurd hlt (by simp)
  have hend : ¬ LineEnd (l ++ r) := h.settled.not_lineEnd (by simp [h.lexeme.ne_nil])
  rw [h.start, followsName_append h.rest hg, h.gap.not_endsName hend]

end Laid

end Placed

theorem Source.map_token_placed (s : Source) (f : Forms) (n : Nat) (ts : List Token) :
    (s.placed f n ts).map Placed.token = ts := by
  induction ts generalizing n with
  | nil => rfl
  | cons t ts ih => rw [placed, List.map_cons, ih]

/-- Every token but the end is laid out where it stands. -/
theorem Tiles.exists_laid (hf : f.BuiltIn) {ts : List Token} (h : Tiles s d f n ts) :
    ∀ p ∈ s.placed f n ts, p.token.kind ≠ .finish → ∃ g l r, p.Laid s d f g l r := by
  induction h with
  | finish =>
      intro p hp hk
      obtain rfl := List.mem_singleton.mp hp
      exact absurd rfl hk
  | @token n k v g l r ts hr hg hs hl _ ih =>
      intro p hp hk
      rcases List.mem_cons.mp hp with rfl | hp
      · have hstart := startAfter_of_gap hf hr hg hs
        exact ⟨g, l, r, hr, hg, hs, hstart, by rw [hstart], by rwa [hstart]⟩
      · exact ih p hp hk

/-- Each token but the first stands behind the one before it, which is not the end. -/
theorem Tiles.isChain_placed {ts : List Token} (h : Tiles s d f n ts) :
    (s.placed f n ts).IsChain fun p q => p.token.kind ≠ .finish ∧ q.after = p.token.stop := by
  induction h with
  | finish => exact .singleton _
  | @token n k v g l r ts _ _ _ hl _ ih =>
      cases ts with
      | nil => exact .singleton _
      | cons u ts => exact List.isChain_cons_cons.mpr ⟨⟨hl.kind_ne_finish, rfl⟩, ih⟩

/-- A token stands at the start or behind the one before it. -/
theorem Tiles.placed_split {ts : List Token} (h : Tiles s d f n ts) {us vs : List Placed}
    {q : Placed} (hsplit : s.placed f n ts = us ++ q :: vs) :
    us = [] ∧ q.after = n ∨
      ∃ ws p, us = ws ++ [p] ∧ p.token.kind ≠ .finish ∧ q.after = p.token.stop := by
  rcases List.eq_nil_or_concat' us with rfl | ⟨ws, p, rfl⟩
  · left
    cases ts with
    | nil => exact absurd hsplit (by simp [placed])
    | cons t ts =>
        obtain rfl := (List.cons.inj hsplit).1
        exact ⟨rfl, rfl⟩
  · right
    have hchain := h.isChain_placed
    rw [hsplit, List.append_assoc] at hchain
    exact ⟨ws, p, rfl, (List.isChain_append_cons_cons.mp hchain).2.1⟩

/-! ## Signs and dots -/

/-- A number that took up a sign or a dot in front of its digits. -/
def Token.TookFront (t : Token) : Prop :=
  (t.kind = .int ∨ t.kind = .float) ∧
    (t.literals.head? = some '-' ∨ t.literals.head? = some '.')

/-- A minus in front of a digit or a dot, or a dot in front of a digit, that is a symbol of its
own. -/
def Token.LeftOut (s : Source) (t : Token) : Prop :=
  t.kind = .symbol .sub ∧ (isDigit (s.charAt t.stop) = true ∨ s.charAt t.stop = '.') ∨
    t.kind = .symbol .dot ∧ isDigit (s.charAt t.stop) = true

theorem Token.TookFront.kind_ne_finish {t : Token} (h : t.TookFront) : t.kind ≠ .finish := by
  intro hk
  simp [TookFront, hk] at h

theorem Token.LeftOut.kind_ne_finish {t : Token} (h : t.LeftOut s) : t.kind ≠ .finish := by
  intro hk
  simp [LeftOut, hk] at h

namespace Placed.Laid

variable {p q : Placed} {g' l' r' : List Char}

theorem le_start (h : p.Laid s d f g l r) : p.after ≤ p.start := by
  rw [h.start]
  exact Nat.le_add_right _ _

/-- No name ends in front of a number that took up a sign or a dot. -/
theorem not_followsName_of_front (h : p.Laid s d f g l r) (hfront : p.token.TookFront) :
    s.followsName p.start = false := by
  obtain ⟨hkind, hhead⟩ := hfront
  obtain ⟨hl, hstart⟩ := h.lexeme.startsNumber_of_number hkind
  rw [← hl] at hhead
  rcases hhead with hhead | hhead <;>
  · obtain ⟨u, rfl⟩ := List.head?_eq_some_iff.mp hhead
    simpa using (Bool.and_eq_true_iff.mp hstart).2

/-- A name ends in front of a sign or dot that was left out of a number. -/
theorem followsName_of_leftOut (h : p.Laid s d f g l r) (hout : p.token.LeftOut s) :
    s.followsName p.start = true := by
  rw [Token.LeftOut, charAt_natCast, h.rest_stop] at hout
  rcases hout with ⟨hkind, hnext⟩ | ⟨hkind, hnext⟩
  · obtain ⟨rfl, hno⟩ := h.lexeme.not_startsNumber_of_symbol hkind
    have hnext : (isDigit (peek r) || peek r == '.') = true := by
      simpa using hnext
    have hstart : ((isDigit (peek r) || peek r == '.') && !s.followsName p.start) = false := hno
    simpa [hnext] using hstart
  · obtain ⟨rfl, hno⟩ := h.lexeme.not_startsNumber_of_symbol hkind
    have hstart : (isDigit (peek r) && !s.followsName p.start) = false := hno
    simpa [hnext] using hstart

/-- A number that took up a sign or dot does not abut a name or a whole number. -/
theorem start_ne_stop (hp : p.Laid s d f g l r) (hq : q.Laid s d f g' l' r')
    (hoperand : p.token.kind.isOperand = true) (hfront : q.token.TookFront) :
    q.start ≠ p.token.stop := by
  intro heq
  have hfree := hq.not_followsName_of_front hfront
  rw [heq, hp.followsName_stop] at hfree
  rcases hp.lexeme.endsName_of_operand hoperand with hname | ⟨hint, hminus⟩
  · exact absurd hname (by simp [hfree])
  · obtain ⟨u, hu⟩ := hp.lexeme.dots_of_minus hint hminus
    have hrest : l' ++ r' = '.' :: '.' :: u := by
      rw [← hq.rest_start, heq, hp.rest_stop, ← hu]
      rfl
    have hdotsNoNumber : startsNumber (s.followsName q.start) ('.' :: '.' :: u) = false := rfl
    have hstart := (hq.lexeme.startsNumber_of_number hfront.1).2
    rw [hrest, hdotsNoNumber] at hstart
    exact absurd hstart (by simp)

end Placed.Laid

/-- How the tokens `ts` of a text share out the signs and dots in front of digits. -/
structure Source.Joins (s : Source) (f : Forms) (ts : List Token) : Prop where
  /-- The tokens are looked at where they stand. -/
  tokens : (s.placed f 0 ts).map Placed.token = ts
  /-- A number takes up no sign and no dot from directly behind a name or a whole number. -/
  front : ∀ us p q vs, s.placed f 0 ts = us ++ p :: q :: vs → p.token.kind.isOperand = true →
    q.token.TookFront → q.start ≠ p.token.stop
  /-- A sign or dot left out of a number directly abuts a token that ends like a name. -/
  leftOut : ∀ us q vs, s.placed f 0 ts = us ++ q :: vs → q.token.LeftOut s →
    ∃ ws p, us = ws ++ [p] ∧ q.start = p.token.stop ∧ endsName (p.text s) = true
  /-- To a token behind something that is skipped no name ends in front of it. -/
  skipped : ∀ p ∈ s.placed f 0 ts, p.token.kind ≠ .finish → p.after < p.start →
    s.followsName p.start = false

/-- Whether a sign or dot in front of a digit belongs to the number is decided by the token that it
directly abuts, and by nothing that is skipped. -/
theorem tokenize_joins (d : Dialect) {text : List Char} {ts : List Token}
    (h : tokenize d text = .ok ts) : (Source.mk text).Joins d.forms ts := by
  have hf := d.forms_builtIn
  rw [tokenize_eq_tokensFrom] at h
  have htiles := tiles_of_tokensFrom hf h
  have hlaid := htiles.exists_laid hf
  refine ⟨map_token_placed _ _ _ _, ?_, ?_, ?_⟩
  · intro us p q vs hsplit hoperand hfront
    have hkind : p.token.kind ≠ .finish := by
      intro hk
      rw [hk] at hoperand
      exact absurd hoperand (by decide)
    obtain ⟨g, l, r, hp⟩ := hlaid p (by simp [hsplit]) hkind
    obtain ⟨g', l', r', hq⟩ := hlaid q (by simp [hsplit]) hfront.kind_ne_finish
    exact hp.start_ne_stop hq hoperand hfront
  · intro us q vs hsplit hout
    obtain ⟨g', l', r', hq⟩ := hlaid q (by simp [hsplit]) hout.kind_ne_finish
    have hname := hq.followsName_of_leftOut hout
    have heq : q.start = q.after := by
      by_contra hne
      have hlt : q.after < q.start := Nat.lt_of_le_of_ne hq.le_start (Ne.symm hne)
      exact absurd hname (by simp [hq.not_followsName hlt])
    rw [heq] at hname
    rcases htiles.placed_split hsplit with ⟨-, hzero⟩ | ⟨ws, p, rfl, hkind, hafter⟩
    · exact absurd hname (by simp [hzero, followsName_zero])
    · obtain ⟨g, l, r, hp⟩ := hlaid p (by simp [hsplit]) hkind
      rw [hafter, hp.followsName_stop, ← hp.text_eq] at hname
      exact ⟨ws, p, rfl, heq.trans hafter, hname⟩
  · intro p hp hkind hlt
    obtain ⟨g, l, r, hp⟩ := hlaid p hp hkind
    exact hp.not_followsName hlt

/-- The first minus abuts a quoted name and is left out of the number; the second one stands behind
a comment that ends like a name and is taken up. -/
theorem tokenize_joins_quoted_name :
    let text : List Char := "`q`-.5--x\n-5".toList
    let s := Source.mk text
    let minus : Token := ⟨.symbol .sub, ['-'], 4⟩
    let five : Token := ⟨.int, ['-', '5'], 12⟩
    let ts : List Token := [⟨.identifier, [nameQuote, 'q', nameQuote], 3⟩, minus,
      ⟨.float, ['.', '5'], 6⟩, five, ⟨.finish, [], 12⟩]
    tokenize .mysql text = .ok ts ∧ minus.LeftOut s ∧ five.TookFront ∧
      (s.placed Dialect.mysql.forms 0 ts).map (fun p => (p.after, p.start)) =
        [(0, 0), (3, 3), (4, 4), (6, 10), (12, 12)] ∧
      s.Joins Dialect.mysql.forms ts := by
  intro text s minus five ts
  have htext : tokenize .mysql text = .ok ts := by decide +kernel
  refine ⟨htext, ?_, ?_, by decide +kernel, tokenize_joins .mysql htext⟩
  · exact .inl ⟨rfl, .inr (by decide)⟩
  · exact ⟨.inl rfl, .inl rfl⟩

end SqlLexis
