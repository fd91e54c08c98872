import SqlLexis.Proofs.Stream

/-!
# Nothing is lost

A token stream with its end positions determines how a text is cut: what lies between two
neighbouring ends is a gap followed by a spelling of the later token. `lossless` puts this
together for a whole text, which is therefore the concatenation of its gaps and spellings.
-/

namespace SqlLexis

open Quoted Source

/-- `l` is how `t` is written: nothing for the end, quoted for a string, with the mark of a
national string only if there are such, and letter by letter for everything else. -/
def Token.Spells (f : Forms) (t : Token) (l : List Char) : Prop :=
  match t.kind with
  | .finish => t.literals = [] ∧ l = []
  | .chars =>
      l = wrap singleQuote t.literals ∨ l = wrap doubleQuote t.literals ∨
        f.national = true ∧ l = 'N' :: wrap singleQuote t.literals
  | _ => l = t.literals ∧ l ≠ []

theorem Lexeme.spells {d : Dictionary} {f : Forms} {joined : Bool} {k : TokenKind}
    {v l r : List Char} (h : Lexeme d f joined k v l r) (n : Nat) :
    Token.Spells f ⟨k, v, n⟩ l := by
  have hne := h.ne_nil
  cases h with
  | userVariable => exact ⟨rfl, hne⟩
  | systemVariable => exact ⟨rfl, hne⟩
  | national hnat => exact Or.inr (Or.inr ⟨hnat, rfl⟩)
  | name =>
      rw [Dictionary.classify]
      split <;> exact ⟨rfl, hne⟩
  | quotedName => exact ⟨rfl, hne⟩
  | hex => exact ⟨rfl, hne⟩
  | number => split <;> exact ⟨rfl, hne⟩
  | symbol => exact ⟨rfl, hne⟩
  | string hq =>
      rcases hq with rfl | rfl
      · exact Or.inl rfl
      · exact Or.inr (Or.inl rfl)

/-- A token with the text it takes up: what is skipped in front of it and its spelling. -/
structure Piece where
  token : Token
  gap : List Char
  lexeme : List Char

namespace Piece

def text (p : Piece) : List Char := p.gap ++ p.lexeme

/-- The piece is what the text holds from `start` up to the end of its token. -/
structure Fits (s : Source) (f : Forms) (start : Nat) (p : Piece) : Prop where
  slice : s.slice start p.token.stop = p.text
  gap : Gap f p.gap (s.rest (start + p.gap.length))
  lexeme : p.token.Spells f p.lexeme

variable {s : Source} {f : Forms} {n : Nat} {g l r : List Char} {k : TokenKind} {v : List Char}

theorem fits_of_append (hr : s.rest n = g ++ (l ++ r)) (hg : Gap f g (l ++ r))
    (hl : Token.Spells f ⟨k, v, n + g.length + l.length⟩ l) :
    Fits s f n ⟨⟨k, v, n + g.length + l.length⟩, g, l⟩ where
  slice := by
    rw [← List.append_assoc] at hr
    have hslice := slice_of_append hr
    rwa [List.length_append, ← Nat.add_assoc] at hslice
  gap := by rwa [rest_of_append hr]
  lexeme := hl

end Piece

/-- Where the shares of the tokens begin and end when the first begins at `n`. -/
def boundaries (n : Nat) (ts : List Token) : List Nat := n :: ts.map Token.stop

namespace Tiles

variable {s : Source} {d : Dictionary} {f : Forms} {n : Nat} {ts : List Token}

/-- The end stands last, nowhere else, and where the text ends. -/
theorem finish_last (h : Tiles s d f n ts) (hn : n ≤ s.length) :
    ∃ us, ts = us ++ [⟨.finish, [], s.length⟩] ∧ ∀ t ∈ us, t.kind ≠ .finish := by
  induction h with
  | @finish n g hr _ =>
      have hlen := add_length_of_append hn (by rw [hr, List.append_nil] : s.rest n = g ++ [])
      refine ⟨[], ?_, by simp⟩
      rw [← hlen]
      rfl
  | @token n k v g l r ts hr _ _ hl _ ih =>
      have hlen := add_length_of_append hn hr
      rw [List.length_append] at hlen
      obtain ⟨us, rfl, hus⟩ := ih (by omega)
      refine ⟨_ :: us, rfl, ?_⟩
      intro t ht
      rcases List.mem_cons.mp ht with rfl | ht
      · exact hl.kind_ne_finish
      · exact hus t ht

/-- The text that is left is cut into one piece a token. -/
theorem exists_pieces (h : Tiles s d f n ts) :
    ∃ ps : List Piece, ps.map Piece.token = ts ∧ s.rest n = ps.flatMap Piece.text ∧
      ∀ (i : Nat) (p : Piece) (start : Nat), ps[i]? = some p →
        (boundaries n ts)[i]? = some start → p.Fits s f start := by
  induction h with
  | @finish n g hr hg =>
      have hr' : s.rest n = g ++ ([] ++ []) := by rw [hr, List.append_nil, List.append_nil]
      refine ⟨[⟨⟨.finish, [], n + g.length⟩, g, []⟩], rfl, by simp [hr, Piece.text], ?_⟩
      intro i p start hp hstart
      cases i with
      | zero =>
          obtain rfl := Option.some.inj hp
          obtain rfl := Option.some.inj hstart
          exact Piece.fits_of_append hr' hg ⟨rfl, rfl⟩
      | succ i => simp at hp
  | @token n k v g l r ts hr hg _ hl _ ih =>
      obtain ⟨ps, rfl, hps, hfits⟩ := ih
      refine ⟨⟨⟨k, v, n + g.length + l.length⟩, g, l⟩ :: ps, rfl, ?_, ?_⟩
      · rw [List.flatMap_cons, ← hps, rest_of_append (rest_of_append hr), hr, Piece.text,
          List.append_assoc]
      · intro i p start hp hstart
        cases i with
        | zero =>
            obtain rfl := Option.some.inj hp
            obtain rfl := Option.some.inj hstart
            exact Piece.fits_of_append hr hg (hl.spells _)
        | succ i => exact hfits i p start hp hstart

end Tiles

/-- A text that tokenizes is cut at the ends of its tokens, and each cut is a gap followed
by the spelling of its token. -/
theorem lossless {s : Source} {d : Dictionary} {f : Forms} (hf : f.BuiltIn) {ts : List Token}
    (h : (Lexer.fresh s d f).tokenize.1 = .ok ts) :
    (∃ us, ts = us ++ [⟨.finish, [], s.length⟩] ∧ ∀ t ∈ us, t.kind ≠ .finish) ∧
      ∃ ps : List Piece, ps.map Piece.token = ts ∧ s.chars = ps.flatMap Piece.text ∧
        ∀ (i : Nat) (p : Piece) (start : Nat), ps[i]? = some p →
          (boundaries 0 ts)[i]? = some start → p.Fits s f start := by
  have htiles : Tiles s d f 0 ts := (tokensFrom_eq_ok_iff hf).mp h
  exact ⟨htiles.finish_last (Nat.zero_le _), htiles.exists_pieces⟩

/-- A block comment that its opening does not close, a national string and a line comment
that nothing ends. -/
theorem lossless_comments_and_quotes :
    let s : Source := .ofString "x/*/*/N'it''s'--"
    let d : Dictionary := .ofWords [.SELECT]
    let f : Forms := ⟨some Forms.optimizerHint, some Forms.atSign, true, false⟩
    let ts : List Token :=
      [⟨.identifier, ['x'], 1⟩, ⟨.chars, ['i', 't', singleQuote, 's'], 14⟩, ⟨.finish, [], 16⟩]
    f.BuiltIn ∧ (Lexer.fresh s d f).tokenize.1 = .ok ts ∧
      ∃ ps : List Piece, ps.map Piece.token = ts ∧ s.chars = ps.flatMap Piece.text ∧
        ∀ (i : Nat) (p : Piece) (start : Nat), ps[i]? = some p →
          (boundaries 0 ts)[i]? = some start → p.Fits s f start := by
  intro s d f ts
  have hf : f.BuiltIn := ⟨.inr (.inr rfl), .inr rfl⟩
  have hblock : Gap f ['/', '*', '/', '*', '/'] ("N'it''s'--".toList) :=
    @Gap.block f ['/'] [] _ (by decide) .nil
  have hline : Gap f ['-', '-'] [] :=
    @Gap.line f ['-', '-'] [] [] [] (by decide) (by simp) (by simp [LineEnd]) .nil
  have htiles : Tiles s d f 0 ts := by
    refine .token (g := []) (l := ['x']) rfl .nil ⟨by decide, by decide, by decide⟩ ?_ ?_
    · exact .name (w := ['x']) (by decide) (by decide) (List.all_eq_true.mp rfl) (by decide)
        (by decide)
    refine .token (l := "N'it''s'".toList) rfl hblock ⟨by decide, by decide, by decide⟩ ?_ ?_
    · exact .national rfl (by decide)
    exact .finish rfl hline
  have h := tokensFrom_of_tiles hf htiles
  exact ⟨hf, h, (lossless hf h).2⟩

end SqlLexis
