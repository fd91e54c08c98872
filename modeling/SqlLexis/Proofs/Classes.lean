import Mathlib
import SqlLexis.Proofs.Stream

/-!
# What a class promises

The class of a token says how its text is built and where it ends. `Token.Classified` spells this
out for words, quoted names, hexadecimal numbers, variables, symbols and the end, and
`returned_classified` says that every token that any call returns keeps the promise, whatever the
calls before it.

The promise is spread over the scanner: the rule that is chosen fixes the first character, the
rule itself the rest, and the dictionary decides between keywords and names. The grammar of
lexemes has put these together, so there is one case a class (`Lexeme.classified`).
-/

namespace SqlLexis

open Source Quoted

/-! ## The classes -/

/-- A letter, `_` or `$`, and then any number of name characters. -/
def isWord : List Char → Bool
  | [] => false
  | c :: w => (isLetter c || c == '_' || c == '$') && w.all isNameChar

/-- `0x` and hexadecimal digits, at least one. -/
def isHexNumber : List Char → Bool
  | '0' :: 'x' :: w => !w.isEmpty && w.all isHexDigit
  | _ => false

/-- `@` or `@@`, and then any number of name characters and dots. -/
def isVariable : List Char → Bool
  | '@' :: '@' :: w => w.all isVariableChar
  | '@' :: w => w.all isVariableChar
  | _ => false

/-- What the class of a token says about its literals, and about the text `r` behind it, when
the words `ks` are reserved. -/
def Token.Classified (ks : List Keyword) (t : Token) (r : List Char) : Prop :=
  match t.kind with
  | .keyword k => isWord t.literals = true ∧
      Keyword.sameWord k.text.toList t.literals = true ∧ k ∈ ks ∧ Stops isNameChar r
  | .identifier =>
      (isWord t.literals = true ∧ (Dictionary.ofWords ks).find? t.literals = none ∧
        Stops isNameChar r) ∨
      ∃ body, t.literals = wrap nameQuote body ∧ Stops (· == nameQuote) r
  | .hex => isHexNumber t.literals = true ∧ Stops isHexDigit r
  | .bindVariable => isVariable t.literals = true ∧ Stops isVariableChar r
  | .symbol sym => t.literals = sym.chars
  | .finish => t.literals = []
  | .int | .float | .chars => True
  | .error => False

/-! ## Words -/

theorem isWord_of_run {w : List Char} (hstart : isNameStart (peek w) = true)
    (hq : peek w ≠ nameQuote) (hw : ∀ c ∈ w, isNameChar c = true) : isWord w = true := by
  cases w with
  | nil => exact absurd hstart (by decide)
  | cons c w =>
      have hfirst : (isLetter c || c == '_' || c == '$') = true := by
        have hc : c ≠ nameQuote := hq
        simpa [isNameStart, hc] using hstart
      have hrest : w.all isNameChar = true :=
        List.all_eq_true.mpr fun x hx => hw x (List.mem_cons_of_mem _ hx)
      rw [isWord, hfirst, hrest]
      rfl

/-- Raising letters does not change what a word spells. -/
theorem Keyword.sameWord_map_toUpper (w : List Char) :
    sameWord (w.map Char.toUpper) w = true := by
  induction w with
  | nil => rfl
  | cons c w ih => simp [sameWord, ih]

/-- What is found is reserved and is spelled by the word. -/
theorem Dictionary.find?_sound {ks : List Keyword} {w : List Char} {k : Keyword}
    (h : (ofWords ks).find? w = some k) :
    Keyword.sameWord k.text.toList w = true ∧ k ∈ ks := by
  have htext : k.text = raise w := by simpa using List.find?_some h
  have hmem : k ∈ firsts ks := List.mem_of_find?_eq_some h
  refine ⟨?_, mem_firsts.mp hmem⟩
  rw [htext, raise, String.toList_ofList]
  exact Keyword.sameWord_map_toUpper w

/-- The dictionary decides between a keyword and a name. -/
theorem classified_of_word {ks : List Keyword} {w r : List Char} (hw : isWord w = true)
    (hr : Stops isNameChar r) (stop : Nat) :
    Token.Classified ks ⟨(Dictionary.ofWords ks).classify w .identifier, w, stop⟩ r := by
  rw [Dictionary.classify]
  split
  · next k hk =>
      obtain ⟨hsame, hmem⟩ := Dictionary.find?_sound hk
      exact ⟨hw, hsame, hmem, hr⟩
  · next hnone => exact Or.inl ⟨hw, hnone, hr⟩

/-! ## Lexemes -/

theorem isVariable_of_run {w : List Char} (hw : ∀ c ∈ w, isVariableChar c = true)
    (hat : peek w ≠ '@') : isVariable ('@' :: w) = true := by
  have hall : w.all isVariableChar = true := List.all_eq_true.mpr hw
  unfold isVariable
  split
  · next v hv =>
      obtain rfl : w = '@' :: v := (List.cons.inj hv).2
      exact absurd rfl hat
  · next v _ hv => rwa [← (List.cons.inj hv).2]
  · next h => exact absurd rfl (h w)

/-- A lexeme keeps the promise of its class, each class by its own rule. -/
theorem Lexeme.classified {ks : List Keyword} {f : Forms} {joined : Bool} {k : TokenKind}
    {v l r : List Char} (h : Lexeme (.ofWords ks) f joined k v l r) (stop : Nat) :
    Token.Classified ks ⟨k, v, stop⟩ r := by
  cases h with
  | @userVariable w r _ hw hr hat =>
      refine ⟨isVariable_of_run hw ?_, stops_of_peek hr⟩
      cases w with
      | nil => decide
      | cons c w => exact hat
  | systemVariable _ hw hr => exact ⟨List.all_eq_true.mpr hw, stops_of_peek hr⟩
  | name hstart hq hw hr _ =>
      exact classified_of_word (isWord_of_run hstart hq hw) (stops_of_peek hr) stop
  | @quotedName body r hr =>
      exact Or.inr ⟨body, rfl, stops_of_peek (by simpa using hr)⟩
  | hex hne hw hr =>
      refine ⟨?_, stops_of_peek hr⟩
      simp only [isHexNumber, Bool.and_eq_true, Bool.not_eq_true', List.isEmpty_eq_false_iff]
      exact ⟨hne, List.all_eq_true.mpr hw⟩
  | number => split <;> trivial
  | symbol => exact rfl
  | national => trivial
  | string => trivial

theorem classified_of_scanToken {s : Source} {ks : List Keyword} {f : Forms} {n : Nat} {t : Token}
    (hf : f.BuiltIn) (h : s.scanToken (.ofWords ks) f n = .ok t) :
    t.Classified ks (s.rest t.stop) := by
  by_cases ht : t.kind = .finish
  · obtain ⟨-, rfl⟩ := (kind_scanToken h).2 ht
    exact rfl
  · obtain ⟨l, r, hr, hstop, hl⟩ := isLexeme_of_scanToken hf h ht
    rw [hstop, rest_of_append hr]
    exact hl.classified t.stop

/-! ## Every token of every call -/

namespace Lexer

/-- A lexer for `s` with the words `ks` and the forms `f` whose last token keeps its promise. -/
structure Classifies (s : Source) (ks : List Keyword) (f : Forms) (l : Lexer) : Prop where
  source : l.source = s
  dictionary : l.dictionary = .ofWords ks
  forms : l.forms = f
  current : ∀ t, l.current = some t → t.Classified ks (s.rest t.stop)

variable {s : Source} {ks : List Keyword} {f : Forms} {l : Lexer} {t : Token}

theorem Classifies.scan (hl : l.Classifies s ks f) (hf : f.BuiltIn) (h : l.scan = .ok t) :
    t.Classified ks (s.rest t.stop) := by
  rw [Lexer.scan, hl.source, hl.dictionary, hl.forms] at h
  split at h
  · exact classified_of_scanToken hf h
  · exact absurd h (by simp)

theorem Classifies.upcoming (hl : l.Classifies s ks f) (hf : f.BuiltIn)
    (h : l.upcoming = .ok t) : t.Classified ks (s.rest t.stop) := by
  rw [Lexer.upcoming] at h
  split at h
  · next u hu =>
      split at h
      · obtain rfl := Except.ok.inj h
        exact hl.current _ hu
      · exact hl.scan hf h
  · exact hl.scan hf h

theorem Classifies.advance (hf : f.BuiltIn) (l : Lexer) (t : Token) (hl : l.Classifies s ks f)
    (h : l.upcoming = .ok t) : (l.advance t).Classifies s ks f where
  source := hl.source
  dictionary := hl.dictionary
  forms := hl.forms
  current u hu := by
    obtain rfl : t = u := Option.some.inj hu
    exact hl.upcoming hf h

theorem Classifies.after (hf : f.BuiltIn) (calls : List Call) :
    ((fresh s (.ofWords ks) f).after calls).Classifies s ks f := by
  refine after_induction (P := Classifies s ks f) (Classifies.advance hf) ?_ ?_ calls
  · intro l b hl
    exact ⟨hl.source, hl.dictionary, hl.forms, hl.current⟩
  · refine ⟨rfl, rfl, rfl, ?_⟩
    intro t ht
    exact absurd ht (by simp [fresh])

end Lexer

/-- After any calls on a fresh lexer, every token that a further call returns keeps the promise
of its class, up to the character behind it. -/
theorem returned_classified {f : Forms} (hf : f.BuiltIn) (s : Source) (ks : List Keyword)
    (calls : List Lexer.Call) (c : Lexer.Call) {t : Token}
    (h : t ∈ c.returned ((Lexer.fresh s (.ofWords ks) f).after calls)) :
    t.Classified ks (s.rest t.stop) := by
  obtain ⟨l, hl, hup⟩ :=
    Lexer.Call.returned_origin (Lexer.Classifies.advance hf) (.after hf calls) h
  exact hl.upcoming hf hup

/-- A reserved word in mixed case, a name whose quotes are doubled inside, and a variable behind
it, read in three different ways. -/
theorem returned_classified_adjacent :
    let f : Forms := ⟨none, some Forms.atSign, true, false⟩
    let s : Source := .ofString "fRom`a``b`@@x.y-1"
    let l := Lexer.fresh s (.ofWords [.FROM]) f
    let word : Token := ⟨.keyword .FROM, "fRom".toList, 4⟩
    let name : Token := ⟨.identifier, "`a``b`".toList, 10⟩
    let setting : Token := ⟨.bindVariable, "@@x.y".toList, 15⟩
    (f.BuiltIn ∧ word ∈ Lexer.Call.next.returned l ∧
      name ∈ Lexer.Call.pull.returned (l.after [.next]) ∧
      setting ∈ Lexer.Call.tokenize.returned (l.after [.next, .pull])) ∧
    word.Classified [.FROM] (s.rest 4) ∧ name.Classified [.FROM] (s.rest 10) ∧
      setting.Classified [.FROM] (s.rest 15) := by
  intro f s l word name setting
  have hf : f.BuiltIn := ⟨.inl rfl, .inr rfl⟩
  have hword : word ∈ Lexer.Call.next.returned l := by decide +kernel
  have hname : name ∈ Lexer.Call.pull.returned (l.after [.next]) := by decide +kernel
  have hat : setting ∈ Lexer.Call.tokenize.returned (l.after [.next, .pull]) := by
    decide +kernel
  exact ⟨⟨hf, hword, hname, hat⟩, returned_classified hf s _ [] .next hword,
    returned_classified hf s _ [.next] .pull hname,
    returned_classified hf s _ [.next, .pull] .tokenize hat⟩

end SqlLexis
