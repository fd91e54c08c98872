import SqlLexis.Proofs.Gap
import SqlLexis.Proofs.Numeral
import SqlLexis.Proofs.Operator
import SqlLexis.Proofs.Quoted

/-!
# The grammar of lexemes

A lexeme is the text a token stands for. `Lexeme d f joined kind literals l r` says that `l`
in front of `r` is one, with the class and the literals of its token; `joined` says whether
the character before it can end a name, which is all that a lexeme knows of what precedes.

The scanner tries its rules in order and the grammar does not; `isLexeme_of_scanToken`
and `scanToken_of_lexeme` say that they agree. What may be put behind a lexeme without
changing it is said by `Lexeme.of_resembles` and `Lexeme.of_clear`.
-/

namespace SqlLexis

open Source Quoted

/-! ## The grammar -/

/-- A hexadecimal number stands in front. -/
def startsHex (cs : List Char) : Bool :=
  peek cs == '0' && peek (cs.drop 1) == 'x'

/-- A decimal number stands in front. A sign or a dot that is joined to a name is none. -/
def startsNumber (joined : Bool) (cs : List Char) : Bool :=
  match peek cs with
  | '.' => isDigit (peek (cs.drop 1)) && !joined
  | '-' => (isDigit (peek (cs.drop 1)) || peek (cs.drop 1) == '.') && !joined
  | c => isDigit c

/-- A national string stands in front. -/
def startsNational (f : Forms) (cs : List Char) : Bool :=
  f.national && peek cs == 'N' && peek (cs.drop 1) == singleQuote

/-- The token classes with their literals, as they are written and where they end. -/
inductive Lexeme (d : Dictionary) (f : Forms) (joined : Bool) :
    TokenKind → List Char → List Char → List Char → Prop
  | userVariable {w r : List Char} : f.bindVariable.isSome = true →
      (∀ c ∈ w, isVariableChar c = true) → isVariableChar (peek r) = false →
      peek (w ++ r) ≠ '@' → Lexeme d f joined .bindVariable ('@' :: w) ('@' :: w) r
  | systemVariable {w r : List Char} : f.bindVariable.isSome = true →
      (∀ c ∈ w, isVariableChar c = true) → isVariableChar (peek r) = false →
      Lexeme d f joined .bindVariable ('@' :: '@' :: w) ('@' :: '@' :: w) r
  | national {body r : List Char} : f.national = true → peek r ≠ singleQuote →
      Lexeme d f joined .chars body ('N' :: wrap singleQuote body) r
  | name {w r : List Char} : isNameStart (peek w) = true → peek w ≠ nameQuote →
      (∀ c ∈ w, isNameChar c = true) → isNameChar (peek r) = false →
      startsNational f (w ++ r) = false → Lexeme d f joined (d.classify w .identifier) w w r
  | quotedName {body r : List Char} : peek r ≠ nameQuote →
      Lexeme d f joined .identifier (wrap nameQuote body) (wrap nameQuote body) r
  | hex {w r : List Char} : w ≠ [] → (∀ c ∈ w, isHexDigit c = true) →
      isHexDigit (peek r) = false → Lexeme d f joined .hex ('0' :: 'x' :: w) ('0' :: 'x' :: w) r
  | number {x : Numeral} {r : List Char} : x.WellFormed → x.Ends r → x.lexeme ≠ [] →
      startsHex (x.lexeme ++ r) = false → startsNumber joined (x.lexeme ++ r) = true →
      Lexeme d f joined (if x.isFloat then .float else .int) x.lexeme x.lexeme r
  | symbol {sym : Symbol} {r : List Char} : startsNumber joined (sym.chars ++ r) = false →
      sym.Longest (sym.chars ++ r) → Lexeme d f joined (.symbol sym) sym.chars sym.chars r
  | string {q : Char} {body r : List Char} : q = singleQuote ∨ q = doubleQuote → peek r ≠ q →
      Lexeme d f joined .chars body (wrap q body) r

/-! ## The scanner's choice, as a choice on what is left -/

section Dispatch

variable {s : Source} {d : Dictionary} {f : Forms} {n : Nat}

theorem Source.beginsNumber_eq : s.beginsNumber n = startsNumber (s.followsName n) (s.rest n) := by
  rw [startsNumber, ← rest_add]
  rfl

theorem Source.beginsHex_eq : s.beginsHex n = startsHex (s.rest n) := by
  rw [beginsHex, startsHex, rest_add]

theorem Source.beginsNational_eq : s.beginsNational f n = startsNational f (s.rest n) := by
  rw [beginsNational, startsNational, rest_add]

theorem isNameChar_of_isNameStart {c : Char} (h : isNameStart c = true) (hq : c ≠ nameQuote) :
    isNameChar c = true := by
  simp only [isNameStart, isNameChar, Bool.or_eq_true, beq_iff_eq, hq, or_false] at h ⊢
  rcases h with (h | h) | h <;> simp [h]

/-- Only a digit, a dot or a minus begins a number. -/
theorem peek_of_startsNumber {joined : Bool} {cs : List Char} (h : startsNumber joined cs = true) :
    isDigit (peek cs) = true ∨ peek cs = '.' ∨ peek cs = '-' := by
  unfold startsNumber at h
  split at h
  · next hc => exact Or.inr (Or.inl hc)
  · next hc => exact Or.inr (Or.inr hc)
  · exact Or.inl h

theorem Forms.BuiltIn.not_beginsVariable (hf : f.BuiltIn) (h : peek (s.rest n) ≠ '@') :
    f.beginsVariable s n = false := by
  rw [← Bool.not_eq_true, hf.beginsVariable_iff]
  rintro ⟨-, r, hr⟩
  rw [hr] at h
  exact h rfl

end Dispatch

/-! ## What is scanned is a lexeme -/

section Sound

variable {s : Source} {d : Dictionary} {f : Forms} {n : Nat} {t : Token}

/-- `t` is the token of a lexeme that stands at `n`. -/
def Source.IsLexeme (s : Source) (d : Dictionary) (f : Forms) (n : Nat) (t : Token) : Prop :=
  ∃ l r, s.rest n = l ++ r ∧ t.stop = n + l.length ∧
    Lexeme d f (s.followsName n) t.kind t.literals l r

theorem variableLength_of_ne {c : Char} {u : List Char} (h : peek u ≠ '@') :
    variableLength (c :: u) = 1 + runLength isVariableChar u := by
  unfold variableLength
  split
  · next v hv =>
      rw [show u = '@' :: v from hv] at h
      exact absurd rfl h
  · rfl

theorem isLexeme_scanVariable (hv : f.bindVariable.isSome = true) {u : List Char}
    (hs : s.rest n = '@' :: u) : s.IsLexeme d f n (s.scanVariable n) := by
  by_cases hu : peek u = '@'
  · obtain ⟨v, rfl⟩ := eq_cons_of_peek hu (by decide)
    obtain ⟨w, r, rfl, hrun, hw, hr⟩ := exists_run (p := isVariableChar) (by decide) v
    have hl : s.rest n = ('@' :: '@' :: w) ++ r := hs
    have hlen : variableLength (s.rest n) = ('@' :: '@' :: w).length := by
      rw [hs, List.length_cons, List.length_cons, ← hrun]
      exact Nat.add_comm _ _
    rw [scanVariable, hlen, cut_of_append hl]
    exact ⟨_, r, hl, rfl, .systemVariable hv hw hr⟩
  · obtain ⟨w, r, rfl, hrun, hw, hr⟩ := exists_run (p := isVariableChar) (by decide) u
    have hl : s.rest n = ('@' :: w) ++ r := hs
    have hlen : variableLength (s.rest n) = ('@' :: w).length := by
      rw [hs, variableLength_of_ne hu, hrun, Nat.add_comm, List.length_cons]
    rw [scanVariable, hlen, cut_of_append hl]
    exact ⟨_, r, hl, rfl, .userVariable hv hw hr hu⟩

theorem isLexeme_scanName (hstart : isNameStart (peek (s.rest n)) = true)
    (hnat : startsNational f (s.rest n) = false) (h : s.scanName d n = .ok t) :
    s.IsLexeme d f n t := by
  unfold scanName at h
  split at h
  · next hq =>
      obtain ⟨u, hu⟩ := eq_cons_of_peek hq (by decide)
      split at h
      · next m hm =>
          obtain ⟨body, r, hl, hr, rfl⟩ := exists_wrap_of_quotedEnd hu hm
          obtain rfl := Except.ok.inj h
          rw [Nat.add_sub_cancel_left, cut_of_append hl]
          exact ⟨_, r, hl, rfl, .quotedName hr⟩
      · exact absurd h (by simp)
  · next hq =>
      obtain ⟨w, r, hl, hrun, hw, hr⟩ := exists_run (p := isNameChar) (by decide) (s.rest n)
      obtain rfl := Except.ok.inj h
      simp only [hrun, slice_of_append hl, cut_of_append hl]
      have hrunNe : w ≠ [] := by
        rintro rfl
        rw [hl, List.nil_append] at hstart hq
        exact absurd (isNameChar_of_isNameStart hstart hq) (by simp [hr])
      obtain ⟨c, w, rfl⟩ := List.exists_cons_of_ne_nil hrunNe
      rw [hl] at hstart hq hnat
      exact ⟨_, r, hl, rfl, .name hstart hq hw hr hnat⟩

theorem isLexeme_scanHex (hstart : startsHex (s.rest n) = true) (h : s.scanHex n = .ok t) :
    s.IsLexeme d f n t := by
  obtain ⟨h0, hx⟩ : peek (s.rest n) = '0' ∧ peek ((s.rest n).drop 1) = 'x' := by
    simpa [startsHex] using hstart
  obtain ⟨u, hu⟩ := eq_cons_of_peek h0 (by decide)
  rw [hu] at hx
  obtain ⟨v, rfl⟩ := eq_cons_of_peek hx (by decide)
  have hrest : s.rest (n + 2) = v := by
    rw [rest_add, hu]
    rfl
  obtain ⟨w, r, rfl, hrun, hw, hr⟩ := exists_run (p := isHexDigit) (by decide) v
  have hl : s.rest n = ('0' :: 'x' :: w) ++ r := hu
  simp only [scanHex, hrest, hrun] at h
  split at h
  · exact absurd h (by simp)
  · next hne =>
      obtain rfl := Except.ok.inj h
      have hlen : 2 + w.length = ('0' :: 'x' :: w).length := Nat.add_comm _ _
      rw [hlen, cut_of_append hl]
      refine ⟨_, r, hl, rfl, .hex ?_ hw hr⟩
      rintro rfl
      exact hne rfl

theorem isLexeme_scanNumber (hhex : startsHex (s.rest n) = false)
    (hstart : startsNumber (s.followsName n) (s.rest n) = true) :
    s.IsLexeme d f n (s.scanNumber n) := by
  obtain ⟨r, hl, hends⟩ := Numeral.exists_ends_read (s.rest n)
  have hx := Numeral.wellFormed_read (s.rest n)
  have hpos := (scanNumber_bounds (beginsNumber_eq.trans hstart)).1
  generalize hread : Numeral.read (s.rest n) = x at hl hends hx
  simp only [scanNumber, hread, cut_of_append hl] at hpos ⊢
  have hne : x.lexeme ≠ [] := by
    intro hnil
    rw [hnil] at hpos
    exact absurd hpos (Nat.lt_irrefl n)
  rw [hl] at hhex hstart
  exact ⟨_, r, hl, rfl, .number hx hends hne hhex hstart⟩

/-- A token other than the end is the token of a lexeme. -/
theorem isLexeme_of_scanToken (hf : f.BuiltIn) (h : s.scanToken d f n = .ok t)
    (ht : t.kind ≠ .finish) : s.IsLexeme d f n t := by
  simp only [scanToken, beginsNumber_eq, beginsHex_eq, beginsNational_eq] at h
  split at h
  · next hv =>
      obtain ⟨hsome, u, hu⟩ := hf.beginsVariable_iff.mp hv
      obtain rfl := Except.ok.inj h
      exact isLexeme_scanVariable hsome hu
  split at h
  · next hn =>
      obtain ⟨⟨hnat, hN⟩, hq⟩ : (f.national = true ∧ peek (s.rest n) = 'N') ∧
          peek ((s.rest n).drop 1) = singleQuote := by simpa [startsNational] using hn
      obtain ⟨u, hu⟩ := eq_cons_of_peek hN (by decide)
      rw [hu] at hq
      obtain ⟨v, rfl⟩ := eq_cons_of_peek hq (by decide)
      have hrest : s.rest (n + 1) = singleQuote :: v := by
        rw [rest_add, hu]
        rfl
      obtain ⟨body, r, hbody, hr, rfl⟩ := exists_wrap_of_scanChars hrest h
      refine ⟨'N' :: wrap singleQuote body, r, ?_, ?_, .national hnat hr⟩
      · rw [hu, ← hrest, hbody]
        rfl
      · simp only [List.length_cons]
        omega
  split at h
  · next hnat hstart =>
      exact isLexeme_scanName hstart (by simpa using hnat) h
  split at h
  · next hhex => exact isLexeme_scanHex hhex h
  split at h
  · next hhex hstart =>
      obtain rfl := Except.ok.inj h
      exact isLexeme_scanNumber (by simpa using hhex) hstart
  split at h
  · next hnum _ =>
      split at h
      · exact absurd h (by simp)
      · next hkind =>
          obtain rfl := Except.ok.inj h
          obtain ⟨sym, r, hl, hmax, hscan⟩ := exists_longest_of_scanSymbol hkind
          rw [hl] at hnum
          rw [hscan]
          exact ⟨_, r, hl, rfl, .symbol (by simpa using hnum) hmax⟩
  split at h
  · next hq =>
      have hne : peek (s.rest n) ≠ endOfInput := by
        rcases hq with hq | hq <;> rw [hq] <;> decide
      obtain ⟨u, hu⟩ := eq_cons_of_peek rfl hne
      obtain ⟨body, r, hl, hr, rfl⟩ := exists_wrap_of_scanChars hu h
      exact ⟨_, r, hl, rfl, .string hq hr⟩
  split at h
  · obtain rfl := Except.ok.inj h
    exact absurd rfl ht
  · exact absurd h (by simp)

end Sound

/-! ## A lexeme is scanned as its token -/

section Complete

variable {s : Source} {d : Dictionary} {f : Forms} {n : Nat}

/-- What the first character of a number or symbol rules out. -/
structure NotWord (c : Char) : Prop where
  atSign : c ≠ '@'
  national : c ≠ 'N'
  name : isNameStart c = false

theorem notWord_of_isDigit {c : Char} (h : isDigit c = true) : NotWord c := by
  have hle : 48 ≤ c.toNat ∧ c.toNat ≤ 57 := by
    simp only [isDigit, Bool.and_eq_true, decide_eq_true_eq, Char.le_def,
      UInt32.le_iff_toNat_le] at h
    exact h
  have hne : ∀ x : Char, 57 < x.toNat ∨ x.toNat < 48 → c ≠ x := by
    rintro x hx rfl
    omega
  have hletter : isLetter c = false := by
    rw [← Bool.not_eq_true]
    simp only [isLetter, Bool.or_eq_true, Bool.and_eq_true, decide_eq_true_eq, Char.le_def,
      UInt32.le_iff_toNat_le]
    rintro (⟨h1, -⟩ | ⟨h1, -⟩)
    · have : 97 ≤ c.toNat := h1
      omega
    · have : 65 ≤ c.toNat := h1
      omega
  refine ⟨hne _ (by decide), hne _ (by decide), ?_⟩
  simp [isNameStart, hletter, hne nameQuote (by decide), hne '_' (by decide),
    hne '$' (by decide)]

theorem notWord_of_isSymbolChar {c : Char} (h : isSymbolChar c = true) : NotWord c := by
  have hne : ∀ x, isSymbolChar x = false → c ≠ x := by
    rintro x hx rfl
    exact absurd h (by simp [hx])
  have hall : symbolChars.any isNameStart = false := by decide
  refine ⟨hne _ (by decide), hne _ (by decide), ?_⟩
  exact Bool.eq_false_iff.mpr (List.any_eq_false.mp hall c (List.contains_iff_mem.mp h))

/-- Past the rules for words, the scanner looks for numbers, symbols and strings. -/
theorem scanToken_of_notWord (hf : f.BuiltIn) (h : NotWord (peek (s.rest n))) :
    s.scanToken d f n =
      if startsHex (s.rest n) = true then s.scanHex n
      else if startsNumber (s.followsName n) (s.rest n) = true then .ok (s.scanNumber n)
      else if isSymbolChar (peek (s.rest n)) = true then
        if (s.scanSymbol n).kind = .error then
          .error (s.fault (.unexpectedChar (peek (s.rest n))) n)
        else .ok (s.scanSymbol n)
      else if peek (s.rest n) = singleQuote ∨ peek (s.rest n) = doubleQuote then s.scanChars n
      else if s.length ≤ n then .ok ⟨.finish, [], n⟩
      else .error (s.fault (.unexpectedChar (peek (s.rest n))) n) := by
  have hnat : startsNational f (s.rest n) = false := by
    simp [startsNational, h.national]
  simp only [scanToken, beginsNumber_eq, beginsHex_eq, beginsNational_eq,
    hf.not_beginsVariable h.atSign, hnat, h.name, Bool.false_eq_true, if_false]

theorem startsHex_of_peek_ne {cs : List Char} (h : peek cs ≠ '0') : startsHex cs = false := by
  simp [startsHex, h]

theorem scanVariable_of_lexeme {l r : List Char} (hs : s.rest n = l ++ r)
    (hl : variableLength (l ++ r) = l.length) :
    s.scanVariable n = ⟨.bindVariable, l, n + l.length⟩ := by
  rw [scanVariable, hs, hl, cut_of_append hs]

theorem Lexeme.ne_nil {joined : Bool} {k : TokenKind} {v l r : List Char}
    (h : Lexeme d f joined k v l r) : l ≠ [] := by
  cases h with
  | userVariable => simp
  | systemVariable => simp
  | national => simp
  | name hstart =>
      rintro rfl
      exact absurd hstart (by decide)
  | quotedName => simp [wrap]
  | hex => simp
  | number _ _ hne => exact hne
  | symbol => exact Symbol.chars_ne_nil _
  | string => simp [wrap]

theorem variableLength_user {w r : List Char} (hw : ∀ c ∈ w, isVariableChar c = true)
    (hr : isVariableChar (peek r) = false) (hat : peek (w ++ r) ≠ '@') :
    variableLength ('@' :: w ++ r) = ('@' :: w).length := by
  rw [List.cons_append, variableLength_of_ne hat, runLength_append hw hr, Nat.add_comm,
    List.length_cons]

theorem variableLength_system {w r : List Char} (hw : ∀ c ∈ w, isVariableChar c = true)
    (hr : isVariableChar (peek r) = false) :
    variableLength ('@' :: '@' :: w ++ r) = ('@' :: '@' :: w).length := by
  rw [List.length_cons, List.length_cons, ← runLength_append hw hr]
  exact Nat.add_comm _ _

theorem scanName_of_run {w r : List Char} (hs : s.rest n = w ++ r)
    (hstart : isNameStart (peek w) = true) (hq : peek w ≠ nameQuote)
    (hw : ∀ c ∈ w, isNameChar c = true) (hr : isNameChar (peek r) = false) :
    s.scanName d n = .ok ⟨d.classify w .identifier, w, n + w.length⟩ := by
  have hne : w ≠ [] := by
    rintro rfl
    exact absurd hstart (by decide)
  have hpeek : peek (s.rest n) = peek w := by rw [hs, peek_append hne]
  have hrun : runLength isNameChar (s.rest n) = w.length := by
    rw [hs, runLength_append hw hr]
  rw [scanName, hpeek, if_neg hq]
  simp only [hrun, slice_of_append hs, cut_of_append hs]

theorem scanName_of_wrap {body r : List Char} (hs : s.rest n = wrap nameQuote body ++ r)
    (hr : peek r ≠ nameQuote) :
    s.scanName d n =
      .ok ⟨.identifier, wrap nameQuote body, n + (wrap nameQuote body).length⟩ := by
  have hpeek : peek (s.rest n) = nameQuote := by
    rw [hs]
    rfl
  rw [scanName, if_pos hpeek, quotedEnd_of_wrap (by decide) hs hr]
  simp only [Nat.add_sub_cancel_left, cut_of_append hs]

theorem scanHex_of_run {w r : List Char} (hs : s.rest n = '0' :: 'x' :: w ++ r) (hne : w ≠ [])
    (hw : ∀ c ∈ w, isHexDigit c = true) (hr : isHexDigit (peek r) = false) :
    s.scanHex n = .ok ⟨.hex, '0' :: 'x' :: w, n + ('0' :: 'x' :: w).length⟩ := by
  have hrest : s.rest (n + 2) = w ++ r := by
    rw [rest_add, hs]
    rfl
  have hlen : 2 + w.length = ('0' :: 'x' :: w).length := Nat.add_comm _ _
  have hpos : w.length ≠ 0 := fun h => hne (List.eq_nil_of_length_eq_zero h)
  simp only [scanHex, hrest, runLength_append hw hr, if_neg hpos]
  rw [hlen, cut_of_append hs]

theorem scanNumber_of_lexeme {x : Numeral} {r : List Char} (hs : s.rest n = x.lexeme ++ r)
    (hx : x.WellFormed) (hends : x.Ends r) (hne : x.lexeme ≠ []) :
    s.scanNumber n =
      ⟨if x.isFloat then .float else .int, x.lexeme, n + x.lexeme.length⟩ := by
  have hread : Numeral.read (s.rest n) = x := by
    rw [hs, Numeral.read_lexeme_append hx hends hne]
  simp only [scanNumber, hread, cut_of_append hs]

/-! The rule that the scanner picks, by what stands in front. -/

theorem scanToken_of_national (hf : f.BuiltIn) (hnat : f.national = true) {u : List Char}
    (hs : s.rest n = 'N' :: singleQuote :: u) : s.scanToken d f n = s.scanChars (n + 1) := by
  have hv := hf.not_beginsVariable (s := s) (n := n) (by rw [hs]; simp)
  have hn : s.beginsNational f n = true := by
    rw [beginsNational_eq, hs]
    simp [startsNational, hnat]
  simp only [scanToken, hv, hn, if_true, Bool.false_eq_true, if_false]

theorem scanToken_of_nameStart (hf : f.BuiltIn) (hstart : isNameStart (peek (s.rest n)) = true)
    (hnat : startsNational f (s.rest n) = false) : s.scanToken d f n = s.scanName d n := by
  have hat : peek (s.rest n) ≠ '@' := by
    intro h
    rw [h] at hstart
    exact absurd hstart (by decide)
  simp only [scanToken, hf.not_beginsVariable hat, beginsNational_eq, hnat, hstart,
    Bool.false_eq_true, if_false, if_true]

theorem scanToken_of_startsHex (hf : f.BuiltIn) (h : startsHex (s.rest n) = true) :
    s.scanToken d f n = s.scanHex n := by
  have hzero : peek (s.rest n) = '0' := by
    rw [startsHex, Bool.and_eq_true, beq_iff_eq] at h
    exact h.1
  have hword : NotWord (peek (s.rest n)) := by
    rw [hzero]
    exact notWord_of_isDigit (by decide)
  rw [scanToken_of_notWord hf hword, if_pos h]

theorem scanToken_of_quote (hf : f.BuiltIn) {q : Char} {u : List Char}
    (hq : q = singleQuote ∨ q = doubleQuote) (hs : s.rest n = q :: u) :
    s.scanToken d f n = s.scanChars n := by
  have hfirst : peek (s.rest n) = q := by rw [hs, peek_cons]
  have hword : NotWord q := by
    rcases hq with rfl | rfl <;> exact ⟨by decide, by decide, by decide⟩
  have hclass : isSymbolChar q = false ∧ isDigit q = false ∧ q ≠ '0' := by
    rcases hq with rfl | rfl <;> decide
  have hnum : startsNumber (s.followsName n) (s.rest n) = false := by
    rw [← Bool.not_eq_true]
    intro h
    rcases peek_of_startsNumber h with hd | hd | hd <;> rw [hfirst] at hd
    · exact absurd hclass.2.1 (by simp [hd])
    · exact absurd hclass.1 (by rw [hd]; decide)
    · exact absurd hclass.1 (by rw [hd]; decide)
  rw [scanToken_of_notWord hf (hfirst ▸ hword),
    if_neg (by simp [startsHex_of_peek_ne (hfirst ▸ hclass.2.2)]), if_neg (by simp [hnum]),
    hfirst, if_neg (by simp [hclass.1]), if_pos hq]

/-- Where a lexeme stands, its token is scanned. -/
theorem scanToken_of_lexeme (hf : f.BuiltIn) {k : TokenKind} {v l r : List Char}
    (hs : s.rest n = l ++ r) (h : Lexeme d f (s.followsName n) k v l r) :
    s.scanToken d f n = .ok ⟨k, v, n + l.length⟩ := by
  have hpeek : peek (s.rest n) = peek l := by rw [hs, peek_append h.ne_nil]
  cases h with
  | @userVariable w r hsome hw hr hat =>
      have hv : f.beginsVariable s n = true := hf.beginsVariable_iff.mpr ⟨hsome, w ++ r, hs⟩
      simp only [scanToken, hv, if_true]
      rw [scanVariable_of_lexeme hs (variableLength_user hw hr hat)]
  | @systemVariable w r hsome hw hr =>
      have hv : f.beginsVariable s n = true :=
        hf.beginsVariable_iff.mpr ⟨hsome, '@' :: w ++ r, hs⟩
      simp only [scanToken, hv, if_true]
      rw [scanVariable_of_lexeme hs (variableLength_system hw hr)]
  | @national _ r hnat hr =>
      have hrest : s.rest (n + 1) = wrap singleQuote v ++ r := by
        rw [rest_add, hs]
        rfl
      rw [scanToken_of_national hf hnat hs, scanChars_of_wrap (by decide) hrest hr,
        List.length_cons, Nat.add_right_comm, Nat.add_assoc]
  | name hstart hq hw hr hnat =>
      rw [scanToken_of_nameStart hf (by rwa [hpeek]) (by rwa [hs])]
      exact scanName_of_run hs hstart hq hw hr
  | @quotedName body r hr =>
      have hq : peek (s.rest n) = nameQuote := hpeek
      have hnat : startsNational f (s.rest n) = false := by simp [startsNational, hq, nameQuote]
      rw [scanToken_of_nameStart hf (by rw [hq]; decide) hnat]
      exact scanName_of_wrap hs hr
  | hex hne hw hr =>
      rw [scanToken_of_startsHex hf (by rw [hs]; rfl)]
      exact scanHex_of_run hs hne hw hr
  | number hx hends hne hhex hstart =>
      have hword : NotWord (peek (s.rest n)) := by
        rw [hs]
        rcases peek_of_startsNumber hstart with hd | hd | hd
        · exact notWord_of_isDigit hd
        · rw [hd]
          exact notWord_of_isSymbolChar (by decide)
        · rw [hd]
          exact notWord_of_isSymbolChar (by decide)
      rw [scanToken_of_notWord hf hword, if_neg (by rw [hs, hhex]; simp),
        if_pos (by rw [hs, hstart]), scanNumber_of_lexeme hs hx hends hne]
  | @symbol sym r hnum hmax =>
      have hsym : isSymbolChar (peek (s.rest n)) = true := by
        obtain ⟨c, w, hc⟩ := List.exists_cons_of_ne_nil sym.chars_ne_nil
        have hmem : c ∈ sym.chars := by
          rw [hc]
          exact List.mem_cons_self
        rw [hpeek, hc]
        exact Symbol.isSymbolChar_of_mem_chars hmem
      have hzero : peek (s.rest n) ≠ '0' := by
        intro h
        rw [h] at hsym
        exact absurd hsym (by decide)
      rw [scanToken_of_notWord hf (notWord_of_isSymbolChar hsym),
        if_neg (by simp [startsHex_of_peek_ne hzero]), if_neg (by rw [hs, hnum]; simp),
        if_pos hsym, scanSymbol_of_longest hs hmax, if_neg (by simp)]
  | @string q _ r hq hr =>
      have hne : q ≠ endOfInput := by rcases hq with rfl | rfl <;> decide
      rw [scanToken_of_quote hf hq (hs.trans (wrap_append q v r)), scanChars_of_wrap hne hs hr]

end Complete

/-! ## What may follow a lexeme -/

section Follow

variable {d : Dictionary} {f : Forms} {joined : Bool} {k : TokenKind} {v l r r' : List Char}

theorem startsNational_of_resembles (h : Resembles r r') (hr : startsNational f r = false) :
    startsNational f r' = false := by
  cases h with
  | apart _ _ hc => simp [startsNational, hc.peek_ne (c := 'N') (by decide)]
  | @cons u u' c h =>
      simp only [startsNational, peek_cons, List.drop_succ_cons, List.drop_zero,
        Bool.and_eq_false_iff, beq_eq_false_iff_ne] at hr ⊢
      exact hr.imp_right (h.peek_ne (by decide))

theorem startsHex_of_resembles (h : Resembles r r') (hr : startsHex r = false) :
    startsHex r' = false := by
  cases h with
  | apart _ _ hc => exact startsHex_of_peek_ne (hc.peek_ne (by decide))
  | @cons u u' c h =>
      simp only [startsHex, peek_cons, List.drop_succ_cons, List.drop_zero,
        Bool.and_eq_false_iff, beq_eq_false_iff_ne] at hr ⊢
      exact hr.imp_right (h.peek_ne (by decide))

/-- Whether a number begins does not depend on more than looks alike. -/
theorem startsNumber_append_of_resembles (h : Resembles r r') (hl : l ≠ []) :
    startsNumber joined (l ++ r') = startsNumber joined (l ++ r) := by
  obtain ⟨c, l, rfl⟩ := List.exists_cons_of_ne_nil hl
  have hlr := h.append l
  have hdot : (peek (l ++ r') == '.') = (peek (l ++ r) == '.') := by
    rw [Bool.eq_iff_iff, beq_iff_eq, beq_iff_eq, hlr.peek_eq_dot_iff]
  simp only [startsNumber, List.cons_append, peek_cons, List.drop_succ_cons, List.drop_zero,
    hlr.isDigit_peek, hdot]

/-- A run of symbol characters in front of a text is also in front of one it looks like. -/
theorem prefix_of_resembles {w : List Char} (h : Resembles r r') (hw : w <+: r')
    (hsym : ∀ c ∈ w, isSymbolChar c = true) : w <+: r := by
  induction h generalizing w with
  | @apart r r' _ _ hc =>
      cases w with
      | nil => exact List.nil_prefix
      | cons c w =>
          obtain ⟨u, rfl⟩ := hw
          have hblank : isSymbolChar c = false := hc.not_class (p := isSymbolChar) (by decide)
          exact absurd (hsym c List.mem_cons_self) (by simp [hblank])
  | cons c _ ih =>
      cases w with
      | nil => exact List.nil_prefix
      | cons e w =>
          rw [List.cons_prefix_cons] at hw ⊢
          exact ⟨hw.1, ih hw.2 fun c hc => hsym c (List.mem_cons_of_mem _ hc)⟩

theorem Symbol.Longest.of_resembles {sym : Symbol} (h : sym.Longest r) (hr : Resembles r r') :
    sym.Longest r' := by
  intro other hother
  exact h other (prefix_of_resembles hr hother fun c hc => isSymbolChar_of_mem_chars hc)

/-- A lexeme stays one when what follows it is replaced by something that looks alike. -/
theorem Lexeme.of_resembles (h : Lexeme d f joined k v l r) (hr : Resembles r r') :
    Lexeme d f joined k v l r' := by
  cases h with
  | userVariable hsome hw hend hat =>
      exact .userVariable hsome hw (hr.not_class (by decide) hend)
        ((hr.append _).peek_ne (by decide) hat)
  | systemVariable hsome hw hend =>
      exact .systemVariable hsome hw (hr.not_class (by decide) hend)
  | national hnat hend => exact .national hnat (hr.peek_ne (by decide) hend)
  | name hstart hq hw hend hnat =>
      exact .name hstart hq hw (hr.not_class (by decide) hend)
        (startsNational_of_resembles (hr.append _) hnat)
  | quotedName hend => exact .quotedName (hr.peek_ne (by decide) hend)
  | hex hne hw hend => exact .hex hne hw (hr.not_class (by decide) hend)
  | number hx hends hne hhex hnum =>
      exact .number hx (hends.of_resembles hr) hne (startsHex_of_resembles (hr.append _) hhex)
        ((startsNumber_append_of_resembles hr hne).trans hnum)
  | symbol hnum hmax =>
      exact .symbol ((startsNumber_append_of_resembles hr (Symbol.chars_ne_nil _)).trans hnum)
        (hmax.of_resembles (hr.append _))
  | string hq hend =>
      refine .string hq (hr.peek_ne ?_ hend)
      rcases hq with rfl | rfl <;> decide

/-! ### Cutting a lexeme off

A lexeme that is followed by a blank instead of whatever followed it stays the same, and
nothing is joined to it any more. The one exception is a minus that took the first of two
dots for a fraction to come. -/

/-- The character behind a lexeme's first one, if it is not the lexeme's own, is now a blank. -/
theorem peek_drop_append_clear {c : Char} (hr : Clear r') (hl : l ≠ [])
    (hc : c ∉ endOfInput :: blankChars) (h : peek ((l ++ r').drop 1) = c) :
    peek ((l ++ r).drop 1) = c := by
  obtain ⟨a, l, rfl⟩ := List.exists_cons_of_ne_nil hl
  cases l with
  | nil => exact absurd h (hr.peek_ne hc)
  | cons b l => exact h

/-- A run of symbol characters does not reach into a clear text. -/
theorem prefix_of_prefix_clear {w : List Char} (hw : w <+: l ++ r') (hr : Clear r')
    (hsym : ∀ c ∈ w, isSymbolChar c = true) : w <+: l :=
  prefix_of_resembles (.append_clear hr l) hw hsym

/-- No comment begins where none began, if no run of symbol characters is new in front. -/
theorem Settled.of_prefixes (h : Settled f (l ++ r)) (hl : l ≠ [])
    (hp : ∀ w, (∀ c ∈ w, isSymbolChar c = true) → w <+: l ++ r' → w <+: l ++ r) :
    Settled f (l ++ r') where
  blank := by
    have hblank := h.blank
    rw [peek_append hl] at hblank ⊢
    exact hblank
  block hb := h.block (hp _ (List.all_eq_true.mp rfl) hb)
  line o ho hb := by
    have hsym : ∀ c ∈ o, isSymbolChar c = true := by
      rcases mem_lineOpeners ho with rfl | rfl | ⟨-, rfl⟩ <;> exact List.all_eq_true.mp rfl
    exact h.line o ho (hp o hsym hb)

/-- No comment begins where none began and what follows looks alike. -/
theorem Settled.of_resembles (h : Settled f (l ++ r)) (hl : l ≠ []) (hr : Resembles r r') :
    Settled f (l ++ r') :=
  h.of_prefixes hl fun _ hsym hw => prefix_of_resembles (hr.append l) hw hsym

/-- No comment begins where none began and the text behind is cut off. -/
theorem Settled.of_clear (h : Settled f (l ++ r)) (hl : l ≠ []) (hr : Clear r') :
    Settled f (l ++ r') :=
  h.of_prefixes hl fun _ hsym hw =>
    (prefix_of_prefix_clear hw hr hsym).trans (List.prefix_append l r)

theorem Symbol.longest_of_clear (sym : Symbol) (hr : Clear r') :
    sym.Longest (sym.chars ++ r') := by
  intro other hother
  exact (prefix_of_prefix_clear hother hr fun c hc => isSymbolChar_of_mem_chars hc).length_le

/-- A symbol in front of a blank is no sign and no dot of a number. -/
theorem Symbol.not_startsNumber_of_clear (sym : Symbol) (hr : Clear r') :
    startsNumber joined (sym.chars ++ r') = false := by
  have hdigit := hr.not_digit
  have hdot : peek r' ≠ '.' := hr.peek_ne (by decide)
  have hpoint : isDigit '.' = false := by decide
  cases sym <;> simp [Symbol.chars, startsNumber, hdigit, hdot, hpoint] <;> decide

/-- A number that begins with a lone minus has nothing else: two dots stopped it. -/
theorem Numeral.minus_of_lexeme {x : Numeral} (hx : x.WellFormed) (h : x.lexeme = ['-']) :
    x = ⟨['-'], [], [], [], []⟩ := by
  have hsign : x.sign = ['-'] := by
    rcases hx.sign with hs | hs
    · exact absurd (by rw [h]; rfl) (Numeral.peek_ne_minus (r := []) hx hs (by simp [h]))
    · exact hs
  obtain ⟨sign, whole, fraction, exponent, suffix⟩ := x
  obtain rfl : sign = ['-'] := hsign
  simp only [Numeral.lexeme, List.append_assoc, List.cons_append, List.nil_append,
    List.cons.injEq, true_and, List.append_eq_nil_iff] at h
  obtain ⟨rfl, rfl, rfl, rfl⟩ := h
  rfl

/-- A number is more than a dot in front of a digit. -/
theorem Numeral.lexeme_ne_dot {x : Numeral} (hx : x.WellFormed) (hr : x.Ends r)
    (hd : isDigit (peek r) = true) : x.lexeme ≠ ['.'] := by
  intro h
  rcases hx.suffix with hs | ⟨c, hs, hc⟩
  · exact absurd (hr.digit hs) (by simp [hd])
  · have hlast : x.lexeme.getLast? = some c := by simp [Numeral.lexeme, hs]
    rw [h] at hlast
    obtain rfl : '.' = c := by simpa using hlast
    rcases hc with hc | hc | hc | hc <;> exact absurd hc (by decide)

theorem Numeral.startsNumber_of_clear {x : Numeral} (hx : x.WellFormed) (hends : x.Ends r)
    (hne : x.lexeme ≠ []) (hminus : x.lexeme ≠ ['-'])
    (h : startsNumber joined (x.lexeme ++ r) = true) (r' : List Char) :
    startsNumber false (x.lexeme ++ r') = true := by
  have hdot := fun hd => Numeral.lexeme_ne_dot hx hends hd
  generalize x.lexeme = l at h hne hminus hdot
  obtain ⟨c, l, rfl⟩ := List.exists_cons_of_ne_nil hne
  cases l with
  | cons second l =>
      simp only [startsNumber, List.cons_append, peek_cons, List.drop_succ_cons, List.drop_zero,
        Bool.not_false, Bool.and_true] at h ⊢
      split at h
      · exact (Bool.and_eq_true_iff.mp h).1
      · exact (Bool.and_eq_true_iff.mp h).1
      · exact h
  | nil =>
      simp only [startsNumber, List.cons_append, peek_cons, List.nil_append, List.drop_succ_cons,
        List.drop_zero, Bool.not_false, Bool.and_true] at h ⊢
      split at h
      · exact absurd rfl (hdot (Bool.and_eq_true_iff.mp h).1)
      · exact absurd rfl hminus
      · exact h

/-- A lexeme stays one when a blank or the end of the text is put behind it, unless it is
a lone minus. -/
theorem Lexeme.of_clear (h : Lexeme d f joined k v l r) (hr : Clear r')
    (hminus : k = .int → l ≠ ['-']) : Lexeme d f false k v l r' := by
  cases h with
  | @userVariable w r hsome hw _ hat =>
      refine .userVariable hsome hw (hr.not_class (by decide)) ?_
      cases w with
      | nil => exact hr.peek_ne (by decide)
      | cons c w => exact hat
  | systemVariable hsome hw _ => exact .systemVariable hsome hw (hr.not_class (by decide))
  | national hnat _ => exact .national hnat (hr.peek_ne (by decide))
  | name hstart hq hw _ hnat =>
      have hne : v ≠ [] := by
        rintro rfl
        exact absurd hstart (by decide)
      refine .name hstart hq hw hr.not_nameChar ?_
      simp only [startsNational, peek_append hne, Bool.and_eq_false_iff,
        beq_eq_false_iff_ne] at hnat ⊢
      exact hnat.imp_right (mt (peek_drop_append_clear hr hne (by decide)))
  | quotedName _ => exact .quotedName (hr.peek_ne (by decide))
  | hex hne hw _ => exact .hex hne hw (hr.not_class (by decide))
  | @number x r hx hends hne hhex hnum =>
      have hlone : x.lexeme ≠ ['-'] := by
        intro h
        obtain rfl := Numeral.minus_of_lexeme hx h
        exact hminus rfl rfl
      refine .number hx (.of_clear x hr) hne ?_
        (Numeral.startsNumber_of_clear hx hends hne hlone hnum r')
      simp only [startsHex, peek_append hne, Bool.and_eq_false_iff,
        beq_eq_false_iff_ne] at hhex ⊢
      exact hhex.imp_right (mt (peek_drop_append_clear hr hne (by decide)))
  | @symbol sym r _ _ =>
      exact .symbol (sym.not_startsNumber_of_clear hr) (sym.longest_of_clear hr)
  | string hq _ =>
      refine .string hq (hr.peek_ne ?_)
      rcases hq with rfl | rfl <;> decide

end Follow

end SqlLexis
