import SqlLexis.Proofs.Stream

/-!
# Characters that mean nothing

Outside the classes that tokens and gaps are made of, the scanner does not tell one character
from another, and the mark it reads past the end of a text is one of them. So renaming these
`isInert` characters in a text renames them in the outcome and changes nothing else:
`tokenize_rename`. A text that holds the end mark itself is therefore read like one that holds
any other inert character in its place.

Every step of a reading is shown to commute with renaming: the class tests and runs first, then
each scanner, then one token (`scanToken_rename`) and a whole run (`tokensFrom_rename`).
-/

namespace SqlLexis

open Source Quoted

/-! ## Inert characters -/

/-- No blank, letter, digit or symbol character, and none of the single marks that begin or go
on with a name, a string or a variable. -/
def isInert (c : Char) : Bool :=
  !(isBlank c || isLetter c || isDigit c || isSymbolChar c
    || ['_', '$', nameQuote, singleQuote, doubleQuote, '@'].contains c)

/-- A map of characters that moves only inert ones, and moves these to inert ones. -/
structure Renaming where
  toFun : Char → Char
  fixes : ∀ c, isInert c = false → toFun c = c
  inert : ∀ c, isInert c = true → isInert (toFun c) = true

instance : CoeFun Renaming fun _ => Char → Char := ⟨Renaming.toFun⟩

/-- The renaming of one inert character into another. -/
def Renaming.single (a b : Char) (ha : isInert a = true) (hb : isInert b = true) : Renaming where
  toFun c := if c = a then b else c
  fixes := by
    intro c hc
    refine if_neg ?_
    rintro rfl
    exact absurd hc (by simp [ha])
  inert := by
    intro c hc
    split
    · exact hb
    · exact hc

/-- The mark of the end of a text is inert. -/
theorem isInert_endOfInput : isInert endOfInput = true := by decide

/-- A class without inert characters. -/
def Meaningful (p : Char → Bool) : Prop := ∀ c, isInert c = true → p c = false

theorem isInert_iff {c : Char} :
    isInert c = true ↔ isBlank c = false ∧ isLetter c = false ∧ isDigit c = false ∧
      isSymbolChar c = false ∧ c ∉ ['_', '$', nameQuote, singleQuote, doubleQuote, '@'] := by
  simp only [isInert, Bool.not_eq_true', Bool.or_eq_false_iff, List.contains_eq_mem,
    decide_eq_false_iff_not, and_assoc]

namespace Meaningful

theorem isBlank : Meaningful isBlank := fun _ h => (isInert_iff.mp h).1

theorem isLetter : Meaningful isLetter := fun _ h => (isInert_iff.mp h).2.1

theorem isDigit : Meaningful isDigit := fun _ h => (isInert_iff.mp h).2.2.1

theorem isSymbolChar : Meaningful isSymbolChar := fun _ h => (isInert_iff.mp h).2.2.2.1

theorem eq {x : Char} (hx : isInert x = false) : Meaningful (· == x) := by
  intro c hc
  simp only [beq_eq_false_iff_ne]
  rintro rfl
  exact absurd hc (by simp [hx])

theorem or {p q : Char → Bool} (hp : Meaningful p) (hq : Meaningful q) :
    Meaningful fun c => p c || q c := by
  intro c hc
  simp [hp c hc, hq c hc]

theorem mono {p q : Char → Bool} (hq : Meaningful q) (h : ∀ c, p c = true → q c = true) :
    Meaningful p := by
  intro c hc
  rw [← Bool.not_eq_true]
  intro hp
  exact absurd (hq c hc) (by simp [h c hp])

theorem not_inert {p : Char → Bool} (hp : Meaningful p) {c : Char} (h : p c = true) :
    isInert c = false := by
  rw [← Bool.not_eq_true]
  intro hc
  exact absurd (hp c hc) (by simp [h])

theorem any_inert {p : Char → Bool} (hp : Meaningful p) {w : List Char}
    (hw : ∀ c ∈ w, p c = true) : w.any isInert = false := by
  rw [List.any_eq_false]
  intro c hc
  rw [hp.not_inert (hw c hc)]
  exact Bool.false_ne_true

theorem isNameChar : Meaningful isNameChar :=
  ((isLetter.or isDigit).or (.eq (by decide))).or (.eq (by decide))

theorem isNameStart : Meaningful isNameStart :=
  ((isLetter.or (.eq (by decide))).or (.eq (by decide))).or (.eq (by decide))

theorem isVariableChar : Meaningful isVariableChar := isNameChar.or (.eq (by decide))

theorem isHexDigit : Meaningful isHexDigit := by
  refine (isDigit.or isLetter).mono ?_
  intro c hc
  rw [Bool.or_eq_true]
  exact isDigit_or_isLetter_of_isHexDigit hc

end Meaningful

namespace Renaming

variable (φ : Renaming)

/-- Renaming moves no character into or out of a class. -/
theorem class_eq {p : Char → Bool} (hp : Meaningful p) (c : Char) : p (φ c) = p c := by
  cases hc : isInert c with
  | false => rw [φ.fixes c hc]
  | true => rw [hp _ (φ.inert c hc), hp c hc]

theorem eq_iff {x : Char} (hx : isInert x = false) {c : Char} : φ c = x ↔ c = x := by
  have h : (φ c == x) = (c == x) := φ.class_eq (.eq hx) c
  rwa [Bool.eq_iff_iff, beq_iff_eq, beq_iff_eq] at h

/-! ## Looking ahead -/

theorem class_peek {p : Char → Bool} (hp : Meaningful p) (cs : List Char) :
    p (peek (cs.map φ)) = p (peek cs) := by
  cases cs with
  | nil => rfl
  | cons c cs => exact φ.class_eq hp c

theorem peek_eq_iff {x : Char} (hx : isInert x = false) (cs : List Char) :
    peek (cs.map φ) = x ↔ peek cs = x := by
  have h : (peek (cs.map φ) == x) = (peek cs == x) := φ.class_peek (.eq hx) cs
  rwa [Bool.eq_iff_iff, beq_iff_eq, beq_iff_eq] at h

/-- The character at hand, if there is one, is renamed with the text. -/
theorem peek_map {cs : List Char} (h : cs ≠ []) : peek (cs.map φ) = φ (peek cs) := by
  cases cs with
  | nil => exact absurd rfl h
  | cons c cs => rfl

theorem takeWhile_eq {p : Char → Bool} (hp : Meaningful p) (cs : List Char) :
    (cs.map φ).takeWhile p = cs.takeWhile p := by
  induction cs with
  | nil => rfl
  | cons c cs ih =>
      cases hc : p c with
      | false => simp [φ.class_eq hp, hc]
      | true => simp [φ.fixes c (hp.not_inert hc), hc, ih]

theorem runLength_eq {p : Char → Bool} (hp : ∀ c, p (φ c) = p c) (cs : List Char) :
    runLength p (cs.map φ) = runLength p cs := by
  have hcomp : p ∘ φ = p := funext hp
  rw [runLength, List.takeWhile_map, hcomp, List.length_map, runLength]

/-- A word without inert characters is in front of both texts or of none. -/
theorem prefix_iff {w : List Char} (hw : w.any isInert = false) (cs : List Char) :
    w <+: cs.map φ ↔ w <+: cs := by
  induction w generalizing cs with
  | nil => simp
  | cons x w ih =>
      obtain ⟨hx, hw⟩ := Bool.or_eq_false_iff.mp hw
      cases cs with
      | nil => simp
      | cons c cs =>
          rw [List.map_cons, List.cons_prefix_cons, List.cons_prefix_cons, ih hw, eq_comm,
            φ.eq_iff hx, eq_comm]

theorem map_eq_iff {w : List Char} (hw : w.any isInert = false) (cs : List Char) :
    cs.map φ = w ↔ cs = w := by
  induction w generalizing cs with
  | nil => simp
  | cons x w ih =>
      obtain ⟨hx, hw⟩ := Bool.or_eq_false_iff.mp hw
      cases cs with
      | nil => simp
      | cons c cs => rw [List.map_cons, List.cons.injEq, List.cons.injEq, φ.eq_iff hx, ih hw]

/-! ## The readers of a text

Every reader but that of a quoted text answers with characters that are not inert, or with a
number, so renaming leaves its answer as it is. -/

theorem closeBlock_eq (cs : List Char) : closeBlock (cs.map φ) = closeBlock cs := by
  have hcons : ∀ (c : Char) (u : List Char), closeBlock (c :: u) =
      if c = '*' ∧ peek u = '/' then some 2 else (closeBlock u).map (· + 1) := by
    intro c u
    split
    · next h =>
        obtain ⟨rfl, hu⟩ := h
        obtain ⟨v, rfl⟩ := eq_cons_of_peek hu (by decide)
        rfl
    · next h =>
        rw [closeBlock]
        rintro v rfl rfl
        exact h ⟨rfl, rfl⟩
  induction cs with
  | nil => rfl
  | cons c cs ih =>
      rw [List.map_cons, hcons, hcons, ih]
      simp only [φ.eq_iff (x := '*') (by decide), φ.peek_eq_iff (x := '/') (by decide)]

theorem close_eq {q : Char} (hq : isInert q = false) (cs : List Char) :
    close q (cs.map φ) = close q cs := by
  fun_induction close q cs with
  | case1 => rfl
  | case2 c hc => simp [close, φ.eq_iff hq, hc]
  | case3 c hc => simp [close, φ.eq_iff hq, hc]
  | case4 cs ih => simp [close, φ.fixes q hq, ih]
  | case5 d cs hd => simp [close, φ.fixes q hq, φ.eq_iff hq, hd]
  | case6 c d cs hc ih =>
      simp only [List.map_cons] at ih ⊢
      rw [close, if_neg (by rwa [φ.eq_iff hq]), ih]

theorem decode_eq {q : Char} (hq : isInert q = false) (cs : List Char) :
    decode q (cs.map φ) = (decode q cs).map φ := by
  fun_induction decode q cs with
  | case1 c d cs h ih =>
      simp [decode, h, ih, φ.fixes q hq]
  | case2 c d cs h ih =>
      simp only [List.map_cons] at ih ⊢
      rw [decode, if_neg (by rwa [φ.eq_iff hq, φ.eq_iff hq]), ih]
  | case3 cs h =>
      cases cs with
      | nil => rfl
      | cons c cs =>
          cases cs with
          | nil => rfl
          | cons d cs => exact absurd rfl (h c d cs)

theorem variableLength_eq (cs : List Char) : variableLength (cs.map φ) = variableLength cs := by
  have hlen : ∀ u : List Char, variableLength u =
      if peek (u.drop 1) = '@' then 2 + runLength isVariableChar (u.drop 2)
      else 1 + runLength isVariableChar (u.drop 1) := by
    intro u
    have hdrop : u.drop 2 = (u.drop 1).drop 1 := by rw [List.drop_drop]
    rw [variableLength, hdrop]
    generalize u.drop 1 = v
    cases v with
    | nil => rfl
    | cons c v =>
        by_cases hc : c = '@'
        · rw [hc]
          rfl
        · simp [hc]
  simp only [hlen, ← List.map_drop, φ.peek_eq_iff (x := '@') (by decide),
    φ.runLength_eq (φ.class_eq .isVariableChar)]

/-! ### Numbers -/

theorem signPart_eq (cs : List Char) : Numeral.signPart (cs.map φ) = Numeral.signPart cs := by
  have hcons : ∀ (c : Char) (u : List Char),
      Numeral.signPart (c :: u) = if c = '-' then ['-'] else [] := by
    intro c u
    by_cases hc : c = '-' <;> simp [Numeral.signPart, hc]
  cases cs with
  | nil => rfl
  | cons c cs =>
      rw [List.map_cons, hcons, hcons]
      simp only [φ.eq_iff (x := '-') (by decide)]

theorem fractionPart_eq (cs : List Char) :
    Numeral.fractionPart (cs.map φ) = Numeral.fractionPart cs := by
  have hcons : ∀ (c : Char) (u : List Char), Numeral.fractionPart (c :: u) =
      if c = '.' then if peek u = '.' then [] else '.' :: u.takeWhile isDigit else [] := by
    intro c u
    by_cases hc : c = '.' <;> simp [Numeral.fractionPart, hc]
  cases cs with
  | nil => rfl
  | cons c cs =>
      rw [List.map_cons, hcons, hcons, φ.takeWhile_eq .isDigit]
      simp only [φ.eq_iff (x := '.') (by decide), φ.peek_eq_iff (x := '.') (by decide)]

theorem exponentSign_eq (cs : List Char) :
    Numeral.exponentSign (cs.map φ) = Numeral.exponentSign cs := by
  have hcons : ∀ (c : Char) (u : List Char), Numeral.exponentSign (c :: u) =
      if c = '+' then ['+'] else if c = '-' then ['-'] else [] := by
    intro c u
    by_cases hp : c = '+'
    · simp [Numeral.exponentSign, hp]
    · by_cases hm : c = '-' <;> simp [Numeral.exponentSign, hp, hm]
  cases cs with
  | nil => rfl
  | cons c cs =>
      rw [List.map_cons, hcons, hcons]
      simp only [φ.eq_iff (x := '+') (by decide), φ.eq_iff (x := '-') (by decide)]

theorem exponentPart_eq (cs : List Char) :
    Numeral.exponentPart (cs.map φ) = Numeral.exponentPart cs := by
  cases cs with
  | nil => rfl
  | cons c cs =>
      simp only [List.map_cons, Numeral.exponentPart, φ.exponentSign_eq, ← List.map_drop,
        φ.takeWhile_eq .isDigit, φ.eq_iff (x := 'e') (by decide), φ.eq_iff (x := 'E') (by decide)]
      split
      · next hc =>
          have hfix : φ c = c := by rcases hc with rfl | rfl <;> exact φ.fixes _ (by decide)
          rw [hfix]
      · rfl

theorem suffixPart_eq (cs : List Char) :
    Numeral.suffixPart (cs.map φ) = Numeral.suffixPart cs := by
  cases cs with
  | nil => rfl
  | cons c cs =>
      simp only [List.map_cons, Numeral.suffixPart, φ.class_peek .isNameChar,
        φ.eq_iff (x := 'f') (by decide), φ.eq_iff (x := 'F') (by decide),
        φ.eq_iff (x := 'd') (by decide), φ.eq_iff (x := 'D') (by decide)]
      split
      · next hc =>
          have hfix : φ c = c := by
            rcases hc.1 with rfl | rfl | rfl | rfl <;> exact φ.fixes _ (by decide)
          rw [hfix]
      · rfl

theorem read_eq (cs : List Char) : Numeral.read (cs.map φ) = Numeral.read cs := by
  simp only [Numeral.read, φ.signPart_eq, ← List.map_drop, φ.takeWhile_eq .isDigit,
    φ.fractionPart_eq, φ.exponentPart_eq, φ.suffixPart_eq]

/-! ### Symbols -/

theorem ofChars?_eq (cs : List Char) : Symbol.ofChars? (cs.map φ) = Symbol.ofChars? cs := by
  have hchars : ∀ sym : Symbol, sym.chars.any isInert = false := fun sym =>
    Meaningful.isSymbolChar.any_inert fun _ hc => Symbol.isSymbolChar_of_mem_chars hc
  unfold Symbol.ofChars?
  congr 1
  funext sym
  rw [Bool.eq_iff_iff, beq_iff_eq, beq_iff_eq, eq_comm, φ.map_eq_iff (hchars sym), eq_comm]

theorem longest?_eq (cs : List Char) (k : Nat) :
    Symbol.longest? (cs.map φ) k = Symbol.longest? cs k := by
  induction k with
  | zero => rfl
  | succ k ih => rw [Symbol.longest?, Symbol.longest?, ← List.map_take, φ.ofChars?_eq, ih]

/-! ### What begins -/

theorem startsHex_eq (cs : List Char) : startsHex (cs.map φ) = startsHex cs := by
  simp only [startsHex, ← List.map_drop, φ.class_peek (p := (· == '0')) (.eq (by decide)),
    φ.class_peek (p := (· == 'x')) (.eq (by decide))]

theorem startsNational_eq (f : Forms) (cs : List Char) :
    startsNational f (cs.map φ) = startsNational f cs := by
  simp only [startsNational, ← List.map_drop, φ.class_peek (p := (· == 'N')) (.eq (by decide)),
    φ.class_peek (p := (· == singleQuote)) (.eq (by decide))]

theorem startsNumber_eq (joined : Bool) (cs : List Char) :
    startsNumber joined (cs.map φ) = startsNumber joined cs := by
  have hstart : ∀ u : List Char, startsNumber joined u =
      if peek u = '.' then isDigit (peek (u.drop 1)) && !joined
      else if peek u = '-' then
        (isDigit (peek (u.drop 1)) || peek (u.drop 1) == '.') && !joined
      else isDigit (peek u) := by
    intro u
    rw [startsNumber]
    split
    · next h => rw [if_pos h]
    · next h => rw [if_neg (by rw [h]; decide), if_pos h]
    · next h1 h2 => rw [if_neg h1, if_neg h2]
  simp only [hstart, ← List.map_drop, φ.peek_eq_iff (x := '.') (by decide),
    φ.peek_eq_iff (x := '-') (by decide), φ.class_peek .isDigit,
    φ.class_peek (p := (· == '.')) (.eq (by decide))]

end Renaming

/-! ## Renaming what is read and what comes of it -/

/-- The token with the characters of its text renamed. -/
def Token.rename (φ : Renaming) (t : Token) : Token := { t with literals := t.literals.map φ }

/-- The cause with an unexpected character renamed. -/
def LexicalError.Cause.rename (φ : Renaming) : LexicalError.Cause → LexicalError.Cause
  | .unexpectedChar c => .unexpectedChar (φ c)
  | c => c

/-- The error of the same place in the renamed text. -/
def LexicalError.rename (φ : Renaming) (e : LexicalError) : LexicalError :=
  ⟨e.cause.rename φ, e.input.map φ, e.offset⟩

/-- An outcome renamed: a success as `rename` says, a failure like its text. -/
def Renaming.outcome {α : Type} (φ : Renaming) (rename : α → α) :
    Except LexicalError α → Except LexicalError α
  | .ok a => .ok (rename a)
  | .error e => .error (e.rename φ)

/-- The text with its characters renamed. -/
def Source.rename (s : Source) (φ : Renaming) : Source := ⟨s.chars.map φ⟩

/-- A choice that renaming does not change. -/
theorem Renaming.ite_outcome {α : Type} {φ : Renaming} {rename : α → α} {c : Prop} [Decidable c]
    {o o' p p' : Except LexicalError α} (ho : c → o' = φ.outcome rename o)
    (hp : ¬ c → p' = φ.outcome rename p) :
    (if c then o' else p') = φ.outcome rename (if c then o else p) := by
  by_cases hc : c
  · rw [if_pos hc, if_pos hc, ho hc]
  · rw [if_neg hc, if_neg hc, hp hc]

namespace Source

variable (s : Source) (φ : Renaming) {d : Dictionary} {f : Forms} (n : Nat)

theorem length_rename : (s.rename φ).length = s.length := by
  simp [rename, length]

theorem rest_rename : (s.rename φ).rest n = (s.rest n).map φ := by
  simp [rename, rest]

theorem slice_rename (m : Nat) : (s.rename φ).slice n m = (s.slice n m).map φ := by
  simp [rename, slice]

theorem cut_rename (k : TokenKind) (i : Nat) : (s.rename φ).cut k n i = (s.cut k n i).rename φ := by
  rw [cut, slice_rename]
  rfl

theorem followsName_rename : (s.rename φ).followsName n = s.followsName n := by
  cases n with
  | zero => rw [followsName_zero, followsName_zero]
  | succ n =>
      rw [followsName_succ, followsName_succ, rest_rename, φ.class_peek .isNameChar,
        φ.class_peek (p := (· == nameQuote)) (.eq (by decide))]

/-- An error found at the same place in both texts. -/
theorem fault_rename {c c' : LexicalError.Cause} (hc : c' = c.rename φ) (m : Nat) :
    (s.rename φ).fault c' m = (s.fault c m).rename φ := by
  rw [hc]
  rfl

/-! ### Gaps -/

theorem skipBlanks_rename : (s.rename φ).skipBlanks n = s.skipBlanks n := by
  rw [skipBlanks, rest_rename, φ.runLength_eq (φ.class_eq .isBlank), skipBlanks]

theorem skipLine_rename : (s.rename φ).skipLine n = s.skipLine n := by
  have hline : ∀ c, (φ c != '\n') = (c != '\n') := by
    intro c
    rw [bne, bne, φ.class_eq (p := (· == '\n')) (.eq (by decide))]
  rw [skipLine, rest_rename, φ.runLength_eq hline, skipLine]

theorem skipBlock_rename {c : LexicalError.Cause} (hc : c = c.rename φ) :
    (s.rename φ).skipBlock n c = φ.outcome id (s.skipBlock n c) := by
  rw [skipBlock, skipBlock, rest_rename, φ.closeBlock_eq, fault_rename s φ hc]
  split <;> rfl

theorem skipComment_rename :
    (s.rename φ).skipComment n = φ.outcome id (s.skipComment n) := by
  simp only [skipComment, rest_rename, φ.peek_eq_iff (x := '/') (by decide),
    φ.peek_eq_iff (x := '*') (by decide), skipLine_rename]
  exact Renaming.ite_outcome (fun _ => s.skipBlock_rename φ n rfl) (fun _ => rfl)

theorem beginsComment_rename : (s.rename φ).beginsComment f n = s.beginsComment f n := by
  have hline : ∀ o ∈ f.lineOpeners, o.any isInert = false := by
    intro o ho
    rcases mem_lineOpeners ho with rfl | rfl | ⟨-, rfl⟩ <;> decide
  rw [Bool.eq_iff_iff, beginsComment_iff, beginsComment_iff, rest_rename,
    φ.prefix_iff (w := ['/', '*']) (by decide)]
  refine or_congr_right (exists_congr fun o => and_congr_right fun ho => ?_)
  exact φ.prefix_iff (hline o ho) _

theorem beginsWith_rename {word : List Char} (hw : word.any isInert = false) :
    beginsWith word (s.rename φ) n = beginsWith word s n := by
  rw [Bool.eq_iff_iff, beginsWith, beginsWith, List.isPrefixOf_iff_prefix,
    List.isPrefixOf_iff_prefix, rest_rename, φ.prefix_iff hw]

theorem beginsHint_rename (hf : f.BuiltIn) :
    f.beginsHint (s.rename φ) n = f.beginsHint s n := by
  rcases hf.hint with hn | hn | hn <;> simp only [Forms.beginsHint, hn]
  · exact s.beginsWith_rename φ n (by decide)
  · exact s.beginsWith_rename φ n (by decide)

theorem beginsVariable_rename (hf : f.BuiltIn) :
    f.beginsVariable (s.rename φ) n = f.beginsVariable s n := by
  rcases hf.bindVariable with hn | hn <;> simp only [Forms.beginsVariable, hn]
  exact s.beginsWith_rename φ n (by decide)

end Source

section Loops

variable {opens opens' : Nat → Bool} {skip skip' : Nat → Except LexicalError Nat}
  {blanks blanks' : Nat → Nat} {n k : Nat} {r : Except LexicalError Nat}

/-- A loop whose parts commute with renaming commutes with it. -/
theorem Passes.rename (φ : Renaming) (hopens : ∀ n, opens' n = opens n)
    (hskip : ∀ n, skip' n = φ.outcome id (skip n)) (hblanks : ∀ n, blanks' n = blanks n)
    (h : Passes opens skip blanks n k r) : Passes opens' skip' blanks' n k (φ.outcome id r) := by
  induction h with
  | done hn => exact .done (by rw [hopens, hn])
  | fail ho hs => exact .fail (by rw [hopens, ho]) (by rw [hskip, hs]; rfl)
  | @pass n m k r ho hs _ ih =>
      refine .pass (by rw [hopens, ho]) (m := m) (by rw [hskip, hs]; rfl) ?_
      rwa [hblanks]

end Loops

namespace Source

variable (s : Source) (φ : Renaming) {d : Dictionary} {f : Forms} (n : Nat)

theorem skipHints_rename (hf : f.BuiltIn) :
    (s.rename φ).skipHints f n = φ.outcome id (s.skipHints f n) := by
  obtain ⟨k, hk⟩ := s.exists_passes_skipHints f n
  obtain ⟨k', hk'⟩ := (s.rename φ).exists_passes_skipHints f n
  exact hk'.unique (hk.rename φ (fun m => s.beginsHint_rename φ m hf)
    (fun m => s.skipBlock_rename φ m rfl) (s.skipBlanks_rename φ))

theorem skipComments_rename :
    (s.rename φ).skipComments f n = φ.outcome id (s.skipComments f n) := by
  obtain ⟨k, hk⟩ := s.exists_passes_skipComments f n
  obtain ⟨k', hk'⟩ := (s.rename φ).exists_passes_skipComments f n
  exact hk'.unique (hk.rename φ (s.beginsComment_rename φ) (s.skipComment_rename φ)
    (s.skipBlanks_rename φ))

theorem skipGap_rename (hf : f.BuiltIn) :
    (s.rename φ).skipGap f n = φ.outcome id (s.skipGap f n) := by
  rw [skipGap, skipGap, skipBlanks_rename, s.skipHints_rename φ _ hf]
  cases s.skipHints f (s.skipBlanks n) with
  | error e => rfl
  | ok m => exact s.skipComments_rename φ m

/-! ### Tokens -/

theorem scanVariable_rename : (s.rename φ).scanVariable n = (s.scanVariable n).rename φ := by
  rw [scanVariable, rest_rename, φ.variableLength_eq, cut_rename, scanVariable]

theorem scanNumber_rename : (s.rename φ).scanNumber n = (s.scanNumber n).rename φ := by
  simp only [scanNumber, rest_rename, φ.read_eq, cut_rename]

theorem scanHex_rename :
    (s.rename φ).scanHex n = φ.outcome (Token.rename φ) (s.scanHex n) := by
  simp only [scanHex, rest_rename, φ.runLength_eq (φ.class_eq .isHexDigit), cut_rename]
  exact Renaming.ite_outcome (fun _ => rfl) (fun _ => rfl)

theorem quotedEnd_rename {q : Char} (hq : isInert q = false) :
    (s.rename φ).quotedEnd q n = φ.outcome id (s.quotedEnd q n) := by
  rw [quotedEnd, quotedEnd, rest_rename, φ.close_eq hq]
  split <;> rfl

/-- A text in quotes is read alike, whatever inert characters stand between them. -/
theorem scanChars_rename (hq : isInert (peek (s.rest n)) = false) :
    (s.rename φ).scanChars n = φ.outcome (Token.rename φ) (s.scanChars n) := by
  have hpeek : peek (((s.rest n)).map φ) = peek (s.rest n) := (φ.peek_eq_iff hq _).mpr rfl
  simp only [scanChars, rest_rename, hpeek, s.quotedEnd_rename φ n hq]
  cases s.quotedEnd (peek (s.rest n)) n with
  | error e => rfl
  | ok m =>
      simp only [Renaming.outcome, id, slice_rename, φ.decode_eq hq]
      rfl

theorem scanName_rename :
    (s.rename φ).scanName d n = φ.outcome (Token.rename φ) (s.scanName d n) := by
  have hword : (s.rename φ).slice n (n + runLength isNameChar (s.rest n)) =
      s.slice n (n + runLength isNameChar (s.rest n)) := by
    obtain ⟨w, r, hl, hrun, hw, -⟩ := exists_run isNameChar_endOfInput (s.rest n)
    rw [slice_rename, hrun, slice_of_append hl]
    exact (φ.map_eq_iff (Meaningful.isNameChar.any_inert hw) w).mpr rfl
  simp only [scanName, rest_rename, φ.peek_eq_iff (x := nameQuote) (by decide),
    s.quotedEnd_rename φ n (q := nameQuote) (by decide),
    φ.runLength_eq (φ.class_eq .isNameChar), cut_rename, hword]
  refine Renaming.ite_outcome (fun _ => ?_) (fun _ => rfl)
  cases s.quotedEnd nameQuote n <;> rfl

theorem unexpectedChar_rename (hn : s.rest n ≠ []) :
    (s.rename φ).fault (.unexpectedChar (peek ((s.rest n).map φ))) n =
      (s.fault (.unexpectedChar (peek (s.rest n))) n).rename φ := by
  rw [φ.peek_map hn]
  rfl

/-- Where a character stands, the same symbol is found. -/
theorem scanSymbol_rename (hn : s.rest n ≠ []) :
    (s.rename φ).scanSymbol n = (s.scanSymbol n).rename φ := by
  simp only [scanSymbol, rest_rename, φ.runLength_eq (φ.class_eq .isSymbolChar), φ.longest?_eq,
    cut_rename, φ.peek_map hn]
  split <;> rfl

/-- The choices of the scanner are the same on both sides, in the same order. -/
theorem scanToken_rename (hf : f.BuiltIn) :
    (s.rename φ).scanToken d f n = φ.outcome (Token.rename φ) (s.scanToken d f n) := by
  simp only [scanToken, beginsNumber_eq, beginsHex_eq, beginsNational_eq,
    s.beginsVariable_rename φ n hf, followsName_rename, length_rename, scanVariable_rename,
    scanNumber_rename, rest_rename, φ.startsNational_eq, φ.startsHex_eq, φ.startsNumber_eq,
    φ.class_peek .isNameStart, φ.class_peek .isSymbolChar,
    φ.peek_eq_iff (x := singleQuote) (by decide), φ.peek_eq_iff (x := doubleQuote) (by decide)]
  refine Renaming.ite_outcome (fun _ => rfl) fun _ => ?_
  refine Renaming.ite_outcome (fun hnat => ?_) fun _ => ?_
  · have hq : peek (s.rest (n + 1)) = singleQuote := by
      rw [rest_add]
      simp only [startsNational, Bool.and_eq_true, beq_iff_eq] at hnat
      exact hnat.2
    exact s.scanChars_rename φ (n + 1) (by rw [hq]; decide)
  refine Renaming.ite_outcome (fun _ => s.scanName_rename φ n) fun _ => ?_
  refine Renaming.ite_outcome (fun _ => s.scanHex_rename φ n) fun _ => ?_
  refine Renaming.ite_outcome (fun _ => rfl) fun _ => ?_
  refine Renaming.ite_outcome (fun hsym => ?_) fun _ => ?_
  · have hn : s.rest n ≠ [] := by
      intro hnil
      rw [hnil] at hsym
      exact absurd hsym (by decide)
    rw [s.scanSymbol_rename φ n hn, s.unexpectedChar_rename φ n hn]
    exact Renaming.ite_outcome (fun _ => rfl) fun _ => rfl
  refine Renaming.ite_outcome (fun hq => s.scanChars_rename φ n ?_) fun _ => ?_
  · rcases hq with hq | hq <;> rw [hq] <;> decide
  refine Renaming.ite_outcome (fun _ => rfl) fun hin => ?_
  have hn : s.rest n ≠ [] := by
    rwa [ne_eq, rest, List.drop_eq_nil_iff]
  rw [s.unexpectedChar_rename φ n hn]
  rfl

/-! ## All tokens -/

/-- Renaming a text renames what is read from any position on, and does no more. -/
theorem tokensFrom_rename (hf : f.BuiltIn) :
    (s.rename φ).tokensFrom d f n =
      φ.outcome (List.map (Token.rename φ)) (s.tokensFrom d f n) := by
  have hgap : ∀ {m o}, s.skipGap f m = o → (s.rename φ).skipGap f m = φ.outcome id o := by
    rintro m _ rfl
    exact s.skipGap_rename φ m hf
  have htoken : ∀ {m o}, s.scanToken d f m = o →
      (s.rename φ).scanToken d f m = φ.outcome (Token.rename φ) o := by
    rintro m _ rfl
    exact s.scanToken_rename φ m hf
  induction n using tokensFrom_induction (s := s) (d := d) (f := f) with
  | gap n e hskip =>
      rw [tokensFrom_of_skip_error hskip, tokensFrom_of_skip_error (hgap hskip)]
      rfl
  | error n m e hskip hscan =>
      rw [tokensFrom_of_error hskip hscan, tokensFrom_of_error (hgap hskip) (htoken hscan)]
      rfl
  | finish n m t hskip hscan ht =>
      rw [tokensFrom_of_finish hskip hscan ht,
        tokensFrom_of_finish (hgap hskip) (htoken hscan) ht]
      rfl
  | token n m t hskip hscan ht ih =>
      have ih' : (s.rename φ).tokensFrom d f (t.rename φ).stop = _ := ih
      rw [tokensFrom_of_token hskip hscan ht,
        tokensFrom_of_token (hgap hskip) (htoken hscan) ht, ih']
      cases s.tokensFrom d f t.stop <;> rfl

end Source

/-- Renaming the inert characters of a text, of which the end mark is one, renames them in the
literals of its tokens or in its error. Kinds, stops, causes and offsets stay. -/
theorem tokenize_rename (φ : Renaming) (d : Dialect) (text : List Char) :
    isInert endOfInput = true ∧
      tokenize d (text.map φ) = φ.outcome (List.map (Token.rename φ)) (tokenize d text) := by
  refine ⟨isInert_endOfInput, ?_⟩
  rw [tokenize_eq_tokensFrom, tokenize_eq_tokensFrom]
  exact (Source.mk text).tokensFrom_rename φ 0 d.forms_builtIn

/-- End marks in a string, a name and a comment are text: what stands behind them is read, as
behind any other inert character in their place. -/
theorem tokenize_rename_end_marks :
    let text := ['\x27', 'a', endOfInput, '\x27', nameQuote, endOfInput, nameQuote,
      '/', '*', endOfInput, '*', '/', 'b']
    let ts : List Token := [⟨.chars, ['a', endOfInput], 4⟩,
      ⟨.identifier, [nameQuote, endOfInput, nameQuote], 7⟩, ⟨.identifier, ['b'], 13⟩,
      ⟨.finish, [], 13⟩]
    let φ := Renaming.single endOfInput 'é' (by decide) (by decide)
    tokenize .mysql text = .ok ts ∧
      tokenize .mysql (text.map φ) = .ok (ts.map (Token.rename φ)) := by
  intro text ts φ
  have htext : tokenize .mysql text = .ok ts := by decide +kernel
  refine ⟨htext, ?_⟩
  rw [(tokenize_rename φ .mysql text).2, htext]
  rfl

end SqlLexis
