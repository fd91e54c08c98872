import SqlLexis.Proofs.Lockstep

/-!
# Other reserved words

A dictionary says of a name whether it is reserved, and nothing else: it moves no boundary, finds
no fault and leaves every other token alone. `tokenize_reworded` compares the readings of a text
with two dictionaries. Reserved words are looked up in one place only, after the extent of a name
has been found, and symbols in a table that is the same in every dictionary. So the comparison is
about names (`mirrors_scanName`) and the rest is the same on both sides.
-/

namespace SqlLexis

open Source

/-- A name or a reserved word, written without name quotes. -/
def Token.isPlainName (t : Token) : Bool :=
  match t.kind with
  | .identifier | .keyword _ => peek t.literals != nameQuote
  | _ => false

/-- A token read with the dictionary `d` and the one read in its place with `d'`. They take the
same text, and their classes differ only at names, where each dictionary decides. -/
structure Reworded (d d' : Dictionary) (t t' : Token) : Prop where
  literals : t'.literals = t.literals
  stop : t'.stop = t.stop
  isPlainName : t'.isPlainName = t.isPlainName
  other : t.isPlainName = false → t'.kind = t.kind
  name : t.isPlainName = true → t.kind = d.classify t.literals .identifier ∧
    t'.kind = d'.classify t'.literals .identifier

namespace Reworded

variable {d d' : Dictionary} {t t' : Token}

theorem refl (h : t.isPlainName = false) : Reworded d d' t t where
  literals := rfl
  stop := rfl
  isPlainName := rfl
  other _ := rfl
  name hname := absurd hname (by simp [h])

theorem finish_iff (h : Reworded d d' t t') : t'.kind = .finish ↔ t.kind = .finish := by
  cases hname : t.isPlainName with
  | false => rw [h.other hname]
  | true =>
      have hkind : ∀ u : Token, u.isPlainName = true → u.kind ≠ .finish := by
        intro u hu hfinish
        rw [Token.isPlainName, hfinish] at hu
        exact absurd hu (by simp)
      exact iff_of_false (hkind t' (h.isPlainName.trans hname)) (hkind t hname)

end Reworded

/-! ## Names -/

theorem peek_take {k : Nat} (hk : 0 < k) (cs : List Char) : peek (cs.take k) = peek cs := by
  cases cs with
  | nil => simp
  | cons c cs =>
      obtain ⟨j, rfl⟩ := Nat.exists_eq_add_one.mpr hk
      rfl

theorem isPlainName_classify (d : Dictionary) (w : List Char) (stop : Nat) :
    Token.isPlainName ⟨d.classify w .identifier, w, stop⟩ = (peek w != nameQuote) := by
  simp only [Token.isPlainName, Dictionary.classify]
  cases d.find? w <;> rfl

section Scanners

variable {s : Source} {d d' : Dictionary} {f : Forms} {n : Nat} {t : Token}

/-- A name in quotes is never looked up, and any other one is after its extent has been found. -/
theorem mirrors_scanName (hstart : isNameStart (peek (s.rest n)) = true) :
    Mirrors (Reworded d d') Eq (s.scanName d n) (s.scanName d' n) := by
  rw [scanName, scanName]
  refine .ite (fun hq => ?_) fun hq => ?_
  · cases hend : s.quotedEnd nameQuote n with
    | error e => exact .error rfl
    | ok m =>
        have hlt := (quotedEnd_bounds hend).1
        refine .ok (.refl ?_)
        simp [cut, Token.isPlainName, slice_add, peek_take (Nat.sub_pos_of_lt hlt), hq]
  · obtain ⟨u, hu⟩ : ∃ u, s.rest n = peek (s.rest n) :: u := by
      refine eq_cons_of_peek rfl ?_
      intro heq
      rw [heq] at hstart
      exact absurd hstart (by decide)
    have hpos : 0 < runLength isNameChar (s.rest n) := by
      rw [hu]
      exact runLength_pos (isNameChar_of_isNameStart hstart hq) u
    have hplain : (peek (s.slice n (n + runLength isNameChar (s.rest n))) != nameQuote) = true := by
      rw [slice_add, peek_take hpos]
      simpa using hq
    refine .ok ⟨rfl, rfl, ?_, fun hname => ?_, fun _ => ⟨rfl, rfl⟩⟩
    · simp only [cut, isPlainName_classify]
    · simp only [cut, isPlainName_classify] at hname
      rw [hplain] at hname
      exact absurd hname (by simp)

/-! ## Every other token -/

/-- What is not about a name is the same on both sides. -/
theorem mirrors_of_other {o : Except LexicalError Token}
    (h : ∀ {t}, o = .ok t → t.isPlainName = false) : Mirrors (Reworded d d') Eq o o := by
  apply Mirrors.same
  · intro e
    rfl
  · intro t ht
    exact .refl (h ht)

theorem isPlainName_scanChars (h : s.scanChars n = .ok t) : t.isPlainName = false := by
  rw [Token.isPlainName, kind_scanChars h]

theorem isPlainName_scanHex (h : s.scanHex n = .ok t) : t.isPlainName = false := by
  rw [Token.isPlainName, kind_scanHex h]

theorem isPlainName_scanNumber : (s.scanNumber n).isPlainName = false := by
  rcases kind_scanNumber s n with hk | hk <;> rw [Token.isPlainName, hk]

theorem isPlainName_scanSymbol : (s.scanSymbol n).isPlainName = false := by
  simp only [scanSymbol]
  split <;> rfl

/-- Two dictionaries read the same token but for the class of a name. -/
theorem mirrors_scanToken (s : Source) (f : Forms) (d d' : Dictionary) (n : Nat) :
    Mirrors (Reworded d d') Eq (s.scanToken d f n) (s.scanToken d' f n) := by
  simp only [scanToken]
  refine .ite (fun _ => .ok (.refl rfl)) fun _ => ?_
  refine .ite (fun _ => mirrors_of_other isPlainName_scanChars) fun _ => ?_
  refine .ite (fun hstart => mirrors_scanName hstart) fun _ => ?_
  refine .ite (fun _ => mirrors_of_other isPlainName_scanHex) fun _ => ?_
  refine .ite (fun _ => .ok (.refl isPlainName_scanNumber)) fun _ => ?_
  refine .ite (fun _ => ?_) fun _ => ?_
  · exact .ite (fun _ => .error rfl) fun _ => .ok (.refl isPlainName_scanSymbol)
  refine .ite (fun _ => mirrors_of_other isPlainName_scanChars) fun _ => ?_
  exact .ite (fun _ => .ok (.refl rfl)) fun _ => .error rfl

theorem mirrors_tokensFrom_reworded (s : Source) (f : Forms) (d d' : Dictionary) (n : Nat) :
    Mirrors (List.Forall₂ (Reworded d d')) Eq (s.tokensFrom d f n) (s.tokensFrom d' f n) :=
  mirrors_tokensFrom (fun _ _ h => ⟨h.stop, h.finish_iff⟩)
    (fun _ => .same (fun _ => rfl) fun _ _ => rfl) (mirrors_scanToken s f d d') n

end Scanners

/-! ## How a text is split -/

/-- What a token takes of the text, whatever its class. -/
def Token.extent (t : Token) : List Char × Nat := (t.literals, t.stop)

/-- How a text is split, or why it cannot be. -/
def splitting (d : Dialect) (text : List Char) : Except LexicalError (List (List Char × Nat)) :=
  (tokenize d text).map (List.map Token.extent)

theorem extents_of_reworded {d d' : Dictionary} {ts ts' : List Token}
    (h : List.Forall₂ (Reworded d d') ts ts') : ts'.map Token.extent = ts.map Token.extent := by
  induction h with
  | nil => rfl
  | @cons t t' ts ts' ht _ ih =>
      have hextent : t'.extent = t.extent := by
        rw [Token.extent, ht.literals, ht.stop]
        rfl
      rw [List.map_cons, List.map_cons, hextent, ih]

theorem extents_of_mirrors {d d' : Dictionary} {o o' : Except LexicalError (List Token)}
    (h : Mirrors (List.Forall₂ (Reworded d d')) Eq o o') :
    o'.map (List.map Token.extent) = o.map (List.map Token.extent) := by
  cases h with
  | ok hs => exact congrArg Except.ok (extents_of_reworded hs)
  | error he => exact congrArg Except.error he.symm

/-- Dialects with the same forms split every text alike. -/
theorem splitting_of_forms {a b : Dialect} (h : a.forms = b.forms) (text : List Char) :
    splitting a text = splitting b text := by
  rw [splitting, splitting, tokenize_eq_tokensFrom, tokenize_eq_tokensFrom, h]
  exact extents_of_mirrors (mirrors_tokensFrom_reworded ⟨text⟩ b.forms b.dictionary a.dictionary 0)

/-- Reading a text with two dictionaries fails with one error or yields the same tokens, except
that each dictionary decides which of the names written without quotes are reserved. So the
dialects without optional forms split every text alike. -/
theorem tokenize_reworded (s : Source) (f : Forms) (d d' : Dictionary) :
    Mirrors (List.Forall₂ (Reworded d d')) Eq (Lexer.fresh s d f).tokenize.1
        (Lexer.fresh s d' f).tokenize.1 ∧
      ∀ text, splitting .postgresql text = splitting .common text ∧
        splitting .h2 text = splitting .common text :=
  ⟨mirrors_tokensFrom_reworded s f d d' 0,
    fun text => ⟨splitting_of_forms (a := .postgresql) (b := .common) rfl text,
      splitting_of_forms (a := .h2) (b := .common) rfl text⟩⟩

end SqlLexis
