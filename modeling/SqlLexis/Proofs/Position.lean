import Mathlib.Data.List.TakeWhile
import SqlLexis.Scan

/-!
# Positions and runs

Every scanner reads what is left of a text from a position on, and at most one character
before it. This file restates reading at a position as reading a list of characters: what
is left after a piece, what a slice cuts out, how far a run of a class goes. The theory of
gaps, lexemes and token streams speaks about lists and meets positions only here. The
matchers of the named dialects read the text in the same way (`Forms.BuiltIn`).
-/

namespace SqlLexis

theorem peek_append {l : List Char} (h : l ≠ []) (r : List Char) : peek (l ++ r) = peek l := by
  obtain ⟨c, l, rfl⟩ := List.exists_cons_of_ne_nil h
  rfl

/-- Reading in front of a text finds a character exactly if it stands there. -/
theorem peek_eq_iff_head? {c : Char} (hc : c ≠ endOfInput) (r : List Char) :
    peek r = c ↔ r.head? = some c := by
  cases r with
  | nil => simpa using hc.symm
  | cons d r => simp

/-! ## Runs of a class -/

/-- The character in front of `r`, if there is one, is not of class `p`. -/
def Stops (p : Char → Bool) (r : List Char) : Prop := ∀ c ∈ r.head?, p c = false

theorem stops_of_peek {p : Char → Bool} {r : List Char} (h : p (peek r) = false) : Stops p r := by
  intro c hc
  cases r with
  | nil => simp at hc
  | cons d r =>
      obtain rfl : d = c := by simpa using hc
      exact h

theorem peek_of_stops {p : Char → Bool} (hp : p endOfInput = false) {r : List Char}
    (h : Stops p r) : p (peek r) = false := by
  cases r with
  | nil => exact hp
  | cons c r => exact h c rfl

/-- A run splits the text: what is before the split is in the class, what comes next is not. -/
theorem exists_run {p : Char → Bool} (hp : p endOfInput = false) (cs : List Char) :
    ∃ l r, cs = l ++ r ∧ runLength p cs = l.length ∧ (∀ c ∈ l, p c = true) ∧
      p (peek r) = false := by
  refine ⟨cs.takeWhile p, cs.dropWhile p, List.takeWhile_append_dropWhile.symm, rfl,
    fun c hc => List.mem_takeWhile_imp hc, ?_⟩
  cases hr : cs.dropWhile p with
  | nil => exact hp
  | cons c r =>
      have h := List.head?_dropWhile_not p cs
      rw [hr] at h
      simpa using h

theorem takeWhile_append_of_stop {p : Char → Bool} {l r : List Char}
    (hl : ∀ c ∈ l, p c = true) (hr : p (peek r) = false) : (l ++ r).takeWhile p = l := by
  rw [List.takeWhile_append_of_pos hl]
  cases r with
  | nil => simp
  | cons c r =>
      have hc : p c = false := hr
      simp [hc]

theorem stop_of_takeWhile_append {p : Char → Bool} (hp : p endOfInput = false)
    {l r : List Char} (h : (l ++ r).takeWhile p = l) : p (peek r) = false := by
  cases r with
  | nil => exact hp
  | cons c r =>
      have hl : ∀ a ∈ l, p a = true := fun a ha => List.mem_takeWhile_imp (h ▸ ha)
      rw [List.takeWhile_append_of_pos hl, List.append_right_eq_self] at h
      by_contra hc
      rw [List.takeWhile_cons_of_pos (by simpa using hc)] at h
      simp at h

theorem runLength_append {p : Char → Bool} {l r : List Char}
    (hl : ∀ c ∈ l, p c = true) (hr : p (peek r) = false) :
    runLength p (l ++ r) = l.length := by
  rw [runLength, takeWhile_append_of_stop hl hr]

/-- The end of a text belongs to none of the classes that tokens are made of. -/
theorem isNameChar_endOfInput : isNameChar endOfInput = false := by decide

theorem isBlank_endOfInput : isBlank endOfInput = false := by decide

namespace Source

/-! ## What is left after a piece -/

theorem rest_add (s : Source) (n k : Nat) : s.rest (n + k) = (s.rest n).drop k := by
  simp [rest, List.drop_drop]

theorem slice_add (s : Source) (n k : Nat) : s.slice n (n + k) = (s.rest n).take k := by
  simp [slice, rest, List.drop_take]

theorem rest_of_append {s : Source} {n : Nat} {l r : List Char} (h : s.rest n = l ++ r) :
    s.rest (n + l.length) = r := by
  rw [rest_add, h, List.drop_left]

theorem slice_of_append {s : Source} {n : Nat} {l r : List Char} (h : s.rest n = l ++ r) :
    s.slice n (n + l.length) = l := by
  rw [slice_add, h, List.take_left]

theorem rest_length_le {s : Source} {n : Nat} (h : s.length ≤ n) : s.rest n = [] :=
  List.drop_eq_nil_of_le h

theorem add_length_of_append {s : Source} {n : Nat} {l r : List Char} (hn : n ≤ s.length)
    (h : s.rest n = l ++ r) : n + l.length + r.length = s.length := by
  have hl := s.length_rest n
  rw [h, List.length_append] at hl
  omega

/-- A token cut out of the text holds the piece it stands for. -/
theorem cut_of_append {s : Source} {n : Nat} {l r : List Char} (h : s.rest n = l ++ r)
    (k : TokenKind) : s.cut k n l.length = ⟨k, l, n + l.length⟩ := by
  rw [cut, slice_of_append h]

/-! ## The character before a position -/

/-- Only the character before a position decides whether it follows a name. -/
theorem followsName_succ (s : Source) (n : Nat) :
    s.followsName (n + 1) =
      (isNameChar (peek (s.rest n)) || peek (s.rest n) == nameQuote) := by
  have hc : s.charAt ((n + 1 : Nat) - 1 : Int) = peek (s.rest n) := by
    rw [show ((n + 1 : Nat) - 1 : Int) = (n : Int) by omega, charAt_natCast]
  simp only [followsName, hc]

theorem followsName_zero (s : Source) : s.followsName 0 = false := by
  have h : s.charAt ((0 : Nat) - 1 : Int) = endOfInput := by simp [charAt]
  simp only [followsName, h]
  decide

end Source

/-! ## The built-in matchers

A matcher may look anywhere in the text. Those of the named dialects look only at what is
left, which is what makes a token independent of where it stands. -/

/-- Hints, if there are any, are executable comments or optimizer hints, and variables, if
there are any, begin with an at sign. -/
structure Forms.BuiltIn (f : Forms) : Prop where
  hint : f.hint = none ∨ f.hint = some Forms.executableComment ∨
    f.hint = some Forms.optimizerHint
  bindVariable : f.bindVariable = none ∨ f.bindVariable = some Forms.atSign

theorem Dialect.forms_builtIn (d : Dialect) : d.forms.BuiltIn := by
  cases d <;> exact ⟨by simp [Dialect.forms], by simp [Dialect.forms]⟩

/-- A built-in hint opens like a block comment. -/
theorem Forms.BuiltIn.block_of_beginsHint {f : Forms} (hf : f.BuiltIn) {s : Source} {n : Nat}
    (h : f.beginsHint s n = true) : ['/', '*'] <+: s.rest n := by
  have hword : ∀ c, beginsWith ['/', '*', c] s n = true → ['/', '*'] <+: s.rest n := by
    intro c hc
    have hp : ['/', '*', c] <+: s.rest n := List.isPrefixOf_iff_prefix.mp hc
    exact List.IsPrefix.trans ⟨[c], rfl⟩ hp
  rcases hf.hint with hn | hn | hn
  · simp [beginsHint, hn] at h
  · rw [beginsHint, hn] at h
    exact hword '!' h
  · rw [beginsHint, hn] at h
    exact hword '+' h

theorem Forms.BuiltIn.beginsVariable_iff {f : Forms} (hf : f.BuiltIn) {s : Source} {n : Nat} :
    f.beginsVariable s n = true ↔
      f.bindVariable.isSome = true ∧ ∃ r, s.rest n = '@' :: r := by
  rcases hf.bindVariable with hn | hn
  · simp [beginsVariable, hn]
  · rw [beginsVariable, hn]
    show ['@'].isPrefixOf (s.rest n) = true ↔ _
    rw [List.isPrefixOf_iff_prefix]
    constructor
    · rintro ⟨r, hr⟩
      exact ⟨rfl, r, hr.symm⟩
    · rintro ⟨-, r, hr⟩
      exact ⟨r, hr.symm⟩

end SqlLexis
