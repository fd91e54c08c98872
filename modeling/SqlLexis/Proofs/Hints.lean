import SqlLexis.Proofs.Faults
import SqlLexis.Proofs.Lockstep

/-!
# Hints are comments

Where hints are recognised a text is read as where they are not. A built-in hint is a block
comment, so both readings pass over the same gaps and find the same tokens: `tokenize_hinted`.
Only the cause given for a block that is never closed may differ.

Which cause that is depends on the loop that reaches the block. Hints are looked for before
comments and not again after one, so an open hint behind a comment is taken for a comment.
`hint_reported_iff` says exactly when the cause given agrees with how the block opens, and
`hint_reported_iff_behind_comment` is about a text where it does not.
-/

namespace SqlLexis

open Source

variable {s : Source} {d : Dictionary} {f : Forms} {m : Matcher} {n : Nat} {e : LexicalError}

/-! ## Gaps and variables -/

/-- The forms that gaps depend on: all but variables, whose matcher may then be any that answers yes
only inside the text. -/
def Forms.inGaps (f : Forms) : Forms := { f with bindVariable := none }

theorem Forms.hint_inGaps (f : Forms) : f.inGaps.hint = f.hint := rfl

theorem skipGap_inGaps (s : Source) (f : Forms) (n : Nat) :
    s.skipGap f.inGaps n = s.skipGap f n :=
  skipGap_congr f.hint_inGaps rfl n

theorem Forms.inGaps_builtIn (h : f.hint = some executableComment ∨ f.hint = some optimizerHint) :
    f.inGaps.BuiltIn :=
  ⟨.inr h, .inl rfl⟩

/-! ## The same tokens -/

/-- The second error is the first one, or takes the open comment that the first one reports for
a hint. -/
def MayBeHint (e e' : LexicalError) : Prop :=
  e' = e ∨ e.cause = .unterminatedComment ∧ e' = { e with cause := .unterminatedHint }

/-- Without hints a gap is what the comment loop passes over. -/
theorem skipGap_of_no_hint (h : f.hint = none) :
    s.skipGap f n = s.skipComments f (s.skipBlanks n) := by
  have hno : f.beginsHint s (s.skipBlanks n) = false := by rw [Forms.beginsHint, h]
  rw [skipGap, skipHints, if_neg (by simp [hno])]

/-- With built-in hints the same gaps are passed over as without, and an open hint is the very block
at which the comments would have failed. -/
theorem mirrors_skipGap {p : Forms} (hf : f.BuiltIn) (hp : p.hint = none)
    (hc : p.hashComment = f.hashComment) (n : Nat) :
    Mirrors Eq MayBeHint (s.skipGap p n) (s.skipGap f n) := by
  rw [skipGap_of_no_hint hp, skipComments_congr hc, skipGap]
  split
  · next k hk =>
      rw [skipComments_of_skipHints hf hk]
      exact .same (fun _ => .inl rfl) fun _ _ => rfl
  · next e he =>
      obtain ⟨k, rfl, hk⟩ := skipComments_of_skipHints_error hf he
      rw [hk]
      exact .error (.inr ⟨rfl, rfl⟩)

/-- Recognising built-in hints leaves the outcome as it is, except that a comment which is never
closed may be reported as a hint. The other forms may be any, with a matcher of variables that
answers yes only inside the text. -/
theorem tokenize_hinted (hm : m = Forms.executableComment ∨ m = Forms.optimizerHint)
    (s : Source) (d : Dictionary) (f : Forms) :
    Mirrors Eq MayBeHint (Lexer.fresh s d { f with hint := none }).tokenize.1
      (Lexer.fresh s d { f with hint := some m }).tokenize.1 := by
  have hf : (Forms.inGaps { f with hint := some m }).BuiltIn :=
    Forms.inGaps_builtIn (by simpa using hm)
  have hgap : ∀ n, Mirrors Eq MayBeHint (s.skipGap { f with hint := none } n)
      (s.skipGap { f with hint := some m } n) := by
    intro n
    rw [← skipGap_inGaps s { f with hint := some m }]
    exact mirrors_skipGap (p := { f with hint := none }) hf rfl rfl n
  have hignoresHints : ∀ n, Mirrors Eq MayBeHint (s.scanToken d { f with hint := none } n)
      (s.scanToken d { f with hint := some m } n) := fun n =>
    .same (o := s.scanToken d f n) (fun _ => .inl rfl) fun _ _ => rfl
  have hsame : ∀ t t' : Token, t = t' →
      t'.stop = t.stop ∧ (t'.kind = .finish ↔ t.kind = .finish) := by
    rintro t _ rfl
    exact ⟨rfl, Iff.rfl⟩
  have h := mirrors_tokensFrom hsame hgap hignoresHints 0
  rwa [List.forall₂_eq_eq_eq] at h

/-- Hints before and behind comments, and one that is never closed. -/
theorem tokenize_hinted_open :
    let s : Source := .ofString "/*! a *//* b *//*! c */x /*! d */ /*! e"
    let d : Dictionary := .ofWords []
    let plain := (Lexer.fresh s d { hint := none }).tokenize.1
    let hinted := (Lexer.fresh s d { hint := some Forms.executableComment }).tokenize.1
    plain = .error ⟨.unterminatedComment, s.chars, 34⟩ ∧
      hinted = .error ⟨.unterminatedHint, s.chars, 34⟩ ∧ Mirrors Eq MayBeHint plain hinted := by
  intro s d plain hinted
  exact ⟨by decide +kernel, by decide +kernel, tokenize_hinted (.inl rfl) s d {}⟩

/-! ## The cause of an open block -/

theorem cause_scanChars (h : s.scanChars n = .error e) : ∃ q, e.cause = .unterminatedChars q := by
  simp only [scanChars, quotedEnd] at h
  cases hclose : Quoted.close (peek (s.rest n)) (s.rest (n + 1)) with
  | some k => simp [hclose] at h
  | none =>
      simp only [hclose, Except.error.injEq] at h
      exact ⟨_, by rw [← h]; rfl⟩

theorem cause_scanName (h : s.scanName d n = .error e) : ∃ q, e.cause = .unterminatedChars q := by
  obtain ⟨u, -, -, rfl⟩ := scanName_eq_error_iff.mp h
  exact ⟨_, rfl⟩

/-- A block is never closed. -/
def LexicalError.Cause.isOpenBlock (c : LexicalError.Cause) : Prop :=
  c = .unterminatedHint ∨ c = .unterminatedComment

/-- Behind a gap nothing is reported as an open block, whatever the forms. -/
theorem not_isOpenBlock_of_scanToken (h : s.scanToken d f n = .error e) :
    ¬ e.cause.isOpenBlock := by
  have hquote : (∃ q, e.cause = .unterminatedChars q) → ¬ e.cause.isOpenBlock := by
    rintro ⟨q, hq⟩
    simp [hq, LexicalError.Cause.isOpenBlock]
  simp only [scanToken] at h
  split at h
  · exact absurd h (by simp)
  split at h
  · exact hquote (cause_scanChars h)
  split at h
  · exact hquote (cause_scanName h)
  split at h
  · simp only [scanHex] at h
    split at h
    · rw [← Except.error.inj h]
      simp [fault, LexicalError.Cause.isOpenBlock]
    · exact absurd h (by simp)
  split at h
  · exact absurd h (by simp)
  split at h
  · split at h
    · rw [← Except.error.inj h]
      simp [fault, LexicalError.Cause.isOpenBlock]
    · exact absurd h (by simp)
  split at h
  · exact hquote (cause_scanChars h)
  split at h
  · exact absurd h (by simp)
  · rw [← Except.error.inj h]
    simp [fault, LexicalError.Cause.isOpenBlock]

/-- An open block is reported by the gap that it stands in. -/
theorem Lexer.skipGap_of_next {l : Lexer} (h : l.next.1 = .error e) (hc : e.cause.isOpenBlock) :
    l.source.skipGap l.forms l.offset = .error e := by
  rw [next_fst] at h
  have hscan := scan_of_upcoming_error h
  rw [scan] at hscan
  split at hscan
  · exact absurd hc (not_isOpenBlock_of_scanToken hscan)
  · next e' he => rw [he, Except.error.inj hscan]

/-- Which texts are hints depends on the hints of the forms alone. -/
theorem Hints.congr {g : Forms} (h : f.hint = g.hint) {cs r : List Char} (hc : Hints f cs r) :
    Hints g cs r := by
  induction hc with
  | nil => exact .nil
  | blank hb _ ih => exact .blank hb ih
  | block ho hb _ ih =>
      rw [Forms.opensHint, Forms.beginsHint, h] at ho
      exact .block ho hb ih

theorem hints_inGaps {cs r : List Char} : Hints f.inGaps cs r ↔ Hints f cs r :=
  ⟨Hints.congr f.hint_inGaps, Hints.congr f.hint_inGaps.symm⟩

/-- An open block is reported as a hint exactly if it opens like one and only blanks and hints
stand before it in the gap. -/
theorem cause_of_skipGap (hh : f.hint = some Forms.executableComment ∨
    f.hint = some Forms.optimizerHint) (h : s.skipGap f n = .error e) :
    e.cause = .unterminatedHint ↔
      f.beginsHint s e.offset = true ∧ Hints f (s.slice n e.offset) (s.rest e.offset) := by
  have hf := Forms.inGaps_builtIn hh
  rw [← skipGap_inGaps] at h
  obtain ⟨g, u, c, hr, hg, hu, -, rfl⟩ := open_of_skipGap hf h
  have hrest := rest_of_append hr
  have hbegin : f.beginsHint s (n + g.length) = f.inGaps.opensHint ('/' :: '*' :: u) := by
    rw [← hrest]
    exact hf.beginsHint_eq s (n + g.length)
  simp only [fault] at h ⊢
  rw [hbegin, slice_of_append hr, hrest, ← hints_inGaps, and_comm]
  by_cases hhint : Hints f.inGaps g ('/' :: '*' :: u) ∧ f.inGaps.opensHint ('/' :: '*' :: u) = true
  · rw [skipGap_of_open_hint hf hr hu hhint.1 hhint.2] at h
    have hc := congrArg LexicalError.cause (Except.error.inj h)
    exact iff_of_true hc.symm hhint
  · rw [skipGap_of_open_comment hf hr hu hg hhint] at h
    have hc : _ = c := congrArg LexicalError.cause (Except.error.inj h)
    exact iff_of_false (by simp [← hc, fault]) hhint

/-- After any calls on a fresh lexer, where a reading reports a block that is never closed, it is
right about whether the block is a hint exactly if only blanks and hints stand before a hint. The
other forms may be any, with a matcher of variables that answers yes only inside the text. -/
theorem hint_reported_iff (hh : f.hint = some Forms.executableComment ∨
    f.hint = some Forms.optimizerHint) (s : Source) (d : Dictionary) (calls : List Lexer.Call)
    (h : ((Lexer.fresh s d f).after calls).next.1 = .error e) (hc : e.cause.isOpenBlock) :
    (e.cause = .unterminatedHint ↔ f.beginsHint s e.offset = true) ↔
      (f.beginsHint s e.offset = true →
        Hints f (s.slice ((Lexer.fresh s d f).after calls).offset e.offset) (s.rest e.offset)) := by
  have hskip := Lexer.skipGap_of_next h hc
  obtain ⟨hs, -, hf⟩ := Lexer.after_input (Lexer.fresh s d f) calls
  rw [hs, hf] at hskip
  rw [cause_of_skipGap hh hskip]
  exact and_iff_left_iff_imp

/-- An optimizer hint that is never closed, behind a comment: it is reported as a comment. -/
theorem hint_reported_iff_behind_comment :
    let s : Source := .ofString "x /* a */ /*+ b"
    let f := Dialect.oracle.forms
    let l := (Lexer.fresh s (.ofWords []) f).after [.next]
    l.next.1 = .error ⟨.unterminatedComment, s.chars, 10⟩ ∧ f.beginsHint s 10 = true ∧
      ¬ Hints f (s.slice l.offset 10) (s.rest 10) := by
  intro s f l
  have hnext : l.next.1 = .error ⟨.unterminatedComment, s.chars, 10⟩ := by decide +kernel
  have hbegin : f.beginsHint s 10 = true := by decide
  have hiff := hint_reported_iff (.inr rfl) s (.ofWords []) [.next] hnext (.inr rfl)
  refine ⟨hnext, hbegin, fun hhints => ?_⟩
  exact absurd ((hiff.mpr fun _ => hhints).mpr hbegin) (by simp)

end SqlLexis
