import SqlLexis.Proofs.Stream

/-!
# Tokens do not know where they stand

Putting a text in front of another moves every token of the latter and changes nothing else,
as long as what stands in front does not end in a name. `Displaced k move o o'` says that `o'`
is the outcome `o` moved by `k` places. Each scanner is shown to be moved this way, then one
token (`displaced_scanToken`), then a whole run (`displaced_tokensFrom`).

Whether an open block counts as a hint or as a comment depends on what was skipped before it,
so outcomes are compared up to this difference.
-/

namespace SqlLexis

/-- The token `k` places further on. -/
def Token.shift (k : Nat) (t : Token) : Token := { t with stop := t.stop + k }

/-- The cause with hints taken for the comments they are. -/
def LexicalError.Cause.unhinted : LexicalError.Cause → LexicalError.Cause
  | .unterminatedHint => .unterminatedComment
  | c => c

/-- The second outcome is the first one moved by `k` places: `move` says how a success moves,
and a failure keeps its cause. -/
inductive Displaced {α : Type} (k : Nat) (move : α → α) :
    Except LexicalError α → Except LexicalError α → Prop
  | ok (a : α) : Displaced k move (.ok a) (.ok (move a))
  | error {e e' : LexicalError} : e'.offset = e.offset + k →
      e'.cause.unhinted = e.cause.unhinted → Displaced k move (.error e) (.error e')

namespace Displaced

variable {α : Type} {k j : Nat} {move after : α → α} {o o' p p' : Except LexicalError α}

theorem refl (o : Except LexicalError α) : Displaced 0 id o o := by
  cases o with
  | error e => exact .error rfl rfl
  | ok a => exact .ok a

theorem trans {o'' : Except LexicalError α} (h : Displaced k move o o')
    (h' : Displaced j after o' o'') : Displaced (k + j) (after ∘ move) o o'' := by
  cases h with
  | ok a =>
      cases h' with
      | ok => exact .ok a
  | error ho hc =>
      cases h' with
      | error ho' hc' => exact .error (by omega) (hc'.trans hc)

theorem of_ok {a : α} (h : Displaced k move o o') (ho : o = .ok a) : o' = .ok (move a) := by
  cases h with
  | ok b => rw [Except.ok.inj ho]
  | error => exact absurd ho (by simp)

theorem of_error {e : LexicalError} (h : Displaced k move o o') (ho : o = .error e) :
    ∃ e', o' = .error e' ∧ e'.offset = e.offset + k ∧ e'.cause.unhinted = e.cause.unhinted := by
  cases h with
  | ok b => exact absurd ho (by simp)
  | error hoff hcause =>
      obtain rfl := Except.error.inj ho
      exact ⟨_, rfl, hoff, hcause⟩

/-- Successes may be changed on both sides by functions that moving commutes with. -/
theorem map {g g' : α → α} (h : Displaced k move o o') (hg : ∀ a, g' (move a) = move (g a)) :
    Displaced k move (o.map g) (o'.map g') := by
  cases h with
  | ok a =>
      have h : Displaced k move (.ok (g a)) (.ok (move (g a))) := .ok (g a)
      rwa [← hg a] at h
  | error ho hc => exact .error ho hc

theorem map_right (h : Displaced k move o o') (g : α → α) :
    Displaced k (g ∘ move) o (o'.map g) := by
  cases h with
  | ok a => exact .ok a
  | error ho hc => exact .error ho hc

theorem fault {s s' : Source} (c : LexicalError.Cause) (n : Nat) :
    Displaced k move (.error (s.fault c n)) (.error (s'.fault c (n + k))) :=
  .error rfl rfl

/-- A choice that does not depend on the place. -/
theorem ite {c : Prop} [Decidable c] (h : Displaced k move o o')
    (hn : Displaced k move p p') :
    Displaced k move (if c then o else p) (if c then o' else p') := by
  by_cases hc : c
  · rw [if_pos hc, if_pos hc]
    exact h
  · rw [if_neg hc, if_neg hc]
    exact hn

end Displaced

namespace Source

/-- The text with `u` put in front. -/
def after (s : Source) (u : List Char) : Source := ⟨u ++ s.chars⟩

variable {s : Source} {u : List Char} {d : Dictionary} {f : Forms}

/-! ## What a scanner reads -/

theorem length_after (s : Source) (u : List Char) : (s.after u).length = s.length + u.length := by
  simp [after, length, Nat.add_comm]

theorem rest_after (s : Source) (u : List Char) (n : Nat) :
    (s.after u).rest (n + u.length) = s.rest n := by
  simp only [after, rest]
  rw [Nat.add_comm, List.drop_length_add_append]

theorem rest_after_add (s : Source) (u : List Char) (n i : Nat) :
    (s.after u).rest (n + u.length + i) = s.rest (n + i) := by
  rw [Nat.add_right_comm, rest_after]

theorem slice_after (s : Source) (u : List Char) (n m : Nat) :
    (s.after u).slice (n + u.length) (m + u.length) = s.slice n m := by
  simp only [after, slice]
  rw [Nat.add_comm m, Nat.add_comm n, List.take_length_add_append,
    List.drop_length_add_append]

theorem cut_after (s : Source) (u : List Char) (kind : TokenKind) (n i : Nat) :
    (s.after u).cut kind (n + u.length) i = (s.cut kind n i).shift u.length := by
  rw [cut, Nat.add_right_comm, slice_after]
  rfl

theorem followsName_after (hu : (s.after u).followsName u.length = false) (n : Nat) :
    (s.after u).followsName (n + u.length) = s.followsName n := by
  cases n with
  | zero => rw [Nat.zero_add, hu, followsName_zero]
  | succ n => rw [Nat.add_right_comm, followsName_succ, followsName_succ, rest_after]

theorem skipGap_after {n m : Nat} (hf : f.BuiltIn) (h : s.skipGap f n = .ok m)
    (u : List Char) : (s.after u).skipGap f (n + u.length) = .ok (m + u.length) := by
  obtain ⟨g, r, hr, hg, hs, rfl⟩ := gap_of_skipGap hf h
  rw [Nat.add_right_comm]
  exact skipGap_of_gap hf ((rest_after s u n).trans hr) hg hs

/-! ## Each scanner -/

theorem displaced_scanChars (s : Source) (u : List Char) (n : Nat) :
    Displaced u.length (Token.shift u.length) (s.scanChars n)
      ((s.after u).scanChars (n + u.length)) := by
  simp only [scanChars, quotedEnd, rest_after, rest_after_add]
  cases Quoted.close (peek (s.rest n)) (s.rest (n + 1)) with
  | none => exact .fault _ n
  | some k =>
      have hstop : n + u.length + 1 + k = n + 1 + k + u.length := by omega
      have hbody : n + u.length + 1 + k - 1 = n + 1 + k - 1 + u.length := by omega
      dsimp only
      rw [hbody, hstop, Nat.add_right_comm n u.length, slice_after]
      exact .ok _

theorem displaced_scanName (s : Source) (u : List Char) (d : Dictionary) (n : Nat) :
    Displaced u.length (Token.shift u.length) (s.scanName d n)
      ((s.after u).scanName d (n + u.length)) := by
  simp only [scanName, quotedEnd, rest_after, rest_after_add, cut_after]
  apply Displaced.ite
  · cases Quoted.close nameQuote (s.rest (n + 1)) with
    | none => exact .fault _ n
    | some k =>
        have hlen : n + u.length + 1 + k - (n + u.length) = n + 1 + k - n := by omega
        simp only [hlen]
        exact .ok _
  · rw [Nat.add_right_comm, slice_after]
    exact .ok _

theorem displaced_scanHex (s : Source) (u : List Char) (n : Nat) :
    Displaced u.length (Token.shift u.length) (s.scanHex n)
      ((s.after u).scanHex (n + u.length)) := by
  simp only [scanHex, rest_after_add, cut_after]
  apply Displaced.ite
  · rw [Nat.add_right_comm]
    exact .fault _ _
  · exact .ok _

theorem scanVariable_after (s : Source) (u : List Char) (n : Nat) :
    (s.after u).scanVariable (n + u.length) = (s.scanVariable n).shift u.length := by
  rw [scanVariable, rest_after, cut_after, scanVariable]

theorem scanNumber_after (s : Source) (u : List Char) (n : Nat) :
    (s.after u).scanNumber (n + u.length) = (s.scanNumber n).shift u.length := by
  simp only [scanNumber, rest_after, cut_after]

theorem scanSymbol_after (s : Source) (u : List Char) (n : Nat) :
    (s.after u).scanSymbol (n + u.length) = (s.scanSymbol n).shift u.length := by
  simp only [scanSymbol, rest_after, cut_after]
  split <;> rfl

theorem beginsVariable_after (hf : f.BuiltIn) (s : Source) (u : List Char) (n : Nat) :
    f.beginsVariable (s.after u) (n + u.length) = f.beginsVariable s n := by
  rw [Bool.eq_iff_iff, hf.beginsVariable_iff, hf.beginsVariable_iff, rest_after]

/-! ## One token and all of them -/

/-- The choices of the scanner are the same on both sides, in the same order. -/
theorem displaced_scanToken (hf : f.BuiltIn) (hu : (s.after u).followsName u.length = false)
    (d : Dictionary) (n : Nat) :
    Displaced u.length (Token.shift u.length) (s.scanToken d f n)
      ((s.after u).scanToken d f (n + u.length)) := by
  simp only [scanToken, beginsNumber_eq, beginsHex_eq, beginsNational_eq,
    beginsVariable_after hf, rest_after, followsName_after hu, scanVariable_after,
    scanNumber_after, scanSymbol_after, length_after, Nat.add_le_add_iff_right]
  refine .ite (.ok _) ?_
  refine .ite ?_ ?_
  · rw [Nat.add_right_comm]
    exact displaced_scanChars s u (n + 1)
  refine .ite (displaced_scanName s u d n) ?_
  refine .ite (displaced_scanHex s u n) ?_
  refine .ite (.ok _) ?_
  refine .ite (.ite (.fault _ n) (.ok _)) ?_
  refine .ite (displaced_scanChars s u n) ?_
  exact .ite (.ok (⟨.finish, [], n⟩ : Token)) (.fault _ n)

/-- The causes of an open block are one cause when hints are taken for comments. -/
theorem unhinted_eq {c c' : LexicalError.Cause}
    (h : c = .unterminatedComment ∨ c = .unterminatedHint)
    (h' : c' = .unterminatedComment ∨ c' = .unterminatedHint) : c'.unhinted = c.unhinted := by
  rcases h with rfl | rfl <;> rcases h' with rfl | rfl <;> rfl

/-- Putting a text in front that does not end in a name moves the outcome, and no more. -/
theorem displaced_tokensFrom (hf : f.BuiltIn) (hu : (s.after u).followsName u.length = false)
    (d : Dictionary) (n : Nat) :
    Displaced u.length (List.map (Token.shift u.length)) (s.tokensFrom d f n)
      ((s.after u).tokensFrom d f (n + u.length)) := by
  induction n using tokensFrom_induction (s := s) (d := d) (f := f) with
  | gap n e hskip =>
      obtain ⟨g, v, c, hr, hg, hv, hc, rfl⟩ := open_of_skipGap hf hskip
      obtain ⟨c', hc', hskip'⟩ := skipGap_of_open hf ((rest_after s u n).trans hr) hg hv
      rw [tokensFrom_of_skip_error hskip, tokensFrom_of_skip_error hskip']
      exact .error (Nat.add_right_comm _ _ _) (unhinted_eq hc hc')
  | error n m e hskip hscan =>
      obtain ⟨e', hscan', hoff, hcause⟩ := (displaced_scanToken hf hu d m).of_error hscan
      rw [tokensFrom_of_error hskip hscan, tokensFrom_of_error (skipGap_after hf hskip u) hscan']
      exact .error hoff hcause
  | finish n m t hskip hscan ht =>
      have hscan' := (displaced_scanToken hf hu d m).of_ok hscan
      rw [tokensFrom_of_finish hskip hscan ht,
        tokensFrom_of_finish (skipGap_after hf hskip u) hscan' ht]
      exact .ok [t]
  | token n m t hskip hscan ht ih =>
      have hscan' := (displaced_scanToken hf hu d m).of_ok hscan
      rw [tokensFrom_of_token hskip hscan ht,
        tokensFrom_of_token (skipGap_after hf hskip u) hscan' ht]
      exact ih.map fun ts => rfl

end Source

end SqlLexis
