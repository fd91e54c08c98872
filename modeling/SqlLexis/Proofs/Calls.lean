import SqlLexis.Lexer

/-!
# Calls on a lexer

A lexer is used by any sequence of three calls: `next`, `pull` and `tokenize`. All of them
move it in one way only, past the token that comes up (`advance`), so a property that this
step keeps is kept by every call (`Call.perform_induction`) and by every sequence of calls
(`after_induction`).
-/

namespace SqlLexis.Lexer

/-- A lexer that has read nothing yet. -/
def fresh (s : Source) (d : Dictionary) (f : Forms) : Lexer :=
  { source := s, dictionary := d, forms := f }

/-- The lexer moved past `t`. -/
def advance (l : Lexer) (t : Token) : Lexer :=
  { l with offset := t.stop, current := some t }

variable {l l' : Lexer} {t : Token} {e : LexicalError}

/-! ## One reading -/

theorem next_of_ok (h : l.upcoming = .ok t) : l.next = (.ok t, l.advance t) := by
  rw [next, h]
  rfl

theorem next_of_error (h : l.upcoming = .error e) : l.next = (.error e, l) := by
  rw [next, h]

theorem upcoming_of_next_ok (h : l.next = (.ok t, l')) :
    l.upcoming = .ok t ∧ l' = l.advance t := by
  cases hu : l.upcoming with
  | ok u =>
      obtain ⟨h1, h2⟩ := Prod.mk.inj ((next_of_ok hu).symm.trans h)
      obtain rfl := Except.ok.inj h1
      exact ⟨rfl, h2.symm⟩
  | error e =>
      exact absurd (Prod.mk.inj ((next_of_error hu).symm.trans h)).1 (by simp)

theorem upcoming_of_next_error (h : l.next = (.error e, l')) :
    l.upcoming = .error e ∧ l' = l := by
  cases hu : l.upcoming with
  | ok u => exact absurd (Prod.mk.inj ((next_of_ok hu).symm.trans h)).1 (by simp)
  | error e =>
      obtain ⟨h1, h2⟩ := Prod.mk.inj ((next_of_error hu).symm.trans h)
      obtain rfl := Except.error.inj h1
      exact ⟨rfl, h2.symm⟩

/-- Only the end is handed out again, everything else is read from the text. -/
theorem scan_of_upcoming_ok (h : l.upcoming = .ok t) (ht : t.kind ≠ .finish) :
    l.scan = .ok t := by
  rw [upcoming] at h
  split at h
  · split at h
    · next hf =>
        obtain rfl := Except.ok.inj h
        exact absurd hf ht
    · exact h
  · exact h

/-- Only what is read from the text can fail, never what was read before. -/
theorem scan_of_upcoming_error (h : l.upcoming = .error e) : l.scan = .error e := by
  rw [upcoming] at h
  split at h
  · split at h
    · exact absurd h (by simp)
    · exact h
  · exact h

/-! ## Reading to the end -/

theorem run_of_error (h : l.upcoming = .error e) : l.run = ⟨[], some e, l⟩ := by
  have hn := next_of_error h
  rw [run]
  split
  · next e' k hk =>
      obtain ⟨h1, rfl⟩ := Prod.mk.inj (hn.symm.trans hk)
      rw [Except.error.inj h1]
  · next u k hk => exact absurd (Prod.mk.inj (hn.symm.trans hk)).1 (by simp)

theorem run_of_finish (h : l.upcoming = .ok t) (ht : t.kind = .finish) :
    l.run = ⟨[t], none, l.advance t⟩ := by
  have hn := next_of_ok h
  rw [run]
  split
  · next e k hk => exact absurd (Prod.mk.inj (hn.symm.trans hk)).1 (by simp)
  · next u k hk =>
      obtain ⟨h1, rfl⟩ := Prod.mk.inj (hn.symm.trans hk)
      obtain rfl := Except.ok.inj h1
      rw [dif_pos ht]

theorem run_of_token (h : l.upcoming = .ok t) (ht : t.kind ≠ .finish) :
    l.run = ⟨t :: (l.advance t).run.tokens, (l.advance t).run.fault, (l.advance t).run.lexer⟩ := by
  have hn := next_of_ok h
  rw [run]
  split
  · next e k hk => exact absurd (Prod.mk.inj (hn.symm.trans hk)).1 (by simp)
  · next u k hk =>
      obtain ⟨h1, rfl⟩ := Prod.mk.inj (hn.symm.trans hk)
      obtain rfl := Except.ok.inj h1
      rw [dif_neg ht]

/-- To show something of reading to the end, show it where reading stops and carry it back
over one token. -/
theorem run_induction {P : Lexer → Prop}
    (error : ∀ l e, l.upcoming = .error e → P l)
    (finish : ∀ l t, l.upcoming = .ok t → t.kind = .finish → P l)
    (token : ∀ l t, l.upcoming = .ok t → t.kind ≠ .finish → P (l.advance t) → P l)
    (l : Lexer) : P l := by
  induction hk : l.source.length - l.offset using Nat.strongRecOn generalizing l with
  | ind k ih =>
      subst hk
      cases hu : l.upcoming with
      | error e => exact error l e hu
      | ok t =>
          by_cases ht : t.kind = .finish
          · exact finish l t hu ht
          · exact token l t hu ht (ih _ (next_decreases (next_of_ok hu) ht) _ rfl)

/-! ## Sequences of calls -/

/-- One of the three ways to read on. -/
inductive Call where
  | next
  | pull
  | tokenize
  deriving Repr, DecidableEq

namespace Call

/-- The lexer as a call leaves it. -/
def perform : Call → Lexer → Lexer
  | next, l => l.next.2
  | pull, l => l.pull.2
  | tokenize, l => l.tokenize.2

/-- The tokens that a call returns; none if it fails. -/
def returned : Call → Lexer → List Token
  | next, l =>
    match l.next.1 with
    | .ok t => [t]
    | .error _ => []
  | pull, l =>
    match l.pull.1 with
    | some (.ok t) => [t]
    | _ => []
  | tokenize, l =>
    match l.tokenize.1 with
    | .ok ts => ts
    | .error _ => []

/-- The error that a call returns, if it fails. -/
def failure? : Call → Lexer → Option LexicalError
  | next, l =>
    match l.next.1 with
    | .error e => some e
    | .ok _ => none
  | pull, l =>
    match l.pull.1 with
    | some (.error e) => some e
    | _ => none
  | tokenize, l =>
    match l.tokenize.1 with
    | .error e => some e
    | .ok _ => none

end Call

/-- The lexer after a sequence of calls. -/
def after (l : Lexer) (calls : List Call) : Lexer :=
  calls.foldl (fun l c => c.perform l) l

@[simp] theorem after_cons (l : Lexer) (c : Call) (calls : List Call) :
    l.after (c :: calls) = (c.perform l).after calls := rfl

theorem tokenize_snd (l : Lexer) : l.tokenize.2 = l.run.lexer := by
  rw [tokenize]
  split <;> rfl

theorem pull_snd (l : Lexer) :
    l.pull.2 = if l.halted then l else { l.next.2 with halted := isLast l.next.1 } := by
  rw [pull]
  split <;> rfl

section Induction

variable {P : Lexer → Prop}
  (step : ∀ l t, P l → l.upcoming = .ok t → P (l.advance t))
  (halt : ∀ l b, P l → P { l with halted := b })

include step in
theorem next_induction (h : P l) : P l.next.2 := by
  cases hu : l.upcoming with
  | ok t =>
      rw [next_of_ok hu]
      exact step l t h hu
  | error e =>
      rw [next_of_error hu]
      exact h

include step in
theorem run_lexer_induction (h : P l) : P l.run.lexer := by
  induction l using run_induction with
  | error l e hu =>
      rw [run_of_error hu]
      exact h
  | finish l t hu ht =>
      rw [run_of_finish hu ht]
      exact step l t h hu
  | token l t hu ht ih =>
      rw [run_of_token hu ht]
      exact ih (step l t h hu)

include step in
/-- What reading to the end gives has come up where `P` holds. -/
theorem run_origin (h : P l) :
    (∀ t ∈ l.run.tokens, ∃ m, P m ∧ m.upcoming = .ok t) ∧
      ∀ e, l.run.fault = some e → ∃ m, P m ∧ m.upcoming = .error e := by
  induction l using run_induction with
  | error l e hu =>
      rw [run_of_error hu]
      refine ⟨by simp, ?_⟩
      intro e' he
      obtain rfl := Option.some.inj he
      exact ⟨l, h, hu⟩
  | finish l t hu ht =>
      rw [run_of_finish hu ht]
      refine ⟨?_, by simp⟩
      intro u hmem
      obtain rfl := List.mem_singleton.mp hmem
      exact ⟨l, h, hu⟩
  | token l t hu ht ih =>
      obtain ⟨htokens, hfault⟩ := ih (step l t h hu)
      rw [run_of_token hu ht]
      refine ⟨?_, hfault⟩
      intro u hmem
      rcases List.mem_cons.mp hmem with rfl | hmem
      · exact ⟨l, h, hu⟩
      · exact htokens u hmem

include step in
/-- An error that a call returns has come up where `P` holds. -/
theorem Call.failure_origin {c : Call} (h : P l) (he : c.failure? l = some e) :
    ∃ m, P m ∧ m.upcoming = .error e := by
  have hnext : l.next.1 = .error e → ∃ m, P m ∧ m.upcoming = .error e := by
    intro hn
    exact ⟨l, h, (upcoming_of_next_error (Prod.ext hn rfl)).1⟩
  cases c with
  | next =>
      simp only [failure?] at he
      split at he
      · next e' hn => exact hnext (Option.some.inj he ▸ hn)
      · exact absurd he (by simp)
  | pull =>
      simp only [failure?, Lexer.pull] at he
      by_cases hh : l.halted = true
      · simp [hh] at he
      · simp only [hh, Bool.false_eq_true, if_false] at he
        split at he
        · next e' hn =>
            rw [Option.some.inj he] at hn
            exact hnext (Option.some.inj hn)
        · exact absurd he (by simp)
  | tokenize =>
      simp only [failure?, Lexer.tokenize] at he
      cases hf : l.run.fault with
      | none => simp [hf] at he
      | some e' =>
          rw [hf] at he
          exact (run_origin step h).2 e (hf.trans he)

include step halt in
/-- What moving past a token keeps, every call keeps. -/
theorem Call.perform_induction (h : P l) (c : Call) : P (c.perform l) := by
  cases c with
  | next => exact next_induction step h
  | pull =>
      rw [perform, pull_snd]
      split
      · exact h
      · exact halt _ _ (next_induction step h)
  | tokenize =>
      rw [perform, tokenize_snd]
      exact run_lexer_induction step h

include step halt in
/-- What moving past a token keeps, every sequence of calls keeps. -/
theorem after_induction (h : P l) (calls : List Call) : P (l.after calls) := by
  induction calls generalizing l with
  | nil => exact h
  | cons c calls ih =>
      rw [after_cons]
      exact ih (Call.perform_induction step halt h c)

end Induction

end SqlLexis.Lexer
