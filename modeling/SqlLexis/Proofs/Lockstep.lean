import Mathlib.Data.List.Forall2
import SqlLexis.Proofs.Stream

/-!
# Two readings of one text

A text can be read with one dictionary or another, and with more or fewer of the optional
forms. `Mirrors A E o o'` says how the outcomes of two such readings correspond. Readings that
correspond at every gap and at every token correspond as a whole (`mirrors_tokensFrom`), so it
is enough to compare one step.

Where the readings differ in nothing that a step looks at, the step is the same: gaps depend on
hints and hash comments alone (`skipGap_congr`).
-/

namespace SqlLexis

/-- Two outcomes correspond: both are values that `A` relates, or both are errors that `E`
relates. -/
inductive Mirrors {α : Type} (A : α → α → Prop) (E : LexicalError → LexicalError → Prop) :
    Except LexicalError α → Except LexicalError α → Prop
  | ok {a a' : α} : A a a' → Mirrors A E (.ok a) (.ok a')
  | error {e e' : LexicalError} : E e e' → Mirrors A E (.error e) (.error e')

namespace Mirrors

variable {α : Type} {A : α → α → Prop} {E : LexicalError → LexicalError → Prop}
  {o o' p p' : Except LexicalError α}

theorem of_ok {a : α} (h : Mirrors A E o o') (ho : o = .ok a) : ∃ a', o' = .ok a' ∧ A a a' := by
  cases h with
  | ok ha =>
      obtain rfl := Except.ok.inj ho
      exact ⟨_, rfl, ha⟩
  | error => exact absurd ho (by simp)

theorem of_error {e : LexicalError} (h : Mirrors A E o o') (ho : o = .error e) :
    ∃ e', o' = .error e' ∧ E e e' := by
  cases h with
  | ok => exact absurd ho (by simp)
  | error he =>
      obtain rfl := Except.error.inj ho
      exact ⟨_, rfl, he⟩

/-- An outcome corresponds to itself if what it holds does. -/
theorem same (hE : ∀ e, E e e) (hA : ∀ a, o = .ok a → A a a) : Mirrors A E o o := by
  cases o with
  | ok a => exact .ok (hA a rfl)
  | error e => exact .error (hE e)

/-- A choice that both readings make alike. -/
theorem ite {c : Prop} [Decidable c] (h : c → Mirrors A E o o') (hn : ¬ c → Mirrors A E p p') :
    Mirrors A E (if c then o else p) (if c then o' else p') := by
  by_cases hc : c
  · rw [if_pos hc, if_pos hc]
    exact h hc
  · rw [if_neg hc, if_neg hc]
    exact hn hc

theorem cons {o o' : Except LexicalError (List α)} {a a' : α} (ha : A a a')
    (h : Mirrors (List.Forall₂ A) E o o') :
    Mirrors (List.Forall₂ A) E (o.map (a :: ·)) (o'.map (a' :: ·)) := by
  cases h with
  | ok hs => exact .ok (.cons ha hs)
  | error he => exact .error he

end Mirrors

namespace Source

variable {s : Source} {d d' : Dictionary} {f f' : Forms}

/-- Readings that correspond at every gap and at every token, and whose tokens stop at the
same places, correspond as a whole. -/
theorem mirrors_tokensFrom {A : Token → Token → Prop} {E : LexicalError → LexicalError → Prop}
    (hA : ∀ t t', A t t' → t'.stop = t.stop ∧ (t'.kind = .finish ↔ t.kind = .finish))
    (hgap : ∀ n, Mirrors Eq E (s.skipGap f n) (s.skipGap f' n))
    (htoken : ∀ n, Mirrors A E (s.scanToken d f n) (s.scanToken d' f' n)) (n : Nat) :
    Mirrors (List.Forall₂ A) E (s.tokensFrom d f n) (s.tokensFrom d' f' n) := by
  induction n using tokensFrom_induction (s := s) (d := d) (f := f) with
  | gap n e hskip =>
      obtain ⟨e', hskip', he⟩ := (hgap n).of_error hskip
      rw [tokensFrom_of_skip_error hskip, tokensFrom_of_skip_error hskip']
      exact .error he
  | error n m e hskip hscan =>
      obtain ⟨_, hskip', rfl⟩ := (hgap n).of_ok hskip
      obtain ⟨e', hscan', he⟩ := (htoken m).of_error hscan
      rw [tokensFrom_of_error hskip hscan, tokensFrom_of_error hskip' hscan']
      exact .error he
  | finish n m t hskip hscan ht =>
      obtain ⟨_, hskip', rfl⟩ := (hgap n).of_ok hskip
      obtain ⟨t', hscan', ha⟩ := (htoken m).of_ok hscan
      have ht' := (hA t t' ha).2.mpr ht
      rw [tokensFrom_of_finish hskip hscan ht, tokensFrom_of_finish hskip' hscan' ht']
      exact .ok (.cons ha .nil)
  | token n m t hskip hscan ht ih =>
      obtain ⟨_, hskip', rfl⟩ := (hgap n).of_ok hskip
      obtain ⟨t', hscan', ha⟩ := (htoken m).of_ok hscan
      obtain ⟨hstop, hfinish⟩ := hA t t' ha
      rw [tokensFrom_of_token hskip hscan ht,
        tokensFrom_of_token hskip' hscan' (mt hfinish.mp ht), hstop]
      exact ih.cons ha

/-! ## What a gap depends on -/

theorem skipHints_congr (h : f.hint = f'.hint) (n : Nat) : s.skipHints f n = s.skipHints f' n := by
  have hopens : f.beginsHint s = f'.beginsHint s := by
    funext m
    rw [Forms.beginsHint, Forms.beginsHint, h]
  obtain ⟨k, hk⟩ := s.exists_passes_skipHints f n
  obtain ⟨k', hk'⟩ := s.exists_passes_skipHints f' n
  rw [hopens] at hk
  exact hk.unique hk'

theorem skipComments_congr (h : f.hashComment = f'.hashComment) (n : Nat) :
    s.skipComments f n = s.skipComments f' n := by
  have hopens : s.beginsComment f = s.beginsComment f' := by
    funext m
    rw [beginsComment, beginsComment, h]
  obtain ⟨k, hk⟩ := s.exists_passes_skipComments f n
  obtain ⟨k', hk'⟩ := s.exists_passes_skipComments f' n
  rw [hopens] at hk
  exact hk.unique hk'

/-- Forms with the same hints and the same hash comments have the same gaps. -/
theorem skipGap_congr (hh : f.hint = f'.hint) (hc : f.hashComment = f'.hashComment) (n : Nat) :
    s.skipGap f n = s.skipGap f' n := by
  rw [skipGap, skipGap, skipHints_congr hh]
  split
  · exact skipComments_congr hc _
  · rfl

end Source

end SqlLexis
