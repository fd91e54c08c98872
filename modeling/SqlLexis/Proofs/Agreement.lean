import SqlLexis.Proofs.LexerState

/-!
# All ways of reading agree

`next`, `pull` and `tokenize` share one lexer, and only `pull` knows that it has come to an
end. Whatever calls are mixed, they walk through one sequence, the `outcomes` of a fresh lexer:
after any calls the lexer stands behind some number of them, and what a call returns is read
off the sequence from there (`Agrees`, `agrees_after`).

The invariant behind this is `Stands`: either the outcomes still to come are the rest of the
sequence, or the whole sequence has been read and the end was its last.
-/

namespace SqlLexis.Lexer

/-! ## The sequence of outcomes -/

/-- What reading again and again gives, up to and including the first end or failure. -/
def outcomes (l : Lexer) : List (Except LexicalError Token) :=
  match h : l.next with
  | (.error e, _) => [.error e]
  | (.ok t, l') =>
    if hf : t.kind = .finish then [.ok t]
    else
      have := next_decreases h hf
      .ok t :: l'.outcomes
termination_by l.source.length - l.offset

variable {l l' m p : Lexer} {t : Token} {ts us : List Token} {o : Except LexicalError Token}

theorem outcomes_of_last (h : l.next = (o, l')) (ho : isLast o = true) : l.outcomes = [o] := by
  rw [outcomes]
  split
  · next e k hk => rw [(Prod.mk.inj (h.symm.trans hk)).1]
  · next u k hk =>
      obtain rfl := (Prod.mk.inj (h.symm.trans hk)).1
      rw [dif_pos (TokenKind.isFinish_iff.mp ho)]

theorem outcomes_of_token (h : l.next = (.ok t, l')) (ht : t.kind ≠ .finish) :
    l.outcomes = .ok t :: l'.outcomes := by
  rw [outcomes]
  split
  · next e k hk => exact absurd (Prod.mk.inj (h.symm.trans hk)).1 (by simp)
  · next u k hk =>
      obtain ⟨hu, rfl⟩ := Prod.mk.inj (h.symm.trans hk)
      obtain rfl := Except.ok.inj hu
      rw [dif_neg ht]

theorem isLast_ok (ht : t.kind = .finish) : isLast (.ok t) = true :=
  TokenKind.isFinish_iff.mpr ht

/-- The first outcome is what the next reading gives. -/
theorem head?_outcomes (l : Lexer) : l.outcomes.head? = some l.next.1 := by
  cases hn : l.next with
  | mk o l' =>
      by_cases ho : isLast o = true
      · rw [outcomes_of_last hn ho]
        rfl
      · cases o with
        | error e => exact absurd rfl ho
        | ok t =>
            rw [outcomes_of_token hn fun ht => ho (isLast_ok ht)]
            rfl

/-! ## Runs of readings -/

theorem Steps.trans (h : Steps l ts m) (h' : Steps m us p) : Steps l (ts ++ us) p := by
  induction h with
  | nil => exact h'
  | cons hn _ ih => exact .cons hn (ih h')

theorem Steps.single (h : l.next = (.ok t, l')) : Steps l [t] l' :=
  .cons h .nil

/-- Reading does not look at whether iteration is over. -/
theorem next_setHalted (l : Lexer) (b : Bool) :
    next { l with halted := b } = (l.next.1, { l.next.2 with halted := b }) := by
  have hup : upcoming { l with halted := b } = l.upcoming := rfl
  rw [next, next, hup]
  split <;> rfl

theorem Steps.setHalted (h : Steps l ts m) (b : Bool) :
    Steps { l with halted := b } ts { m with halted := b } := by
  induction h with
  | nil => exact .nil
  | cons hn _ ih =>
      refine .cons ?_ ih
      rw [next_setHalted, hn]

theorem Steps.outcomes_eq (h : Steps l ts m) (hts : ∀ t ∈ ts, t.kind ≠ .finish) :
    l.outcomes = ts.map .ok ++ m.outcomes := by
  induction h with
  | nil => rfl
  | cons hn _ ih =>
      rw [outcomes_of_token hn (hts _ List.mem_cons_self),
        ih fun t ht => hts t (List.mem_cons_of_mem _ ht)]
      rfl

theorem outcomes_setHalted (l : Lexer) (b : Bool) :
    outcomes { l with halted := b } = l.outcomes := by
  induction l using run_induction with
  | error l e hu =>
      have hn := next_of_error hu
      have hb := next_setHalted l b
      rw [hn] at hb
      rw [outcomes_of_last hn rfl, outcomes_of_last hb rfl]
  | finish l t hu ht =>
      have hn := next_of_ok hu
      have hb := next_setHalted l b
      rw [hn] at hb
      rw [outcomes_of_last hn (isLast_ok ht), outcomes_of_last hb (isLast_ok ht)]
  | token l t hu ht ih =>
      have hn := next_of_ok hu
      have hb := next_setHalted l b
      rw [hn] at hb
      rw [outcomes_of_token hn ht, outcomes_of_token hb ht, ih]

/-- Tokenizing returns the outcomes that are left, or the failure they end with, and leaves
the lexer behind all tokens among them. -/
theorem tokenize_outcomes (l : Lexer) :
    (∃ ts, l.outcomes = ts.map .ok ∧ l.tokenize.1 = .ok ts ∧ Steps l ts l.tokenize.2) ∨
      ∃ ts e, l.outcomes = ts.map .ok ++ [.error e] ∧ l.tokenize.1 = .error e ∧
        Steps l ts l.tokenize.2 := by
  obtain ⟨ts, m, o, l', hsteps, hnext, hlast, hts, -, htok⟩ := tokenize_steps l
  have hout := hsteps.outcomes_eq hts
  rw [outcomes_of_last hnext hlast] at hout
  rw [htok]
  cases o with
  | ok t =>
      refine Or.inl ⟨ts ++ [t], ?_, rfl, hsteps.trans (.single hnext)⟩
      rw [hout, List.map_append]
      rfl
  | error e =>
      obtain ⟨-, rfl⟩ := upcoming_of_next_error hnext
      exact Or.inr ⟨ts, e, hout, rfl, hsteps⟩

/-! ## Where a lexer stands -/

/-- `l` has read `ts`, one after the other, from `l₀` on. What is left of the outcomes is what
it reads next, or there is nothing left and it has read the end. -/
inductive Stands (l₀ : Lexer) (ts : List Token) (l : Lexer) : Prop
  | within : Steps l₀ ts { l with halted := l₀.halted } →
      l₀.outcomes = ts.map .ok ++ l.outcomes → Stands l₀ ts l
  | finished {t : Token} : Steps l₀ ts { l with halted := l₀.halted } →
      l₀.outcomes = ts.map .ok → ts.getLast? = some t → t.kind = .finish →
      l.current = some t → l.offset = t.stop → Stands l₀ ts l

namespace Stands

variable {l₀ : Lexer}

theorem setHalted (h : Stands l₀ ts l) (b : Bool) : Stands l₀ ts { l with halted := b } := by
  cases h with
  | within hs ho => exact .within hs (by rw [outcomes_setHalted l b, ho])
  | finished hs ho hlast ht hc hoff => exact .finished hs ho hlast ht hc hoff

/-- One reading: the token is added to those read, unless it is the end read again. -/
theorem advance (h : Stands l₀ ts l) (hu : l.upcoming = .ok t) :
    ∃ us, Stands l₀ us (l.advance t) := by
  have hn := next_of_ok hu
  cases h with
  | within hs ho =>
      have hb := next_setHalted l l₀.halted
      rw [hn] at hb
      have hsteps := hs.trans (.single hb)
      by_cases ht : t.kind = .finish
      · rw [outcomes_of_last hn (isLast_ok ht)] at ho
        exact ⟨_, .finished hsteps (by rw [ho, List.map_append]; rfl) (by simp) ht rfl rfl⟩
      · rw [outcomes_of_token hn ht] at ho
        exact ⟨_, .within hsteps (by rw [ho, List.map_append, List.append_assoc]; rfl)⟩
  | @finished u hs ho hlast ht hc hoff =>
      obtain rfl : u = t := Except.ok.inj ((upcoming_of_finish hc ht).symm.trans hu)
      have hsame : l.advance u = l := by rw [Lexer.advance, ← hc, ← hoff]
      rw [hsame]
      exact ⟨_, .finished hs ho hlast ht hc hoff⟩

end Stands

/-- After any calls, a lexer stands somewhere in the outcomes of the lexer it was. -/
theorem exists_stands_after (l₀ : Lexer) (calls : List Call) :
    ∃ ts, Stands l₀ ts (l₀.after calls) := by
  refine after_induction (P := fun l => ∃ ts, Stands l₀ ts l) ?_ ?_ ⟨[], .within .nil rfl⟩ calls
  · rintro l t ⟨ts, h⟩ hu
    exact h.advance hu
  · rintro l b ⟨ts, h⟩
    exact ⟨ts, h.setHalted b⟩

/-! ## When iteration is over -/

/-- Among the calls, one of iteration yielded the end or a failure. -/
def Ended (l : Lexer) (calls : List Call) : Prop :=
  ∃ before later o, calls = before ++ .pull :: later ∧
    (l.after before).pull.1 = some o ∧ isLast o = true

/-- A call ends iteration. -/
def Ends (l : Lexer) (c : Call) : Prop :=
  c = .pull ∧ ∃ o, l.pull.1 = some o ∧ isLast o = true

theorem ended_cons {c : Call} {calls : List Call} :
    Ended l (c :: calls) ↔ Ends l c ∨ Ended (c.perform l) calls := by
  constructor
  · rintro ⟨before, later, o, heq, hpull, ho⟩
    cases before with
    | nil =>
        obtain ⟨rfl, -⟩ := List.cons.inj heq
        exact Or.inl ⟨rfl, o, hpull, ho⟩
    | cons b before =>
        obtain ⟨rfl, rfl⟩ := List.cons.inj heq
        exact Or.inr ⟨before, later, o, rfl, hpull, ho⟩
  · rintro (⟨rfl, o, hpull, ho⟩ | ⟨before, later, o, rfl, hpull, ho⟩)
    · exact ⟨[], calls, o, rfl, hpull, ho⟩
    · exact ⟨c :: before, later, o, rfl, hpull, ho⟩

theorem pull_fst (l : Lexer) : l.pull.1 = if l.halted then none else some l.next.1 := by
  rw [pull]
  split <;> rfl

/-- Only a call of iteration changes whether it is over. -/
theorem halted_perform {c : Call} :
    (c.perform l).halted = true ↔ l.halted = true ∨ Ends l c := by
  have hkeep : ∀ (l' : Lexer) (t : Token), l'.halted = l.halted → l'.upcoming = .ok t →
      (l'.advance t).halted = l.halted := fun _ _ h _ => h
  cases c with
  | next =>
      have hn : l.next.2.halted = l.halted :=
        next_induction (P := fun l' => l'.halted = l.halted) hkeep rfl
      simp [Call.perform, Ends, hn]
  | tokenize =>
      have hr : l.run.lexer.halted = l.halted :=
        run_lexer_induction (P := fun l' => l'.halted = l.halted) hkeep rfl
      simp [Call.perform, Ends, tokenize_snd, hr]
  | pull =>
      cases hh : l.halted with
      | true => simp [Call.perform, pull_snd, hh]
      | false => simp [Call.perform, Ends, pull_snd, pull_fst, hh]

theorem halted_after (l : Lexer) (calls : List Call) :
    (l.after calls).halted = true ↔ l.halted = true ∨ Ended l calls := by
  induction calls generalizing l with
  | nil => simp [after, Ended]
  | cons c calls ih => rw [after_cons, ih, halted_perform, ended_cons, or_assoc]

/-! ## What calls return -/

/-- `l` is where the first `k` readings from `l₀` lead, all of which succeed. -/
def ReadsTo (l₀ : Lexer) (k : Nat) (l : Lexer) : Prop :=
  ∃ ts m, Steps l₀ ts m ∧ ts.length = k ∧ ts.map .ok = l₀.outcomes.take k ∧
    l.offset = m.offset ∧ l.current = m.current

/-- After the given calls on `l₀`, the lexer stands behind `k` of its outcomes, and every call
answers from there. -/
structure Agrees (l₀ : Lexer) (calls : List Call) (k : Nat) : Prop where
  /-- The position and the token last read are those behind `k` readings. -/
  state : ReadsTo l₀ k (l₀.after calls)
  /-- Reading gives the outcome that comes next, or the last one for ever. -/
  next : some (l₀.after calls).next.1 = l₀.outcomes[k]?.or l₀.outcomes.getLast?
  /-- Iteration yields nothing exactly if it has yielded the end or a failure before. -/
  pull_none : (l₀.after calls).pull.1 = none ↔ Ended l₀ calls
  /-- Otherwise it yields what reading gives. -/
  pull_some : ¬ Ended l₀ calls →
    (l₀.after calls).pull.1 = l₀.outcomes[k]?.or l₀.outcomes.getLast?
  /-- If the outcomes come to the end, tokenizing returns those that are left, or the end
  again, and the lexer stands behind them all. -/
  tokenize_finish : ∀ t, l₀.outcomes.getLast? = some (.ok t) →
    (∃ ts, (l₀.after calls).tokenize.1 = .ok ts ∧
      ts.map .ok = l₀.outcomes.drop (min k (l₀.outcomes.length - 1))) ∧
    ReadsTo l₀ l₀.outcomes.length (l₀.after calls).tokenize.2
  /-- If they come to a failure, tokenizing returns it, and the lexer stands behind every
  token before it. -/
  tokenize_failure : ∀ e, l₀.outcomes.getLast? = some (.error e) →
    (l₀.after calls).tokenize.1 = .error e ∧
      ReadsTo l₀ (l₀.outcomes.length - 1) (l₀.after calls).tokenize.2

theorem ReadsTo.of_steps {l₀ : Lexer} {b : Bool} {rest : List (Except LexicalError Token)}
    (hs : Steps l₀ ts { l with halted := b }) (ho : l₀.outcomes = ts.map .ok ++ rest) :
    ReadsTo l₀ ts.length l := by
  refine ⟨ts, _, hs, rfl, ?_, rfl, rfl⟩
  rw [ho, List.take_left' (List.length_map _)]

namespace Stands

variable {l₀ : Lexer}

theorem readsTo (h : Stands l₀ ts l) : ReadsTo l₀ ts.length l := by
  cases h with
  | within hs ho => exact .of_steps hs ho
  | finished hs ho _ _ _ _ => exact .of_steps hs (by rw [ho, List.append_nil])

theorem next_eq (h : Stands l₀ ts l) :
    some l.next.1 = l₀.outcomes[ts.length]?.or l₀.outcomes.getLast? := by
  cases h with
  | within hs ho =>
      have hget : l₀.outcomes[ts.length]? = l.outcomes.head? := by
        rw [ho, List.getElem?_append_right (by simp), List.head?_eq_getElem?]
        simp
      rw [hget, head?_outcomes]
      rfl
  | @finished t hs ho hlast ht hc hoff =>
      rw [next_of_ok (upcoming_of_finish hc ht), ho]
      simp [hlast]

theorem tokenize_finish (h : Stands l₀ ts l) (ht : l₀.outcomes.getLast? = some (.ok t)) :
    (∃ us, l.tokenize.1 = .ok us ∧
      us.map .ok = l₀.outcomes.drop (min ts.length (l₀.outcomes.length - 1))) ∧
      ReadsTo l₀ l₀.outcomes.length l.tokenize.2 := by
  have hstay := h.readsTo
  cases h with
  | within hs ho =>
      rcases tokenize_outcomes l with ⟨us, hus, htok, hsteps⟩ | ⟨us, e, hus, -, -⟩
      · rw [hus] at ho
        have hlen := congrArg List.length ho
        simp only [List.length_append, List.length_map] at hlen
        have hpos : 0 < us.length := by
          have hhead := head?_outcomes l
          rw [hus] at hhead
          cases us with
          | nil => simp at hhead
          | cons u us => simp
        refine ⟨⟨us, htok, ?_⟩, ?_⟩
        · rw [Nat.min_eq_left (by omega), ho, List.drop_left' (List.length_map _)]
        · have hread := ReadsTo.of_steps (hs.trans (hsteps.setHalted l₀.halted)) (ho.trans
            (by rw [List.map_append, List.append_nil]))
          rwa [List.length_append, ← hlen] at hread
      · rw [ho, hus] at ht
        simp at ht
  | @finished u hs ho hlast hu hc hoff =>
      have htok : l.tokenize = (.ok [u], l) := by
        rw [tokenize, run_of_finish (upcoming_of_finish hc hu) hu, Lexer.advance, ← hc, ← hoff]
      obtain ⟨us, rfl⟩ : ∃ us, ts = us ++ [u] := List.getLast?_eq_some_iff.mp hlast
      rw [htok]
      refine ⟨⟨[u], rfl, ?_⟩, ?_⟩
      · simp [ho]
      · rwa [ho, List.length_map]

theorem tokenize_failure {e : LexicalError} (h : Stands l₀ ts l)
    (he : l₀.outcomes.getLast? = some (.error e)) :
    l.tokenize.1 = .error e ∧ ReadsTo l₀ (l₀.outcomes.length - 1) l.tokenize.2 := by
  cases h with
  | within hs ho =>
      rcases tokenize_outcomes l with ⟨us, hus, -, -⟩ | ⟨us, e', hus, htok, hsteps⟩
      · rw [ho, hus, ← List.map_append, List.getLast?_map] at he
        simp at he
      · rw [hus, ← List.append_assoc, ← List.map_append] at ho
        obtain rfl : e' = e := by simpa [ho] using he
        refine ⟨htok, ?_⟩
        have hread := ReadsTo.of_steps (hs.trans (hsteps.setHalted l₀.halted)) ho
        have hlen := congrArg List.length ho
        simp only [List.length_append, List.length_map, List.length_singleton] at hlen
        rwa [List.length_append, show ts.length + us.length = l₀.outcomes.length - 1 by omega]
          at hread
  | finished hs ho hlast hu hc hoff =>
      rw [ho, List.getLast?_map, hlast] at he
      simp at he

end Stands

/-- After any mixture of calls on a fresh lexer, with any dictionary and any forms, all ways of
reading on agree. -/
theorem agrees_after (s : Source) (d : Dictionary) (f : Forms) (calls : List Call) :
    ∃ k, Agrees (fresh s d f) calls k := by
  obtain ⟨ts, h⟩ := exists_stands_after (fresh s d f) calls
  have hhalted : ((fresh s d f).after calls).halted = true ↔ Ended (fresh s d f) calls := by
    rw [halted_after]
    simp [fresh]
  refine ⟨ts.length, h.readsTo, h.next_eq, ?_, ?_, ?_, ?_⟩
  · rw [← hhalted, pull_fst]
    split <;> simp_all
  · intro hopen
    rw [← hhalted] at hopen
    rw [pull_fst, if_neg hopen, h.next_eq]
  · intro t ht
    exact h.tokenize_finish ht
  · intro e he
    exact h.tokenize_failure he

end SqlLexis.Lexer
