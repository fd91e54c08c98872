import SqlLexis.Proofs.Calls

/-!
# The state of a lexer

What holds of a lexer after any sequence of calls, for any dictionary and any optional forms,
also those that no named dialect has. The position stays inside the text and is where the
token last read stops; it never goes back, and a token other than the end moves it on; the
end is read at the end of the text and then for ever; a failure changes nothing.

Two loops have to come to an end for this, the one over tokens and the one over hints and
comments. `Passes` and `Steps` count their rounds.
-/

namespace SqlLexis

/-! ## The loops of a gap -/

/-- The loop "while `opens`, `skip`, then `blanks`", started at `n`, ends with `r` after `k`
rounds. -/
inductive Passes (opens : Nat → Bool) (skip : Nat → Except LexicalError Nat)
    (blanks : Nat → Nat) : Nat → Nat → Except LexicalError Nat → Prop
  | done {n : Nat} : opens n = false → Passes opens skip blanks n 0 (.ok n)
  | fail {n : Nat} {e : LexicalError} : opens n = true → skip n = .error e →
      Passes opens skip blanks n 1 (.error e)
  | pass {n m k : Nat} {r : Except LexicalError Nat} : opens n = true → skip n = .ok m →
      Passes opens skip blanks (blanks m) k r → Passes opens skip blanks n (k + 1) r

/-- A loop ends in one way. -/
theorem Passes.unique {opens : Nat → Bool} {skip : Nat → Except LexicalError Nat}
    {blanks : Nat → Nat} {n k k' : Nat} {r r' : Except LexicalError Nat}
    (h : Passes opens skip blanks n k r) (h' : Passes opens skip blanks n k' r') : r = r' := by
  induction h generalizing k' with
  | done hn =>
      cases h' with
      | done => rfl
      | fail ho _ => exact absurd ho (by simp [hn])
      | pass ho _ _ => exact absurd ho (by simp [hn])
  | fail ho hs =>
      cases h' with
      | done hn => exact absurd ho (by simp [hn])
      | fail _ hs' => exact hs.symm.trans hs'
      | pass _ hs' _ => exact absurd (hs.symm.trans hs') (by simp)
  | pass ho hs _ ih =>
      cases h' with
      | done hn => exact absurd ho (by simp [hn])
      | fail _ hs' => exact absurd (hs.symm.trans hs') (by simp)
      | pass _ hs' hp =>
          obtain rfl := Except.ok.inj (hs.symm.trans hs')
          exact ih hp

/-- Skipping a gap from `n`, as the two loops that it is: the hints, then, unless they fail,
the comments. It ends with `r` after `k` rounds in all. -/
inductive GapLoops (s : Source) (f : Forms) (n : Nat) : Nat → Except LexicalError Nat → Prop
  | hints {i : Nat} {e : LexicalError} :
      Passes (f.beginsHint s) s.skipHint s.skipBlanks (s.skipBlanks n) i (.error e) →
      GapLoops s f n i (.error e)
  | comments {i j m : Nat} {r : Except LexicalError Nat} :
      Passes (f.beginsHint s) s.skipHint s.skipBlanks (s.skipBlanks n) i (.ok m) →
      Passes (s.beginsComment f) s.skipComment s.skipBlanks m j r →
      GapLoops s f n (i + j) r

namespace Source

variable {s : Source} {d : Dictionary} {f : Forms} {n m : Nat} {t : Token}

theorem skipBlanks_le (h : n ≤ s.length) : s.skipBlanks n ≤ s.length := by
  have hrun := runLength_le isBlank (s.rest n)
  have hl := s.length_rest n
  simp only [skipBlanks]
  omega

/-- A loop whose rounds move on ends inside the text, after at most as many rounds as there
are characters left, and one more if it fails. -/
theorem passes_bounds {opens : Nat → Bool} {skip : Nat → Except LexicalError Nat} {k : Nat}
    {r : Except LexicalError Nat}
    (hskip : ∀ n m, opens n = true → skip n = .ok m → n < m ∧ m ≤ s.length)
    (h : Passes opens skip s.skipBlanks n k r) (hn : n ≤ s.length) :
    k ≤ s.length - n + 1 ∧ ∀ m, r = .ok m → n + k ≤ m ∧ m ≤ s.length := by
  induction h with
  | done _ =>
      refine ⟨Nat.zero_le _, ?_⟩
      rintro m hm
      obtain rfl := Except.ok.inj hm
      exact ⟨Nat.le_refl _, hn⟩
  | fail _ _ =>
      refine ⟨by omega, ?_⟩
      intro m hm
      exact absurd hm (by simp)
  | @pass n m k r ho hs _ ih =>
      obtain ⟨hlt, hle⟩ := hskip n m ho hs
      have hb := s.le_skipBlanks m
      obtain ⟨hk, hok⟩ := ih (skipBlanks_le hle)
      refine ⟨by omega, ?_⟩
      intro q hq
      obtain ⟨h1, h2⟩ := hok q hq
      exact ⟨by omega, h2⟩

theorem exists_passes_skipHints (s : Source) (f : Forms) (n : Nat) :
    ∃ k, Passes (f.beginsHint s) s.skipHint s.skipBlanks n k (s.skipHints f n) := by
  fun_induction skipHints s f n with
  | case1 n hb m hm _ _ ih =>
      obtain ⟨k, hk⟩ := ih
      exact ⟨k + 1, .pass hb hm hk⟩
  | case2 n hb e he => exact ⟨1, .fail hb he⟩
  | case3 n hb => exact ⟨0, .done (by simpa using hb)⟩

theorem exists_passes_skipComments (s : Source) (f : Forms) (n : Nat) :
    ∃ k, Passes (s.beginsComment f) s.skipComment s.skipBlanks n k (s.skipComments f n) := by
  fun_induction skipComments s f n with
  | case1 n hb m hm _ _ ih =>
      obtain ⟨k, hk⟩ := ih
      exact ⟨k + 1, .pass hb hm hk⟩
  | case2 n hb e he => exact ⟨1, .fail hb he⟩
  | case3 n hb => exact ⟨0, .done (by simpa using hb)⟩

/-- Skipping comes to an end inside the text, after a bounded number of rounds. -/
theorem exists_gapLoops (f : Forms) (hn : n ≤ s.length) :
    ∃ k ≤ s.length - n + 1, GapLoops s f n k (s.skipGap f n) ∧
      ∀ m, s.skipGap f n = .ok m → n ≤ m ∧ m ≤ s.length := by
  have hb := s.le_skipBlanks n
  obtain ⟨i, hi⟩ := s.exists_passes_skipHints f (s.skipBlanks n)
  obtain ⟨hik, hiok⟩ := passes_bounds (fun _ _ _ h => skipBlock_bounds h) hi (skipBlanks_le hn)
  rw [skipGap]
  cases hh : s.skipHints f (s.skipBlanks n) with
  | error e =>
      rw [hh] at hi
      refine ⟨i, by omega, .hints hi, ?_⟩
      intro m hm
      exact absurd hm (by simp)
  | ok q =>
      rw [hh] at hi
      obtain ⟨hq1, hq2⟩ := hiok q hh
      obtain ⟨j, hj⟩ := s.exists_passes_skipComments f q
      obtain ⟨hjk, hjok⟩ := passes_bounds (fun _ _ => skipComment_bounds) hj hq2
      refine ⟨i + j, by omega, .comments hi hj, ?_⟩
      intro m hm
      obtain ⟨h1, h2⟩ := hjok m hm
      exact ⟨by omega, h2⟩

/-! ## The classes of scanned tokens -/

theorem kind_scanChars (h : s.scanChars n = .ok t) : t.kind = .chars := by
  unfold scanChars at h
  simp only at h
  split at h
  · rw [← Except.ok.inj h]
  · exact absurd h (by simp)

theorem kind_scanName (h : s.scanName d n = .ok t) : t.kind ≠ .error ∧ t.kind ≠ .finish := by
  unfold scanName at h
  split at h
  · split at h
    · rw [← Except.ok.inj h]
      simp [cut]
    · exact absurd h (by simp)
  · rw [← Except.ok.inj h]
    simp only [cut, Dictionary.classify]
    split <;> simp

theorem kind_scanHex (h : s.scanHex n = .ok t) : t.kind = .hex := by
  unfold scanHex at h
  simp only at h
  split at h
  · exact absurd h (by simp)
  · rw [← Except.ok.inj h]
    rfl

theorem kind_scanNumber (s : Source) (n : Nat) :
    (s.scanNumber n).kind = .float ∨ (s.scanNumber n).kind = .int := by
  simp only [scanNumber, cut]
  split
  · exact Or.inl rfl
  · exact Or.inr rfl

theorem kind_scanSymbol (s : Source) (n : Nat) : (s.scanSymbol n).kind ≠ .finish := by
  simp only [scanSymbol]
  split <;> simp [cut]

/-- No token is an error, and the end is only read where the text ends. -/
theorem kind_scanToken (h : s.scanToken d f n = .ok t) :
    t.kind ≠ .error ∧ (t.kind = .finish → s.length ≤ n ∧ t = ⟨.finish, [], n⟩) := by
  unfold scanToken at h
  simp only at h
  split at h
  · rw [← Except.ok.inj h]
    simp [scanVariable, cut]
  split at h
  · simp [kind_scanChars h]
  split at h
  · have hk := kind_scanName h
    exact ⟨hk.1, fun hf => absurd hf hk.2⟩
  split at h
  · simp [kind_scanHex h]
  split at h
  · rw [← Except.ok.inj h]
    rcases kind_scanNumber s n with hk | hk <;> simp [hk]
  split at h
  · split at h
    · exact absurd h (by simp)
    · next he =>
        rw [← Except.ok.inj h]
        exact ⟨he, fun hf => absurd hf (kind_scanSymbol s n)⟩
  split at h
  · simp [kind_scanChars h]
  split at h
  · next hend =>
      rw [← Except.ok.inj h]
      exact ⟨by simp, fun _ => ⟨hend, rfl⟩⟩
  · exact absurd h (by simp)

end Source

namespace Lexer

/-! ## The invariant -/

/-- The position is inside the text and is where the token last read stops. The end is read
at the end of the text, and nothing that was read is an error. -/
structure Sound (l : Lexer) : Prop where
  offset_le : l.offset ≤ l.source.length
  offset_eq : l.offset = l.current.elim 0 Token.stop
  finish : ∀ t, l.current = some t → t.kind = .finish → t.stop = l.source.length
  error : ∀ t, l.current = some t → t.kind ≠ .error

theorem sound_fresh (s : Source) (d : Dictionary) (f : Forms) : (fresh s d f).Sound where
  offset_le := Nat.zero_le _
  offset_eq := rfl
  finish _ h := by simp [fresh] at h
  error _ h := by simp [fresh] at h

variable {l l' : Lexer} {t : Token} {e : LexicalError}

theorem scan_finish (hl : l.Sound) (h : l.scan = .ok t) :
    t.kind ≠ .error ∧ (t.kind = .finish → t.stop = l.source.length) := by
  unfold scan at h
  split at h
  · next n hn =>
      obtain ⟨k, -, -, hbounds⟩ := Source.exists_gapLoops l.forms hl.offset_le
      obtain ⟨herror, hfinish⟩ := Source.kind_scanToken h
      refine ⟨herror, ?_⟩
      intro hk
      have h1 := hbounds n hn
      obtain ⟨h2, rfl⟩ := hfinish hk
      exact Nat.le_antisymm h1.2 h2
  · exact absurd h (by simp)

/-- What comes up is the end only at the end of the text. -/
theorem upcoming_finish (hl : l.Sound) (h : l.upcoming = .ok t) :
    t.kind ≠ .error ∧ (t.kind = .finish → t.stop = l.source.length) := by
  unfold upcoming at h
  split at h
  · next u hu =>
      split at h
      · obtain rfl := Except.ok.inj h
        exact ⟨hl.error _ hu, hl.finish _ hu⟩
      · exact scan_finish hl h
  · exact scan_finish hl h

/-- Moving past a token keeps the invariant, and does not go back. -/
theorem Sound.advance (hl : l.Sound) (h : l.upcoming = .ok t) :
    (l.advance t).Sound ∧ l.offset ≤ (l.advance t).offset := by
  obtain ⟨herror, hfinish⟩ := upcoming_finish hl h
  have hstop : l.offset ≤ t.stop ∧ t.stop ≤ l.source.length := by
    by_cases ht : t.kind = .finish
    · rw [hfinish ht]
      exact ⟨hl.offset_le, Nat.le_refl _⟩
    · have hb := upcoming_bounds h ht
      omega
  refine ⟨⟨hstop.2, rfl, ?_, ?_⟩, hstop.1⟩
  · intro u hu hk
    obtain rfl : t = u := Option.some.inj hu
    exact hfinish hk
  · intro u hu
    obtain rfl : t = u := Option.some.inj hu
    exact herror

theorem Sound.setHalted (hl : l.Sound) (b : Bool) : Sound { l with halted := b } :=
  ⟨hl.offset_le, hl.offset_eq, hl.finish, hl.error⟩

theorem Sound.after (hl : l.Sound) (calls : List Call) : (l.after calls).Sound :=
  after_induction (P := Sound) (fun _ _ h hu => (h.advance hu).1) (fun _ b h => h.setHalted b)
    hl calls

/-- No call goes back. -/
theorem Sound.offset_le_perform (hl : l.Sound) (c : Call) : l.offset ≤ (c.perform l).offset := by
  have h := Call.perform_induction (P := fun l' => l'.Sound ∧ l.offset ≤ l'.offset)
    (fun l' t h hu => ⟨(h.1.advance hu).1, Nat.le_trans h.2 (h.1.advance hu).2⟩)
    (fun l' b h => ⟨h.1.setHalted b, h.2⟩) ⟨hl, Nat.le_refl _⟩ c
  exact h.2

/-- No call changes what is read. -/
theorem after_input (l : Lexer) (calls : List Call) :
    (l.after calls).source = l.source ∧ (l.after calls).dictionary = l.dictionary ∧
      (l.after calls).forms = l.forms :=
  after_induction (P := fun l' => l'.source = l.source ∧ l'.dictionary = l.dictionary ∧
    l'.forms = l.forms) (fun _ _ h _ => h) (fun _ _ h => h) ⟨rfl, rfl, rfl⟩ calls

/-! ## After the end -/

theorem upcoming_of_finish (h : l.current = some t) (ht : t.kind = .finish) :
    l.upcoming = .ok t := by
  rw [upcoming, h]
  exact if_pos ht

/-- Once the end has been read, no call changes the position or the token last read. -/
theorem after_finish (hc : l.current = some t) (ho : l.offset = t.stop) (ht : t.kind = .finish)
    (calls : List Call) :
    (l.after calls).current = some t ∧ (l.after calls).offset = t.stop := by
  refine after_induction (P := fun l => l.current = some t ∧ l.offset = t.stop) ?_ ?_ ⟨hc, ho⟩
    calls
  · rintro l u ⟨h, -⟩ hu
    obtain rfl : t = u := Except.ok.inj ((upcoming_of_finish h ht).symm.trans hu)
    exact ⟨rfl, rfl⟩
  · rintro l b h
    exact h

theorem next_after_finish (hc : l.current = some t) (ho : l.offset = t.stop)
    (ht : t.kind = .finish) : l.next = (.ok t, l) := by
  rw [next_of_ok (upcoming_of_finish hc ht), advance, ← hc, ← ho]

/-! ## The loop over tokens -/

/-- `m` is the lexer after readings that gave `ts`, one after the other. -/
inductive Steps : Lexer → List Token → Lexer → Prop
  | nil {l : Lexer} : Steps l [] l
  | cons {l l₁ m : Lexer} {t : Token} {ts : List Token} : l.next = (.ok t, l₁) →
      Steps l₁ ts m → Steps l (t :: ts) m

/-- Tokenizing is reading until the first end or failure, one character at least being passed
at each reading but the last. -/
theorem tokenize_steps (l : Lexer) :
    ∃ ts m o l', Steps l ts m ∧ m.next = (o, l') ∧ isLast o = true ∧
      (∀ t ∈ ts, t.kind ≠ .finish) ∧ ts.length ≤ l.source.length - l.offset ∧
      l.tokenize = (o.map fun t => ts ++ [t], l') := by
  induction l using run_induction with
  | error l e hu =>
      refine ⟨[], l, .error e, l, .nil, next_of_error hu, rfl, by simp, Nat.zero_le _, ?_⟩
      rw [tokenize, run_of_error hu]
      rfl
  | finish l t hu ht =>
      refine ⟨[], l, .ok t, l.advance t, .nil, next_of_ok hu, ?_, by simp, Nat.zero_le _, ?_⟩
      · exact TokenKind.isFinish_iff.mpr ht
      · rw [tokenize, run_of_finish hu ht]
        rfl
  | token l t hu ht ih =>
      obtain ⟨ts, m, o, l', hsteps, hnext, hlast, hne, hlen, htok⟩ := ih
      refine ⟨t :: ts, m, o, l', .cons (next_of_ok hu) hsteps, hnext, hlast, ?_, ?_, ?_⟩
      · intro u hu'
        rcases List.mem_cons.mp hu' with rfl | hu'
        · exact ht
        · exact hne u hu'
      · have hb := upcoming_bounds hu ht
        have hlen' : ts.length ≤ l.source.length - t.stop := hlen
        simp only [List.length_cons]
        omega
      · rw [tokenize] at htok ⊢
        simp only [run_of_token hu ht]
        cases hf : (l.advance t).run.fault with
        | none =>
            rw [hf] at htok
            cases o with
            | error e => exact absurd (Prod.mk.inj htok).1 (by simp [Except.map])
            | ok u =>
                obtain ⟨h1, h2⟩ := Prod.mk.inj htok
                rw [Except.ok.inj h1, h2]
                rfl
        | some e =>
            rw [hf] at htok
            cases o with
            | error e' => exact htok
            | ok u => exact absurd (Prod.mk.inj htok).1 (by simp [Except.map])

/-! ## What calls return -/

theorem Sound.run_tokens (hl : l.Sound) : ∀ t ∈ l.run.tokens,
    t.kind ≠ .error ∧ (t.kind = .finish → t.stop = l.source.length) := by
  induction l using run_induction with
  | error l e hu => simp [run_of_error hu]
  | finish l t hu ht =>
      intro u hmem
      rw [run_of_finish hu ht] at hmem
      obtain rfl := List.mem_singleton.mp hmem
      exact upcoming_finish hl hu
  | token l t hu ht ih =>
      intro u hmem
      rw [run_of_token hu ht] at hmem
      rcases List.mem_cons.mp hmem with rfl | hmem
      · exact upcoming_finish hl hu
      · exact ih (hl.advance hu).1 u hmem

/-- A call that returns a token returns the one that comes up, or those read to the end. -/
theorem Call.mem_returned {c : Call} (h : t ∈ c.returned l) :
    (l.upcoming = .ok t ∧ ∃ b, c.perform l = { l.advance t with halted := b }) ∨
      (t ∈ l.run.tokens ∧ l.run.fault = none ∧ c.perform l = l.run.lexer) := by
  have hnext : ∀ u, l.next.1 = .ok u → l.upcoming = .ok u ∧ l.next.2 = l.advance u := by
    intro u hu
    exact upcoming_of_next_ok (Prod.ext hu rfl)
  cases c with
  | next =>
      simp only [returned] at h
      split at h
      · next u hu =>
          obtain rfl := List.mem_singleton.mp h
          obtain ⟨hup, hadv⟩ := hnext t hu
          exact Or.inl ⟨hup, l.halted, hadv⟩
      · simp at h
  | pull =>
      simp only [returned] at h
      split at h
      · next u hu =>
          obtain rfl := List.mem_singleton.mp h
          rw [Lexer.pull] at hu
          split at hu
          · exact absurd hu (by simp)
          · next hh =>
              obtain ⟨hup, hadv⟩ := hnext t (Option.some.inj hu)
              refine Or.inl ⟨hup, isLast l.next.1, ?_⟩
              rw [perform, pull_snd, if_neg hh, hadv]
      · simp at h
  | tokenize =>
      simp only [returned, Lexer.tokenize] at h
      cases hf : l.run.fault with
      | none =>
          rw [hf] at h
          exact Or.inr ⟨h, rfl, tokenize_snd l⟩
      | some e =>
          rw [hf] at h
          simp at h

/-- A token that a call returns has come up where `P` holds. -/
theorem Call.returned_origin {P : Lexer → Prop}
    (step : ∀ l t, P l → l.upcoming = .ok t → P (l.advance t)) {c : Call} (hl : P l)
    (h : t ∈ c.returned l) : ∃ m, P m ∧ m.upcoming = .ok t := by
  rcases mem_returned h with ⟨hu, -⟩ | ⟨hmem, -⟩
  · exact ⟨l, hl, hu⟩
  · exact (run_origin step hl).1 t hmem

/-- Reading that comes to the end leaves the lexer there. -/
theorem run_finish (hf : l.run.fault = none) (hmem : t ∈ l.run.tokens) (ht : t.kind = .finish) :
    l.run.lexer.current = some t ∧ l.run.lexer.offset = t.stop := by
  induction l using run_induction with
  | error l e hu => simp [run_of_error hu] at hf
  | finish l u hu hk =>
      rw [run_of_finish hu hk] at hmem ⊢
      obtain rfl := List.mem_singleton.mp hmem
      exact ⟨rfl, rfl⟩
  | token l u hu hk ih =>
      rw [run_of_token hu hk] at hf hmem ⊢
      rcases List.mem_cons.mp hmem with rfl | hmem
      · exact absurd ht hk
      · exact ih hf hmem

theorem Call.finish_returned {c : Call} (h : t ∈ c.returned l) (ht : t.kind = .finish) :
    (c.perform l).current = some t ∧ (c.perform l).offset = t.stop := by
  rcases mem_returned h with ⟨-, b, hb⟩ | ⟨hmem, hf, hlexer⟩
  · rw [hb]
    exact ⟨rfl, rfl⟩
  · rw [hlexer]
    exact run_finish hf hmem ht

theorem Sound.returned (hl : l.Sound) (c : Call) : ∀ t ∈ c.returned l,
    t.kind ≠ .error ∧ (t.kind = .finish → t.stop = l.source.length) := by
  intro t ht
  rcases Call.mem_returned ht with ⟨hu, -⟩ | ⟨hmem, -⟩
  · exact upcoming_finish hl hu
  · exact hl.run_tokens t hmem

/-! ## Everything that holds between calls -/

/-- What a user of a lexer for the text `s` can rely on in its present state. -/
structure WellBehaved (s : Source) (d : Dictionary) (f : Forms) (l : Lexer) : Prop where
  /-- The text, the dictionary and the forms are those the lexer was made with. -/
  input : l.source = s ∧ l.dictionary = d ∧ l.forms = f
  /-- The position is inside the text. -/
  offset_le : l.offset ≤ s.length
  /-- The position is where the token last read stops, or the start. -/
  offset_eq : l.offset = l.current.elim 0 Token.stop
  /-- No call goes back. -/
  monotone : ∀ c : Call, l.offset ≤ (c.perform l).offset
  /-- A token other than the end moves the position on. -/
  progress : ∀ t l', l.next = (.ok t, l') → t.kind ≠ .finish → l.offset < l'.offset
  /-- A call returns the end only at the end of the text. Whatever is called afterwards, the
  next reading gives it again and changes nothing. -/
  finish : ∀ c : Call, ∀ t ∈ c.returned l, t.kind = .finish →
    t.stop = s.length ∧ ∀ calls : List Call,
      ((c.perform l).after calls).next = (.ok t, (c.perform l).after calls) ∧
      ((c.perform l).after calls).offset = t.stop ∧
      ((c.perform l).after calls).current = some t
  /-- A failure changes nothing, so that it is met again. -/
  failure : ∀ e l', l.next = (.error e, l') → l' = l ∧ l'.next = (.error e, l')
  /-- No call returns an error as a token. -/
  returned : ∀ c : Call, ∀ t ∈ c.returned l, t.kind ≠ .error
  /-- Skipping a gap comes to an end after a bounded number of rounds. -/
  skips : ∃ k ≤ s.length - l.offset + 1, GapLoops s f l.offset k (s.skipGap f l.offset)
  /-- Tokenizing comes to an end: it is a bounded number of readings, of which the last gives
  the end or fails. -/
  tokenizes : ∃ ts m o l', Steps l ts m ∧ m.next = (o, l') ∧ isLast o = true ∧
    (∀ t ∈ ts, t.kind ≠ .finish) ∧ ts.length + 1 ≤ s.length - l.offset + 1 ∧
    l.tokenize = (o.map fun t => ts ++ [t], l')

/-- After any calls on a fresh lexer, with any dictionary and any forms, the lexer behaves. Any hint
matcher will do, and any matcher of variables that answers yes only inside the text. -/
theorem wellBehaved_after (s : Source) (d : Dictionary) (f : Forms) (calls : List Call) :
    ((fresh s d f).after calls).WellBehaved s d f := by
  have hl := (sound_fresh s d f).after calls
  have hinput := after_input (fresh s d f) calls
  generalize (fresh s d f).after calls = l at hl hinput
  obtain ⟨rfl, rfl, rfl⟩ : l.source = s ∧ l.dictionary = d ∧ l.forms = f := hinput
  constructor
  · exact ⟨rfl, rfl, rfl⟩
  · exact hl.offset_le
  · exact hl.offset_eq
  · exact hl.offset_le_perform
  · intro t l' h ht
    obtain ⟨hu, rfl⟩ := upcoming_of_next_ok h
    exact (upcoming_bounds hu ht).1
  · intro c t hmem ht
    refine ⟨(hl.returned c t hmem).2 ht, ?_⟩
    intro calls
    obtain ⟨hcur, hoff⟩ := Call.finish_returned hmem ht
    obtain ⟨hc, ho⟩ := after_finish hcur hoff ht calls
    exact ⟨next_after_finish hc ho ht, ho, hc⟩
  · intro e l' h
    obtain ⟨hu, rfl⟩ := upcoming_of_next_error h
    exact ⟨rfl, h⟩
  · intro c t hmem
    exact (hl.returned c t hmem).1
  · obtain ⟨k, hk, hloops, -⟩ := Source.exists_gapLoops l.forms hl.offset_le
    exact ⟨k, hk, hloops⟩
  · obtain ⟨ts, m, o, l', hsteps, hnext, hlast, hne, hlen, htok⟩ := tokenize_steps l
    exact ⟨ts, m, o, l', hsteps, hnext, hlast, hne, Nat.succ_le_succ hlen, htok⟩

end Lexer

end SqlLexis
