import SqlLexis.Proofs.Position

/-!
# The grammar of gaps

What may stand between two tokens, said without a scanner: blanks, block comments closed
at their first closing mark, and line comments that run up to a line feed or to the end of
the text. `Gap f g r` says that `g` is such a text when `r` follows it.

Passing over a gap runs two loops in sequence, one for hints and one for comments. With
built-in hints this does not show: `skipGap_of_gap` and `skipGap_of_open` say where skipping
ends in terms of the grammar alone, and `exists_gap` says that one of the two always applies.
-/

namespace SqlLexis

open Source

/-! ## The grammar -/

/-- What opens a line comment. -/
def Forms.lineOpeners (f : Forms) : List (List Char) :=
  [['/', '/'], ['-', '-']] ++ if f.hashComment then [['#']] else []

/-- A line ends here: at a line feed or at the end of the text. -/
def LineEnd (cs : List Char) : Prop := ∀ c ∈ cs.head?, c = '\n'

/-- `g` is made of blanks and comments only, when `r` is what follows it. -/
inductive Gap (f : Forms) : List Char → List Char → Prop
  | nil {r : List Char} : Gap f [] r
  | blank {c : Char} {g r : List Char} : isBlank c = true → Gap f g r → Gap f (c :: g) r
  | block {body g r : List Char} : ¬ ['*', '/'] <:+: body ++ ['*'] → Gap f g r →
      Gap f (['/', '*'] ++ body ++ ['*', '/'] ++ g) r
  | line {o body g r : List Char} : o ∈ f.lineOpeners → '\n' ∉ body → LineEnd (g ++ r) →
      Gap f g r → Gap f (o ++ body ++ g) r

/-- No gap begins with `cs`: neither a blank nor a comment. -/
structure Settled (f : Forms) (cs : List Char) : Prop where
  blank : isBlank (peek cs) = false
  block : ¬ ['/', '*'] <+: cs
  line : ∀ o ∈ f.lineOpeners, ¬ o <+: cs

namespace Gap

variable {f : Forms}

theorem append {g h r : List Char} (hg : Gap f g (h ++ r)) (hh : Gap f h r) :
    Gap f (g ++ h) r := by
  generalize hu : h ++ r = u at hg
  induction hg with
  | nil => exact hh
  | blank hc _ ih => exact .blank hc (ih hu)
  | block hb _ ih =>
      rw [List.append_assoc _ _ h]
      exact .block hb (ih hu)
  | line ho hb he _ ih =>
      rw [List.append_assoc _ _ h]
      refine .line ho hb ?_ (ih hu)
      rw [List.append_assoc, hu]
      exact he

/-- What follows a gap only matters to a line comment at its end. -/
theorem change_rest {g r r' : List Char} (hg : Gap f g r) (h : LineEnd r → LineEnd r') :
    Gap f g r' := by
  induction hg with
  | nil => exact .nil
  | blank hc _ ih => exact .blank hc (ih h)
  | block hb _ ih => exact .block hb (ih h)
  | @line o body g r ho hb he _ ih =>
      refine .line ho hb ?_ (ih h)
      cases g with
      | nil => exact h he
      | cons c g => exact he

end Gap

/-! ## Closing a block -/

theorem closeBlock_of_first {body r : List Char} (h : ¬ ['*', '/'] <:+: body ++ ['*']) :
    closeBlock (body ++ '*' :: '/' :: r) = some (body.length + 2) := by
  induction body with
  | nil => rfl
  | cons c body ih =>
      have hb : ¬ ['*', '/'] <:+: body ++ ['*'] := fun hi => h (List.infix_cons hi)
      have hnotAtFront : ∀ u, c = '*' → body ++ '*' :: '/' :: r = '/' :: u → False := by
        rintro u rfl hu
        cases body with
        | nil => simp at hu
        | cons d body =>
            obtain ⟨rfl, -⟩ := List.cons.inj hu
            exact h ⟨[], body ++ ['*'], rfl⟩
      rw [List.cons_append, closeBlock]
      · rw [ih hb]
        rfl
      · exact hnotAtFront

theorem closeBlock_eq_some {cs : List Char} {k : Nat} (h : closeBlock cs = some k) :
    ∃ body r, cs = body ++ '*' :: '/' :: r ∧ k = body.length + 2 ∧
      ¬ ['*', '/'] <:+: body ++ ['*'] := by
  fun_induction closeBlock cs generalizing k with
  | case1 => simp at h
  | case2 cs =>
      obtain rfl : 2 = k := by simpa using h
      refine ⟨[], cs, rfl, rfl, ?_⟩
      intro hi
      have := hi.length_le
      simp at this
  | case3 c cs hne ih =>
      obtain ⟨j, hj, rfl⟩ := Option.map_eq_some_iff.mp h
      obtain ⟨body, r, rfl, rfl, hb⟩ := ih hj
      refine ⟨c :: body, r, rfl, rfl, ?_⟩
      intro hi
      rcases List.infix_cons_iff.mp hi with hp | hi
      · cases body with
        | nil => simp at hp
        | cons d body =>
            obtain ⟨rfl, rfl⟩ : '*' = c ∧ '/' = d := by simpa using hp
            exact hne _ rfl rfl
      · exact hb hi

theorem closeBlock_eq_none_iff {cs : List Char} :
    closeBlock cs = none ↔ ¬ ['*', '/'] <:+: cs := by
  fun_induction closeBlock cs with
  | case1 => simp
  | case2 cs => simpa using ⟨[], cs, rfl⟩
  | case3 c cs hne ih =>
      rw [Option.map_eq_none_iff, ih, not_iff_not, List.infix_cons_iff]
      constructor
      · exact Or.inr
      · rintro (hp | hi)
        · obtain ⟨u, hu⟩ := hp
          obtain ⟨rfl, rfl⟩ := List.cons.inj hu
          exact (hne u rfl rfl).elim
        · exact hi

/-! ## Where a comment begins -/

theorem Source.beginsComment_iff {s : Source} {f : Forms} {n : Nat} :
    s.beginsComment f n = true ↔
      ['/', '*'] <+: s.rest n ∨ ∃ o ∈ f.lineOpeners, o <+: s.rest n := by
  rw [beginsComment, rest_add, Forms.lineOpeners]
  rcases s.rest n with - | ⟨c, - | ⟨d, r⟩⟩
  · cases f.hashComment <;> simp [endOfInput]
  · cases f.hashComment <;> simp [endOfInput, eq_comm (a := '#')]
  · simp only [peek_cons, List.drop_succ_cons, List.drop_zero]
    split
    · simp
    · simp
    · simp
    · next h1 h2 h3 =>
        have hnoOpener : ∀ a b : Char, (c = a → d = b → False) → ¬ [a, b] <+: c :: d :: r := by
          intro a b hne hp
          obtain ⟨rfl, rfl⟩ : a = c ∧ b = d := by simpa using hp
          exact hne rfl rfl
        cases f.hashComment <;>
          simp [hnoOpener _ _ h1, hnoOpener _ _ h2, hnoOpener _ _ h3, eq_comm (a := '#')]

theorem Settled.beginsComment {s : Source} {f : Forms} {n : Nat} (h : Settled f (s.rest n)) :
    s.beginsComment f n = false := by
  rw [← Bool.not_eq_true, beginsComment_iff]
  rintro (hb | ⟨o, ho, hl⟩)
  · exact h.block hb
  · exact h.line o ho hl

theorem skipBlanks_of_not_blank {s : Source} {n : Nat} (h : isBlank (peek (s.rest n)) = false) :
    s.skipBlanks n = n := by
  have hrun := runLength_append (p := isBlank) (l := []) (r := s.rest n) (by simp) h
  simpa [skipBlanks] using hrun

theorem skipBlanks_of_blank {s : Source} {n : Nat} {c : Char} {r : List Char}
    (h : s.rest n = c :: r) (hc : isBlank c = true) : s.skipBlanks n = s.skipBlanks (n + 1) := by
  have hr : s.rest (n + 1) = r := by rw [rest_add, h]; rfl
  simp only [skipBlanks, h, hr, runLength, List.takeWhile_cons_of_pos hc, List.length_cons]
  omega

/-! ## One pass of each loop -/

variable {s : Source} {f : Forms} {n m : Nat} {e : LexicalError}

theorem skipComments_of_ok (hb : s.beginsComment f n = true) (h : s.skipComment n = .ok m) :
    s.skipComments f n = s.skipComments f (s.skipBlanks m) := by
  rw [skipComments, dif_pos hb]
  split
  · next k hk =>
      obtain rfl : k = m := Except.ok.inj (hk.symm.trans h)
      rfl
  · next e he => exact absurd (he.symm.trans h) (by simp)

theorem skipComments_of_error (hb : s.beginsComment f n = true)
    (h : s.skipComment n = .error e) : s.skipComments f n = .error e := by
  rw [skipComments, dif_pos hb]
  split
  · next k hk => exact absurd (hk.symm.trans h) (by simp)
  · next e' he => rw [Except.error.inj (he.symm.trans h)]

theorem skipComments_of_none (hb : s.beginsComment f n = false) :
    s.skipComments f n = .ok n := by
  rw [skipComments, dif_neg (by simp [hb])]

/-! ## Passing over a gap -/

theorem skipComment_of_block {u : List Char} (hr : s.rest n = '/' :: '*' :: u) :
    s.skipComment n = s.skipBlock n .unterminatedComment := by
  have hpeek : peek (s.rest n) = '/' ∧ peek (s.rest (n + 1)) = '*' := by
    rw [rest_add, hr]
    exact ⟨rfl, rfl⟩
  rw [skipComment, if_pos hpeek]

theorem skipBlock_of_first {c : LexicalError.Cause} {body u : List Char}
    (hr : s.rest n = ['/', '*'] ++ body ++ ['*', '/'] ++ u)
    (hb : ¬ ['*', '/'] <:+: body ++ ['*']) :
    s.skipBlock n c = .ok (n + (['/', '*'] ++ body ++ ['*', '/']).length) := by
  have hafter : s.rest (n + 2) = body ++ '*' :: '/' :: u := by
    rw [rest_add, hr]
    simp
  rw [skipBlock, hafter, closeBlock_of_first hb]
  simp only [List.length_append, List.length_cons, List.length_nil]
  congr 1
  omega

theorem skipBlock_of_open {c : LexicalError.Cause} {u : List Char}
    (hr : s.rest n = '/' :: '*' :: u) (hu : ¬ ['*', '/'] <:+: u) :
    s.skipBlock n c = .error (s.fault c n) := by
  have hafter : s.rest (n + 2) = u := by
    rw [rest_add, hr]
    rfl
  rw [skipBlock, hafter, closeBlock_eq_none_iff.mpr hu]

theorem mem_lineOpeners {o : List Char} (ho : o ∈ f.lineOpeners) :
    o = ['/', '/'] ∨ o = ['-', '-'] ∨ f.hashComment = true ∧ o = ['#'] := by
  cases h : f.hashComment <;> simpa [Forms.lineOpeners, h, or_assoc] using ho

theorem isBlank_of_lineOpener {o : List Char} (ho : o ∈ f.lineOpeners) (u : List Char) :
    isBlank (peek (o ++ u)) = false := by
  rcases mem_lineOpeners ho with rfl | rfl | ⟨-, rfl⟩ <;> rfl

theorem skipComment_of_line {o body u : List Char} (ho : o ∈ f.lineOpeners)
    (hr : s.rest n = o ++ body ++ u) (hb : '\n' ∉ body) (hu : LineEnd u) :
    s.skipComment n = .ok (n + (o ++ body).length) := by
  have hopen : ¬ (peek (s.rest n) = '/' ∧ peek (s.rest (n + 1)) = '*') ∧
      ∀ c ∈ o, (c != '\n') = true := by
    rw [rest_add, hr]
    rcases mem_lineOpeners ho with rfl | rfl | ⟨-, rfl⟩ <;> simp
  have hline : ∀ c ∈ o ++ body, (c != '\n') = true := by
    intro c hc
    rcases List.mem_append.mp hc with hc | hc
    · exact hopen.2 c hc
    · have hne : c ≠ '\n' := fun h => hb (h ▸ hc)
      simpa using hne
  have hrun : runLength (· != '\n') (s.rest n) = (o ++ body).length := by
    rw [hr, runLength, List.takeWhile_append_of_pos hline]
    cases u with
    | nil => simp
    | cons c u =>
        obtain rfl : c = '\n' := hu c rfl
        simp
  rw [skipComment, if_neg hopen.1, skipLine, hrun]

/-- The comment loop passes over the whole gap. -/
theorem skipComments_of_gap {g r : List Char} (hg : Gap f g r) (hr : s.rest n = g ++ r) :
    s.skipComments f (s.skipBlanks n) = s.skipComments f (s.skipBlanks (n + g.length)) := by
  induction hg generalizing n with
  | nil => rfl
  | @blank c g r hc _ ih =>
      have hr' : s.rest (n + 1) = g ++ r := by
        rw [rest_add, hr]
        rfl
      rw [skipBlanks_of_blank hr hc, ih hr', List.length_cons, Nat.add_right_comm, Nat.add_assoc]
  | @block body g r hb _ ih =>
      have hblock : s.rest n = ['/', '*'] ++ body ++ ['*', '/'] ++ (g ++ r) := by
        rw [hr, List.append_assoc]
      have hbegin : s.beginsComment f n = true :=
        beginsComment_iff.mpr (Or.inl ⟨body ++ ['*', '/'] ++ (g ++ r), by simp [hblock]⟩)
      have hskip := skipComment_of_block (s := s) (n := n) (by rw [hblock]; rfl)
      rw [skipBlock_of_first hblock hb] at hskip
      rw [skipBlanks_of_not_blank (by rw [hblock]; rfl), skipComments_of_ok hbegin hskip,
        ih (rest_of_append hblock), Nat.add_assoc, ← List.length_append]
  | @line o body g r ho hb he _ ih =>
      have hline : s.rest n = o ++ body ++ (g ++ r) := by
        rw [hr, List.append_assoc]
      have hprefix : o <+: s.rest n := ⟨body ++ (g ++ r), by simp [hline]⟩
      have hbegin : s.beginsComment f n = true :=
        beginsComment_iff.mpr (Or.inr ⟨o, ho, hprefix⟩)
      have hblank : isBlank (peek (s.rest n)) = false := by
        obtain ⟨u, hu⟩ := hprefix
        rw [← hu]
        exact isBlank_of_lineOpener ho u
      rw [skipBlanks_of_not_blank hblank,
        skipComments_of_ok hbegin (skipComment_of_line ho hline hb he),
        ih (rest_of_append hline), Nat.add_assoc, ← List.length_append]

/-! ## Hints are blocks

A built-in hint is closed exactly like a block comment, so the hint loop stops nowhere the
comment loop would not have passed. Only the cause of a failure tells the two apart. -/

theorem skipBlock_ok_of_ok {c c' : LexicalError.Cause} (h : s.skipBlock n c = .ok m) :
    s.skipBlock n c' = .ok m := by
  unfold skipBlock at h ⊢
  split at h
  · exact h
  · exact absurd h (by simp)

theorem skipBlock_fault_of_error {c : LexicalError.Cause} (h : s.skipBlock n c = .error e)
    (c' : LexicalError.Cause) :
    e = s.fault c n ∧ s.skipBlock n c' = .error (s.fault c' n) := by
  unfold skipBlock at h ⊢
  split at h
  · exact absurd h (by simp)
  · exact ⟨(Except.error.inj h).symm, rfl⟩

/-- Where a built-in hint begins, so does a comment, and it is skipped as a block. -/
theorem Forms.BuiltIn.comment_of_beginsHint (hf : f.BuiltIn) (h : f.beginsHint s n = true) :
    s.beginsComment f n = true ∧ s.skipComment n = s.skipBlock n .unterminatedComment := by
  have hp := hf.block_of_beginsHint h
  refine ⟨beginsComment_iff.mpr (Or.inl hp), ?_⟩
  obtain ⟨u, hu⟩ := hp
  exact skipComment_of_block hu.symm

theorem skipComments_of_skipHints (hf : f.BuiltIn) (h : s.skipHints f n = .ok m) :
    s.skipComments f m = s.skipComments f n := by
  fun_induction skipHints s f n with
  | case1 n hb k hk _ _ ih =>
      obtain ⟨hbegin, hskip⟩ := hf.comment_of_beginsHint hb
      rw [ih h, skipComments_of_ok hbegin (hskip.trans (skipBlock_ok_of_ok hk))]
  | case2 => simp at h
  | case3 n hb => rw [Except.ok.inj h]

theorem skipComments_of_skipHints_error (hf : f.BuiltIn) (h : s.skipHints f n = .error e) :
    ∃ k, e = s.fault .unterminatedHint k ∧
      s.skipComments f n = .error (s.fault .unterminatedComment k) := by
  fun_induction skipHints s f n with
  | case1 n hb k hk _ _ ih =>
      obtain ⟨hbegin, hskip⟩ := hf.comment_of_beginsHint hb
      rw [skipComments_of_ok hbegin (hskip.trans (skipBlock_ok_of_ok hk))]
      exact ih h
  | case2 n hb e' he =>
      obtain rfl := Except.error.inj h
      obtain ⟨hbegin, hskip⟩ := hf.comment_of_beginsHint hb
      obtain ⟨hfault, hblock⟩ := skipBlock_fault_of_error he .unterminatedComment
      exact ⟨n, hfault, skipComments_of_error hbegin (hskip.trans hblock)⟩
  | case3 n hb => simp at h

/-! ## Where skipping ends -/

/-- Skipping stops right behind a gap that nothing continues. -/
theorem skipGap_of_gap (hf : f.BuiltIn) {g r : List Char} (hr : s.rest n = g ++ r)
    (hg : Gap f g r) (hs : Settled f r) : s.skipGap f n = .ok (n + g.length) := by
  have hrest := rest_of_append hr
  have hs' : Settled f (s.rest (n + g.length)) := by rwa [hrest]
  have hc : s.skipComments f (s.skipBlanks n) = .ok (n + g.length) := by
    rw [skipComments_of_gap hg hr, skipBlanks_of_not_blank hs'.blank,
      skipComments_of_none hs'.beginsComment]
  rw [skipGap]
  split
  · next k hk => rw [skipComments_of_skipHints hf hk, hc]
  · next e he =>
      obtain ⟨k, -, hk⟩ := skipComments_of_skipHints_error hf he
      exact absurd (hk.symm.trans hc) (by simp)

/-- The comment loop fails at the first block that is never closed. -/
theorem skipComments_of_open {g u : List Char} (hr : s.rest n = g ++ '/' :: '*' :: u)
    (hg : Gap f g ('/' :: '*' :: u)) (hu : ¬ ['*', '/'] <:+: u) :
    s.skipComments f (s.skipBlanks n) =
      .error (s.fault .unterminatedComment (n + g.length)) := by
  have hrest := rest_of_append hr
  have hbegin : s.beginsComment f (n + g.length) = true :=
    beginsComment_iff.mpr (Or.inl ⟨u, hrest.symm⟩)
  have hskip := (skipComment_of_block hrest).trans
    (skipBlock_of_open (c := .unterminatedComment) hrest hu)
  rw [skipComments_of_gap hg hr, skipBlanks_of_not_blank (by rw [hrest]; rfl),
    skipComments_of_error hbegin hskip]

/-- Skipping fails at the first block that is never closed. -/
theorem skipGap_of_open (hf : f.BuiltIn) {g u : List Char} (hr : s.rest n = g ++ '/' :: '*' :: u)
    (hg : Gap f g ('/' :: '*' :: u)) (hu : ¬ ['*', '/'] <:+: u) :
    ∃ c, (c = .unterminatedComment ∨ c = .unterminatedHint) ∧
      s.skipGap f n = .error (s.fault c (n + g.length)) := by
  have hc := skipComments_of_open hr hg hu
  rw [skipGap]
  split
  · next k hk =>
      rw [skipComments_of_skipHints hf hk, hc]
      exact ⟨_, Or.inl rfl, rfl⟩
  · next e he =>
      obtain ⟨k, rfl, hk⟩ := skipComments_of_skipHints_error hf he
      have hfault := Except.error.inj (hk.symm.trans hc)
      have hk' : k = n + g.length := congrArg LexicalError.offset hfault
      rw [hk']
      exact ⟨_, Or.inr rfl, rfl⟩

theorem exists_line (u : List Char) :
    ∃ body v, u = body ++ v ∧ '\n' ∉ body ∧ LineEnd v := by
  refine ⟨u.takeWhile (· != '\n'), u.dropWhile (· != '\n'),
    List.takeWhile_append_dropWhile.symm, ?_, ?_⟩
  · intro hmem
    exact absurd (List.mem_takeWhile_imp hmem) (by simp)
  · intro c hc
    have h := List.head?_dropWhile_not (· != '\n') u
    rw [Option.mem_def.mp hc] at h
    simpa using h

/-- Every text begins with a gap that nothing continues, or with one that a block follows
which is never closed. -/
theorem exists_gap (f : Forms) (cs : List Char) :
    ∃ g r, cs = g ++ r ∧ Gap f g r ∧
      (Settled f r ∨ ∃ u, r = '/' :: '*' :: u ∧ ¬ ['*', '/'] <:+: u) := by
  induction hlen : cs.length using Nat.strong_induction_on generalizing cs with
  | _ k ih =>
      subst hlen
      by_cases hblank : isBlank (peek cs) = true
      · cases cs with
        | nil => exact absurd hblank (by simp [isBlank_endOfInput])
        | cons c cs =>
            obtain ⟨g, r, rfl, hg, hend⟩ := ih cs.length (by simp) cs rfl
            exact ⟨c :: g, r, rfl, .blank hblank hg, hend⟩
      by_cases hblock : ['/', '*'] <+: cs
      · obtain ⟨u, rfl⟩ := hblock
        cases hu : closeBlock u with
        | none =>
            exact ⟨[], _, rfl, .nil, Or.inr ⟨u, rfl, closeBlock_eq_none_iff.mp hu⟩⟩
        | some j =>
            obtain ⟨body, v, rfl, -, hb⟩ := closeBlock_eq_some hu
            obtain ⟨g, r, rfl, hg, hend⟩ := ih v.length (by simp; omega) v rfl
            exact ⟨['/', '*'] ++ body ++ ['*', '/'] ++ g, r, by simp, .block hb hg, hend⟩
      by_cases hline : ∃ o ∈ f.lineOpeners, o <+: cs
      · obtain ⟨o, ho, u, rfl⟩ := hline
        have hpos : 0 < o.length := by
          rcases mem_lineOpeners ho with rfl | rfl | ⟨-, rfl⟩ <;> simp
        obtain ⟨body, v, rfl, hb, he⟩ := exists_line u
        obtain ⟨g, r, rfl, hg, hend⟩ := ih v.length (by simp; omega) v rfl
        exact ⟨o ++ body ++ g, r, by simp, .line ho hb he hg, hend⟩
      · refine ⟨[], cs, rfl, .nil, Or.inl ⟨by simpa using hblank, hblock, ?_⟩⟩
        intro o ho hp
        exact hline ⟨o, ho, hp⟩

/-- The two ways in which skipping ends, each with the gap it passed over. -/
theorem skipGap_cases (hf : f.BuiltIn) (s : Source) (n : Nat) :
    (∃ g r, s.rest n = g ++ r ∧ Gap f g r ∧ Settled f r ∧ s.skipGap f n = .ok (n + g.length)) ∨
    ∃ g u c, s.rest n = g ++ '/' :: '*' :: u ∧ Gap f g ('/' :: '*' :: u) ∧
      ¬ ['*', '/'] <:+: u ∧ (c = .unterminatedComment ∨ c = .unterminatedHint) ∧
      s.skipGap f n = .error (s.fault c (n + g.length)) := by
  obtain ⟨g, r, hr, hg, hs | ⟨u, rfl, hu⟩⟩ := exists_gap f (s.rest n)
  · exact Or.inl ⟨g, r, hr, hg, hs, skipGap_of_gap hf hr hg hs⟩
  · obtain ⟨c, hc, hskip⟩ := skipGap_of_open hf hr hg hu
    exact Or.inr ⟨g, u, c, hr, hg, hu, hc, hskip⟩

/-- What was skipped is a gap that nothing continues. -/
theorem gap_of_skipGap {m : Nat} (hf : f.BuiltIn) (h : s.skipGap f n = .ok m) :
    ∃ g r, s.rest n = g ++ r ∧ Gap f g r ∧ Settled f r ∧ n + g.length = m := by
  rcases skipGap_cases hf s n with ⟨g, r, hr, hg, hs, hskip⟩ | ⟨g, u, c, -, -, -, -, hskip⟩
  · exact ⟨g, r, hr, hg, hs, Except.ok.inj (hskip.symm.trans h)⟩
  · exact absurd (hskip.symm.trans h) (by simp)

/-- Skipping fails only at a block that is never closed. -/
theorem open_of_skipGap {e : LexicalError} (hf : f.BuiltIn) (h : s.skipGap f n = .error e) :
    ∃ g u c, s.rest n = g ++ '/' :: '*' :: u ∧ Gap f g ('/' :: '*' :: u) ∧
      ¬ ['*', '/'] <:+: u ∧ (c = .unterminatedComment ∨ c = .unterminatedHint) ∧
      s.fault c (n + g.length) = e := by
  rcases skipGap_cases hf s n with ⟨g, r, -, -, -, hskip⟩ | ⟨g, u, c, hr, hg, hu, hc, hskip⟩
  · exact absurd (hskip.symm.trans h) (by simp)
  · exact ⟨g, u, c, hr, hg, hu, hc, Except.error.inj (hskip.symm.trans h)⟩

end SqlLexis
