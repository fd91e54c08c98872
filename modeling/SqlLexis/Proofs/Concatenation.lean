import SqlLexis.Proofs.Displacement

/-!
# Texts joined by a line feed

Tokenizing two texts with a line feed between them gives the tokens of both: the end of the
first is dropped and the tokens of the second are moved. The line feed closes a line comment
that the first text leaves open, and no token reaches across it.

`tokenize_append_newline` follows from two facts about runs: a gap in front makes no
difference (`displaced_of_gap`), and the tokens of a text stay what they are when something
is put behind it on a new line (`Tiles.displaced_before`).
-/

namespace SqlLexis

open Source

variable {s : Source} {d : Dictionary} {f : Forms} {n m : Nat}

/-! ## A gap in front -/

theorem tokensFrom_congr (h : s.skipGap f n = s.skipGap f m) :
    s.tokensFrom d f n = s.tokensFrom d f m := by
  cases hn : s.skipGap f n with
  | error e => rw [tokensFrom_of_skip_error hn, tokensFrom_of_skip_error (h.symm.trans hn)]
  | ok k =>
      have hm := h.symm.trans hn
      cases ht : s.scanToken d f k with
      | error e => rw [tokensFrom_of_error hn ht, tokensFrom_of_error hm ht]
      | ok t =>
          by_cases hfin : t.kind = .finish
          · rw [tokensFrom_of_finish hn ht hfin, tokensFrom_of_finish hm ht hfin]
          · rw [tokensFrom_of_token hn ht hfin, tokensFrom_of_token hm ht hfin]

/-- Starting in front of a gap gives what starting behind it gives. -/
theorem displaced_of_gap (hf : f.BuiltIn) {g r : List Char} (hr : s.rest n = g ++ r)
    (hg : Gap f g r) :
    Displaced 0 id (s.tokensFrom d f (n + g.length)) (s.tokensFrom d f n) := by
  have hrest := rest_of_append hr
  rcases skipGap_cases hf s (n + g.length) with
    ⟨h, u, hu, hh, hs, hskip⟩ | ⟨h, u, c, hu, hh, hopen, hc, hskip⟩
  · obtain rfl : r = h ++ u := hrest.symm.trans hu
    have hlong := skipGap_of_gap hf (by rw [hr, List.append_assoc]) (hg.append hh) hs
    rw [List.length_append, ← Nat.add_assoc, ← hskip] at hlong
    rw [tokensFrom_congr hlong]
    exact .refl _
  · obtain rfl : r = h ++ '/' :: '*' :: u := hrest.symm.trans hu
    obtain ⟨c', hc', hlong⟩ :=
      skipGap_of_open hf (by rw [hr, List.append_assoc]) (hg.append hh) hopen
    rw [tokensFrom_of_skip_error hskip, tokensFrom_of_skip_error hlong]
    refine .error ?_ (unhinted_eq hc hc')
    simp [fault, Nat.add_assoc]

/-! ## A line put behind -/

/-- The text with `v` put behind. -/
def Source.before (s : Source) (v : List Char) : Source := ⟨s.chars ++ v⟩

theorem rest_before (hn : n ≤ s.length) (v : List Char) :
    (s.before v).rest n = s.rest n ++ v :=
  List.drop_append_of_le_length hn

theorem followsName_before (hn : n ≤ s.length) (v : List Char) :
    (s.before v).followsName n = s.followsName n := by
  cases n with
  | zero => rw [followsName_zero, followsName_zero]
  | succ n =>
      have hne : s.rest n ≠ [] := by
        rw [← List.length_pos_iff, s.length_rest]
        omega
      rw [followsName_succ, followsName_succ, rest_before (by omega), peek_append hne]

theorem LineEnd.append {r v : List Char} (hr : LineEnd r) (hv : LineEnd v) :
    LineEnd (r ++ v) := by
  cases r with
  | nil => exact hv
  | cons c r => exact hr

theorem Tiles.ne_nil {ts : List Token} (h : Tiles s d f n ts) : ts ≠ [] := by
  cases h <;> simp

/-- The tokens of a text are read before whatever a new line behind it holds. -/
theorem Tiles.displaced_before (hf : f.BuiltIn) {ts : List Token} (h : Tiles s d f n ts)
    (hn : n ≤ s.length) (y : List Char) :
    Displaced 0 (ts.dropLast ++ ·) ((s.before ('\n' :: y)).tokensFrom d f (s.length + 1))
      ((s.before ('\n' :: y)).tokensFrom d f n) := by
  have hclear : Clear ('\n' :: y) := .cons (by decide) y
  have hline : LineEnd ('\n' :: y) := by simp [LineEnd]
  induction h with
  | @finish n g hr hg =>
      have hg' : Gap f g (['\n'] ++ y) := hg.change_rest fun _ => hline
      have hr' : (s.before ('\n' :: y)).rest n = (g ++ ['\n']) ++ y := by
        rw [rest_before hn, hr, List.append_assoc]
        rfl
      have hlen := add_length_of_append hn (by rw [hr, List.append_nil] : s.rest n = g ++ [])
      have hgap := displaced_of_gap (d := d) hf hr' (hg'.append (.blank (by decide) .nil))
      rw [List.length_append, ← Nat.add_assoc] at hgap
      rw [← hlen]
      exact hgap
  | @token n k v g l r ts hr hg hs hl htail ih =>
      have hlen := add_length_of_append hn hr
      rw [List.length_append] at hlen
      have hr' : (s.before ('\n' :: y)).rest n = g ++ (l ++ (r ++ '\n' :: y)) := by
        rw [rest_before hn, hr, List.append_assoc, List.append_assoc]
      have hg' : Gap f g (l ++ (r ++ '\n' :: y)) := by
        rw [← List.append_assoc]
        exact hg.change_rest fun he => he.append hline
      have hs' : Settled f (l ++ (r ++ '\n' :: y)) := by
        rw [← List.append_assoc]
        have hne : l ++ r ≠ [] := by simp [hl.ne_nil]
        exact Settled.of_clear (r := []) (by rwa [List.append_nil]) hne hclear
      have hl' := hl.of_resembles (.append_clear hclear r)
      rw [← followsName_before (by omega : n + g.length ≤ s.length) ('\n' :: y)] at hl'
      have hscan := scanToken_of_lexeme hf (rest_of_append hr') hl'
      rw [tokensFrom_of_token (skipGap_of_gap hf hr' hg' hs') hscan hl.kind_ne_finish,
        List.dropLast_cons_of_ne_nil htail.ne_nil]
      exact (ih (by omega)).map_right _

/-! ## Both texts -/

/-- The outcome for the second text is moved behind the tokens of the first. -/
theorem displaced_append_newline (d : Dialect) {x : List Char} {tx : List Token}
    (hx : tokenize d x = .ok tx) (y : List Char) :
    Displaced (x.length + 1) (fun ty => tx.dropLast ++ ty.map (Token.shift (x.length + 1)))
      (tokenize d y) (tokenize d (x ++ '\n' :: y)) := by
  have hf := d.forms_builtIn
  have hlen : (x ++ ['\n']).length = x.length + 1 := by simp
  have hjoin : (Source.mk y).after (x ++ ['\n']) = (Source.mk x).before ('\n' :: y) := by
    simp [after, before]
  have hplace : ((Source.mk y).after (x ++ ['\n'])).followsName (x ++ ['\n']).length = false := by
    have hrest : ((Source.mk x).before ('\n' :: y)).rest x.length = '\n' :: y := by
      simp [before, rest]
    rw [hjoin, hlen, followsName_succ, hrest]
    rfl
  rw [tokenize_eq_tokensFrom] at hx
  have hfirst := (tiles_of_tokensFrom hf hx).displaced_before hf (Nat.zero_le _) y
  have hsecond := displaced_tokensFrom hf hplace d.dictionary 0
  rw [hjoin, hlen, Nat.zero_add] at hsecond
  rw [tokenize_eq_tokensFrom, tokenize_eq_tokensFrom]
  exact hsecond.trans hfirst

/-- Tokenizing two texts joined by a line feed gives the tokens of the first without its end
and those of the second moved, or the failure of the second moved. -/
theorem tokenize_append_newline (d : Dialect) {x : List Char} {tx : List Token}
    (hx : tokenize d x = .ok tx) (y : List Char) :
    (∀ ty, tokenize d y = .ok ty →
      tokenize d (x ++ '\n' :: y) = .ok (tx.dropLast ++ ty.map (Token.shift (x.length + 1)))) ∧
    ∀ e, tokenize d y = .error e → ∃ e', tokenize d (x ++ '\n' :: y) = .error e' ∧
      e'.offset = x.length + 1 + e.offset ∧ e'.cause.unhinted = e.cause.unhinted := by
  have h := displaced_append_newline d hx y
  generalize tokenize d y = o at h
  generalize tokenize d (x ++ '\n' :: y) = o' at h
  cases h with
  | ok ty =>
      constructor
      · rintro ty' hty
        obtain rfl := Except.ok.inj hty
        rfl
      · rintro e he
        exact absurd he (by simp)
  | @error e e' hoff hcause =>
      constructor
      · rintro ty hty
        exact absurd hty (by simp)
      · rintro e₀ he
        obtain rfl := Except.error.inj he
        exact ⟨e', rfl, by omega, hcause⟩

/-- A line comment that the first text leaves open, and a minus that begins the second. -/
theorem tokenize_append_newline_comment :
    tokenize .mysql ['1', ' ', '#', 'a'] = .ok [⟨.int, ['1'], 1⟩, ⟨.finish, [], 4⟩] ∧
      tokenize .mysql ['-', '2'] = .ok [⟨.int, ['-', '2'], 2⟩, ⟨.finish, [], 2⟩] ∧
      tokenize .mysql ['1', ' ', '#', 'a', '\n', '-', '2'] =
        .ok [⟨.int, ['1'], 1⟩, ⟨.int, ['-', '2'], 7⟩, ⟨.finish, [], 7⟩] := by
  have hf := Dialect.mysql.forms_builtIn
  have hx : tokenize .mysql ['1', ' ', '#', 'a'] = .ok [⟨.int, ['1'], 1⟩, ⟨.finish, [], 4⟩] := by
    apply tokensFrom_of_tiles hf
    refine .token (g := []) (l := ['1']) rfl .nil ⟨by decide, by decide, by decide⟩ ?_ ?_
    · exact .number (Numeral.wellFormed_read ['1']) (.of_clear _ (.cons (by decide) _))
        (by decide) (by decide) (by decide)
    · exact .finish rfl (.blank (by decide)
        (@Gap.line _ ['#'] ['a'] [] [] (by decide) (by decide) (by simp [LineEnd]) .nil))
  have hy : tokenize .mysql ['-', '2'] = .ok [⟨.int, ['-', '2'], 2⟩, ⟨.finish, [], 2⟩] := by
    apply tokensFrom_of_tiles hf
    refine .token (g := []) (l := ['-', '2']) rfl .nil ⟨by decide, by decide, by decide⟩ ?_ ?_
    · exact .number (Numeral.wellFormed_read ['-', '2']) (.of_clear _ .nil) (by decide) (by decide)
        (by decide)
    · exact .finish rfl .nil
  exact ⟨hx, hy, (tokenize_append_newline .mysql hx _).1 _ hy⟩

end SqlLexis
