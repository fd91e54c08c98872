import SqlLexis.Proofs.Gap

/-!
# Skipping is exact

Where skipping ends is decided by the text alone: at the one position up to which the text is a
gap and where nothing skippable begins, or at the one block that is never closed. `skipGap_exact`
says so in both directions, for a start anywhere in the text.

The grammar of gaps speaks about pieces of text and the scanner about positions;
`gapUpTo_iff_exists` takes one to the other.
-/

namespace SqlLexis

namespace Source

/-! ## Positions in a gap -/

/-- From `n` up to `p` the text is a gap. -/
structure GapUpTo (s : Source) (f : Forms) (n p : Nat) : Prop where
  start_le : n ≤ p
  le_length : p ≤ s.length
  gap : Gap f (s.slice n p) (s.rest p)

/-- At `p` there is nothing to skip: neither a blank nor a comment nor a hint begins. -/
structure NothingToSkip (s : Source) (f : Forms) (p : Nat) : Prop where
  blank : isBlank (s.charAt p) = false
  comment : s.beginsComment f p = false
  hint : f.beginsHint s p = false

/-- At `o` a block opens, and no closing mark stands two characters past it or later. -/
structure OpensBlock (s : Source) (o : Nat) : Prop where
  opening : ['/', '*'] <+: s.rest o
  unclosed : ¬ ['*', '/'] <:+: s.rest (o + 2)

/-- What skipping from `n` has to do. -/
structure SkipsExactly (s : Source) (f : Forms) (n : Nat) : Prop where
  ok_iff : ∀ p, s.skipGap f n = .ok p ↔ s.GapUpTo f n p ∧ s.NothingToSkip f p
  unique : ∀ p q, s.GapUpTo f n p ∧ s.NothingToSkip f p →
    s.GapUpTo f n q ∧ s.NothingToSkip f q → p = q
  le_length : ∀ p, s.skipGap f n = .ok p → p ≤ s.length
  again : ∀ p, s.skipGap f n = .ok p → s.skipGap f p = .ok p
  error_iff : ∀ o, (∃ e, s.skipGap f n = .error e ∧ e.offset = o) ↔
    s.GapUpTo f n o ∧ s.OpensBlock o

variable {s : Source} {f : Forms} {n o p : Nat}

theorem gapUpTo_of_append (hn : n ≤ s.length) {g r : List Char} (hr : s.rest n = g ++ r)
    (hg : Gap f g r) : s.GapUpTo f n (n + g.length) where
  start_le := Nat.le_add_right _ _
  le_length := by
    have hlen := add_length_of_append hn hr
    omega
  gap := by rwa [slice_of_append hr, rest_of_append hr]

/-- A gap up to a position is a gap in front of what is left, of the right length. -/
theorem gapUpTo_iff_exists (hn : n ≤ s.length) :
    s.GapUpTo f n p ↔ ∃ g r, s.rest n = g ++ r ∧ Gap f g r ∧ n + g.length = p := by
  constructor
  · intro h
    obtain ⟨k, rfl⟩ := Nat.exists_eq_add_of_le h.start_le
    refine ⟨s.slice n (n + k), s.rest (n + k), ?_, h.gap, ?_⟩
    · rw [slice_add, rest_add, List.take_append_drop]
    · have hlen := h.le_length
      rw [length_slice]
      omega
  · rintro ⟨g, r, hr, hg, rfl⟩
    exact gapUpTo_of_append hn hr hg

/-! ## Where nothing begins -/

/-- A hint is a block, so it need not be looked for where no comment begins. -/
theorem nothingToSkip_iff_settled (hf : f.BuiltIn) :
    s.NothingToSkip f p ↔ Settled f (s.rest p) := by
  constructor
  · intro h
    have hnone : ¬ (['/', '*'] <+: s.rest p ∨ ∃ opener ∈ f.lineOpeners, opener <+: s.rest p) := by
      rw [← beginsComment_iff, h.comment]
      simp
    have hblank := h.blank
    rw [charAt_natCast] at hblank
    refine ⟨hblank, ?_, ?_⟩
    · intro hblock
      exact hnone (Or.inl hblock)
    · intro opener hmem hline
      exact hnone (Or.inr ⟨opener, hmem, hline⟩)
  · intro h
    refine ⟨?_, h.beginsComment, ?_⟩
    · rw [charAt_natCast]
      exact h.blank
    · rw [← Bool.not_eq_true]
      intro hint
      exact h.block (hf.block_of_beginsHint hint)

theorem opensBlock_iff_exists :
    s.OpensBlock o ↔ ∃ u, s.rest o = '/' :: '*' :: u ∧ ¬ ['*', '/'] <:+: u := by
  have hbehind : ∀ u, s.rest o = '/' :: '*' :: u → s.rest (o + 2) = u := by
    intro u hu
    rw [rest_add, hu]
    rfl
  constructor
  · rintro ⟨⟨u, hu⟩, hopen⟩
    rw [hbehind u hu.symm] at hopen
    exact ⟨u, hu.symm, hopen⟩
  · rintro ⟨u, hu, hopen⟩
    refine ⟨⟨u, hu.symm⟩, ?_⟩
    rwa [hbehind u hu]

/-! ## Where skipping ends -/

theorem skipGap_eq_ok_iff (hf : f.BuiltIn) (hn : n ≤ s.length) :
    s.skipGap f n = .ok p ↔ s.GapUpTo f n p ∧ s.NothingToSkip f p := by
  rw [gapUpTo_iff_exists hn, nothingToSkip_iff_settled hf]
  constructor
  · intro h
    obtain ⟨g, r, hr, hg, hs, rfl⟩ := gap_of_skipGap hf h
    rw [rest_of_append hr]
    exact ⟨⟨g, r, hr, hg, rfl⟩, hs⟩
  · rintro ⟨⟨g, r, hr, hg, rfl⟩, hs⟩
    rw [rest_of_append hr] at hs
    exact skipGap_of_gap hf hr hg hs

theorem skipGap_eq_error_iff (hf : f.BuiltIn) (hn : n ≤ s.length) :
    (∃ e, s.skipGap f n = .error e ∧ e.offset = o) ↔ s.GapUpTo f n o ∧ s.OpensBlock o := by
  rw [gapUpTo_iff_exists hn, opensBlock_iff_exists]
  constructor
  · rintro ⟨e, he, rfl⟩
    obtain ⟨g, u, c, hr, hg, hu, -, rfl⟩ := open_of_skipGap hf he
    exact ⟨⟨g, _, hr, hg, rfl⟩, u, rest_of_append hr, hu⟩
  · rintro ⟨⟨g, r, hr, hg, rfl⟩, u, hu, hopen⟩
    obtain rfl : r = '/' :: '*' :: u := (rest_of_append hr).symm.trans hu
    obtain ⟨c, -, hskip⟩ := skipGap_of_open hf hr hg hopen
    exact ⟨_, hskip, rfl⟩

end Source

open Source

/-- With built-in forms and from any position of a text, skipping succeeds exactly at the end of a
gap behind which nothing is to be skipped, and fails exactly at a block behind a gap that is never
closed. -/
theorem skipGap_exact {s : Source} {f : Forms} (hf : f.BuiltIn) {n : Nat} (hn : n ≤ s.length) :
    s.SkipsExactly f n where
  ok_iff _ := skipGap_eq_ok_iff hf hn
  unique p q hp hq := by
    have hskip := (skipGap_eq_ok_iff hf hn).mpr hp
    exact Except.ok.inj (hskip.symm.trans ((skipGap_eq_ok_iff hf hn).mpr hq))
  le_length p h := ((skipGap_eq_ok_iff hf hn).mp h).1.le_length
  again p h := by
    obtain ⟨hgap, hnothing⟩ := (skipGap_eq_ok_iff hf hn).mp h
    have hemptyGap : s.GapUpTo f p p := gapUpTo_of_append hgap.le_length (g := []) rfl .nil
    exact (skipGap_eq_ok_iff hf hgap.le_length).mpr ⟨hemptyGap, hnothing⟩
  error_iff _ := skipGap_eq_error_iff hf hn

/-- Openings that overlap with closings, a line comment that looks like a block, a hint behind
comments, and a block that its opening seems to close. -/
theorem skipGap_exact_overlapping :
    let s : Source := .ofString "x/*/*/ //*\n/**/ /*+ h */y /*/"
    let f : Forms := ⟨some Forms.optimizerHint, none, false, false⟩
    f.BuiltIn ∧ (1 ≤ s.length ∧ s.GapUpTo f 1 24 ∧ s.NothingToSkip f 24) ∧
      25 ≤ s.length ∧ s.GapUpTo f 25 26 ∧ s.OpensBlock 26 := by
  intro s f
  have hf : f.BuiltIn := ⟨.inr (.inr rfl), .inl rfl⟩
  have hok : s.skipGap f 1 = .ok 24 := by decide +kernel
  have hfails : s.skipGap f 25 = .error ⟨.unterminatedComment, s.chars, 26⟩ := by decide +kernel
  have hstart : 1 ≤ s.length := by decide
  have hlater : 25 ≤ s.length := by decide
  refine ⟨hf, ⟨hstart, ?_⟩, hlater, ?_⟩
  · exact ((skipGap_exact hf hstart).ok_iff 24).mp hok
  · exact ((skipGap_exact hf hlater).error_iff 26).mp ⟨_, hfails, rfl⟩

end SqlLexis
