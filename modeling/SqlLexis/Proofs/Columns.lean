import Mathlib.Data.Prod.Lex
import Mathlib.Order.Bounds.Defs
import SqlLexis.Proofs.Lines

/-!
# Every byte has a line and a column

A byte offset may point into a character or past the end of the text; it then stands for the last
character boundary before it. `lineCol_exact` says which line and column that boundary gets, how
it is found again from them, and that places are ordered as their boundaries are.

The line is found by searching the starts of the lines, which are strictly increasing. A search
either hits a start or says where the byte would have to be inserted, and the two mean different
lines; `line_of_searchAnswers` says that either answer gives the number of line feeds before the
boundary.
-/

namespace SqlLexis

namespace Text

/-! ## Boundaries -/

theorem byteLength_mono {as cs : List Char} (h : as <+: cs) :
    byteLength as ≤ byteLength cs := by
  obtain ⟨bs, rfl⟩ := h
  rw [byteLength_append]
  exact Nat.le_add_right _ _

theorem takeBytes_prefix (n : Nat) (cs : List Char) : takeBytes n cs <+: cs :=
  ⟨dropBytes n cs, takeBytes_append_dropBytes n cs⟩

/-- What fits into the first bytes of a text is among what is taken from it. -/
theorem prefix_takeBytes {as cs : List Char} {n : Nat} (h : as <+: cs) (hn : byteLength as ≤ n) :
    as <+: takeBytes n cs := by
  induction as generalizing cs n with
  | nil => exact List.nil_prefix
  | cons a as ih =>
      obtain ⟨bs, rfl⟩ := h
      rw [byteLength] at hn
      rw [List.cons_append, takeBytes, if_pos (by omega), List.cons_prefix_cons]
      exact ⟨rfl, ih (List.prefix_append as bs) (by omega)⟩

/-! ## The order of places -/

theorem lastLine_append {as bs : List Char} (hb : '\n' ∉ bs) :
    lastLine (as ++ bs) = lastLine as ++ bs := by
  have hline : ∀ c ∈ bs.reverse, (c != '\n') = true := by
    intro c hc
    have hne : c ≠ '\n' := by
      rintro rfl
      exact hb (List.mem_reverse.mp hc)
    simpa using hne
  rw [lastLine, List.reverse_append, List.takeWhile_append_of_pos hline, List.reverse_append,
    List.reverse_reverse]
  rfl

/-- Further text moves a place to a later line, or to a later column of its line. -/
theorem place_lt_append (as : List Char) {bs : List Char} (hb : bs ≠ []) :
    toLex (lineNumber as, columnNumber as) <
      toLex (lineNumber (as ++ bs), columnNumber (as ++ bs)) := by
  rw [Prod.Lex.toLex_lt_toLex]
  by_cases hfeed : '\n' ∈ bs
  · left
    have hpos : 0 < bs.count '\n' := List.count_pos_iff.mpr hfeed
    show as.count '\n' + 1 < (as ++ bs).count '\n' + 1
    rw [List.count_append]
    omega
  · right
    have hpos : 0 < bs.length := List.length_pos_iff.mpr hb
    refine ⟨(lineNumber_append hfeed).symm, ?_⟩
    show (lastLine as).length + 1 < (lastLine (as ++ bs)).length + 1
    rw [lastLine_append hfeed, List.length_append]
    omega

end Text

open Text

namespace NamedText

/-! ## What a byte is mapped to -/

/-- A character starts at this byte, or the text ends there. -/
def IsBoundary (t : NamedText) (p : Nat) : Prop :=
  ∃ before, before <+: t.content ∧ byteLength before = p

/-- What a search for `b` in increasing numbers may answer: a place where `b` stands, or, if it
stands nowhere, the place where it would have to be inserted. -/
def SearchAnswers (xs : List Nat) (b : Nat) : Except Nat Nat → Prop
  | .ok i => xs[i]? = some b
  | .error i => i ≤ xs.length ∧ (∀ x ∈ xs.take i, x < b) ∧ ∀ x ∈ xs.drop i, b < x

/-- The line that an answer stands for, from one. -/
def lineOfAnswer : Except Nat Nat → Nat
  | .ok i => i + 1
  | .error i => i - 1 + 1

/-- The line and the column of byte `b`, when `before` is what stands before its boundary. -/
structure Locates (t : NamedText) (b : Nat) (before : List Char) : Prop where
  isPrefix : before <+: t.content
  /-- The boundary is the last one at or before `b` and inside the text. -/
  greatest : IsGreatest {p | t.IsBoundary p ∧ p ≤ min b (byteLength t.content)} (byteLength before)
  lineCol : t.lineCol b = (1 + before.count '\n', 1 + (lastLine before).length)
  line_bounds : 1 ≤ (t.lineCol b).1 ∧ (t.lineCol b).1 ≤ t.lineCount
  /-- Every answer that a search through the starts of the lines may give leads to the line. -/
  search : ∀ a, SearchAnswers t.lineStarts (byteLength before) a →
    (t.lineCol b).1 = lineOfAnswer a
  /-- The line starts at a boundary, and from there the characters before the column lead to the
  boundary of `b`. -/
  recovers : ∃ lines rest, t.content = lines ++ rest ∧
    t.lineStart? ((t.lineCol b).1 - 1) = some (byteLength lines) ∧
    byteLength before = byteLength lines + byteLength (rest.take ((t.lineCol b).2 - 1))

variable {t : NamedText} {b : Nat} {before after : List Char}

theorem isGreatest_takeBytes (t : NamedText) (b : Nat) :
    IsGreatest {p | t.IsBoundary p ∧ p ≤ min b (byteLength t.content)}
      (byteLength (takeBytes b t.content)) := by
  have hprefix := takeBytes_prefix b t.content
  constructor
  · refine ⟨⟨_, hprefix, rfl⟩, ?_⟩
    exact Nat.le_min.mpr ⟨byteLength_takeBytes_le b _, byteLength_mono hprefix⟩
  · rintro p ⟨⟨as, has, rfl⟩, hp⟩
    apply byteLength_mono
    exact prefix_takeBytes has (Nat.le_min.mp hp).1

/-- A byte is mapped to where the last boundary before it is. -/
theorem lineCol_boundary (t : NamedText) (b : Nat) :
    t.lineCol b = (lineNumber (takeBytes b t.content), columnNumber (takeBytes b t.content)) := by
  have hcontent : t.content = takeBytes b t.content ++ dropBytes b t.content :=
    (takeBytes_append_dropBytes b t.content).symm
  rw [← lineCol_of_append hcontent]
  simp only [NamedText.lineCol, boundary_of_append hcontent]
  rfl

/-! ## Searching the starts -/

theorem pairwise_startsAfterFeeds (pos : Nat) (cs : List Char) :
    (startsAfterFeeds pos cs).Pairwise (· < ·) := by
  induction cs generalizing pos with
  | nil => exact List.Pairwise.nil
  | cons c cs ih =>
      simp only [startsAfterFeeds]
      split
      · refine List.pairwise_cons.mpr ⟨?_, ih _⟩
        intro p hp
        exact (startsAfterFeeds_bounds hp).1
      · exact ih _

/-- The starts of the lines are strictly increasing. -/
theorem pairwise_lineStarts (t : NamedText) : t.lineStarts.Pairwise (· < ·) := by
  refine List.pairwise_cons.mpr ⟨?_, pairwise_startsAfterFeeds 0 t.content⟩
  intro p hp
  exact (startsAfterFeeds_bounds hp).1

/-- The numbers up to `b` end where numbers that are greater begin. -/
theorem length_takeWhile_of_take {xs : List Nat} {i : Nat} (hi : i ≤ xs.length)
    (hfront : ∀ x ∈ xs.take i, x ≤ b) (hbehind : ∀ x ∈ xs.drop i, b < x) :
    (xs.takeWhile (· ≤ b)).length = i := by
  have hall : ∀ x ∈ xs.take i, decide (x ≤ b) = true := by
    intro x hx
    exact decide_eq_true (hfront x hx)
  have hstop : (xs.drop i).takeWhile (· ≤ b) = [] := by
    rw [List.takeWhile_eq_nil_iff]
    intro hpos
    simpa using hbehind _ (List.get_mem _ ⟨0, hpos⟩)
  rw [← List.take_append_drop i xs, List.takeWhile_append_of_pos hall, hstop, List.append_nil,
    List.length_take_of_le hi]

/-- A hit and a miss both lead to the last start that is not behind the boundary. As the first line
starts at byte zero, a miss never lies before it. -/
theorem line_of_searchAnswers {a : Except Nat Nat} (h : t.content = before ++ after)
    (ha : SearchAnswers t.lineStarts (byteLength before) a) :
    lineNumber before = lineOfAnswer a := by
  rw [← takeWhile_lineStarts h]
  cases a with
  | ok i =>
      obtain ⟨hi, hat⟩ := List.getElem?_eq_some_iff.mp ha
      have hsorted := List.pairwise_iff_getElem.mp t.pairwise_lineStarts
      apply length_takeWhile_of_take hi
      · intro x hx
        obtain ⟨j, hj, rfl⟩ := List.mem_take_iff_getElem.mp hx
        rcases Nat.lt_or_eq_of_le (Nat.le_of_lt_succ (Nat.lt_min.mp hj).1) with hlt | rfl
        · rw [← hat]
          exact Nat.le_of_lt (hsorted j i _ hi hlt)
        · exact Nat.le_of_eq hat
      · intro x hx
        obtain ⟨j, hj, rfl⟩ := List.mem_drop_iff_getElem.mp hx
        rw [← hat]
        exact hsorted i _ hi _ (by omega)
  | error i =>
      obtain ⟨hi, hfront, hbehind⟩ := ha
      have hbehindFirst : 0 < i := by
        rw [Nat.pos_iff_ne_zero]
        rintro rfl
        have hzero := hbehind 0 List.mem_cons_self
        omega
      rw [length_takeWhile_of_take hi (fun x hx => Nat.le_of_lt (hfront x hx)) hbehind]
      exact (Nat.sub_add_cancel hbehindFirst).symm

/-! ## Back from a line and a column -/

/-- From the start of its line, the characters before its column lead to a place. -/
theorem exists_line_start (h : t.content = before ++ after) :
    ∃ lines rest, t.content = lines ++ rest ∧
      t.lineStart? (lineNumber before - 1) = some (byteLength lines) ∧
      byteLength before = byteLength lines + byteLength (rest.take (columnNumber before - 1)) := by
  obtain ⟨lines, hbefore, hstarts, hline⟩ := exists_startsLine before
  have hcontent : t.content = lines ++ (lastLine before ++ after) := by
    rw [h, ← List.append_assoc, ← hbefore]
  refine ⟨lines, lastLine before ++ after, hcontent, ?_, ?_⟩
  · have hnumber : lineNumber before - 1 = lines.count '\n' := by
      rw [hbefore, lineNumber_append hline, Nat.add_sub_cancel]
    rw [hnumber]
    exact lineStart?_of_append hcontent hstarts
  · rw [columnNumber, Nat.add_sub_cancel, List.take_left, ← byteLength_append, ← hbefore]

/-- Places are ordered as the texts before them. -/
theorem lineCol_lt_of_boundary_lt {p q : Nat} (hp : t.IsBoundary p) (hq : t.IsBoundary q)
    (hlt : p < q) : toLex (t.lineCol p) < toLex (t.lineCol q) := by
  obtain ⟨as, ⟨cs, has⟩, rfl⟩ := hp
  obtain ⟨bs, ⟨ds, hbs⟩, rfl⟩ := hq
  obtain ⟨es, rfl⟩ : as <+: bs := by
    rcases List.prefix_or_prefix_of_prefix ⟨cs, has⟩ ⟨ds, hbs⟩ with hpre | hpre
    · exact hpre
    · exact absurd (byteLength_mono hpre) (Nat.not_le.mpr hlt)
  have hne : es ≠ [] := by
    rintro rfl
    simp at hlt
  rw [lineCol_of_append has.symm, lineCol_of_append hbs.symm]
  exact place_lt_append as hne

/-- Every byte gets the line and the column of the last boundary before it, the boundary is found
again from them, and later boundaries get later places. -/
theorem lineCol_exact (t : NamedText) :
    (∀ b, ∃ before, t.Locates b before) ∧
      StrictMonoOn (fun p => toLex (t.lineCol p)) {p | t.IsBoundary p} := by
  constructor
  · intro b
    have hcontent := (takeBytes_append_dropBytes b t.content).symm
    have hplace := t.lineCol_boundary b
    have hprefix := takeBytes_prefix b t.content
    refine ⟨takeBytes b t.content, hprefix, t.isGreatest_takeBytes b, ?_, ?_, ?_, ?_⟩
    · rw [hplace, lineNumber, columnNumber, Nat.add_comm 1, Nat.add_comm 1]
    · rw [hplace, lineCount, length_lineStarts, lineNumber]
      refine ⟨Nat.le_add_left _ _, Nat.succ_le_succ ?_⟩
      exact hprefix.sublist.count_le _
    · intro a ha
      rw [hplace]
      exact line_of_searchAnswers hcontent ha
    · rw [hplace]
      exact exists_line_start hcontent
  · intro p hp q hq hlt
    exact lineCol_lt_of_boundary_lt hp hq hlt

/-- A byte inside a character, one past the end, and the two sides of a line feed. -/
theorem lineCol_exact_around_feed :
    let t : NamedText := ⟨⟨0⟩, "q.sql", "é\n日x".toList⟩
    ((∃ before, t.Locates 5 before) ∧ t.lineCol 5 = (2, 1) ∧ t.lineStart? 1 = some 3) ∧
      ((∃ before, t.Locates 9 before) ∧ t.lineCol 9 = (2, 3)) ∧
      (t.IsBoundary 2 ∧ t.IsBoundary 3) ∧ toLex (t.lineCol 2) < toLex (t.lineCol 3) := by
  intro t
  have hbefore : t.IsBoundary 2 := ⟨['é'], by decide, by decide⟩
  have hbehind : t.IsBoundary 3 := ⟨['é', '\n'], by decide, by decide⟩
  refine ⟨⟨(lineCol_exact t).1 5, ?_, ?_⟩, ⟨(lineCol_exact t).1 9, ?_⟩, ⟨hbefore, hbehind⟩, ?_⟩
  · decide +kernel
  · decide +kernel
  · decide +kernel
  · exact (lineCol_exact t).2 hbefore hbehind (by decide)

end NamedText

end SqlLexis
