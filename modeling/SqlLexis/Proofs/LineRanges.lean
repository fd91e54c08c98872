import Mathlib.Data.List.DropRight
import SqlLexis.Proofs.Columns

/-!
# A text put together from its lines

Of the lines of a text only the starts are kept. A line reaches up to where the next one starts,
the last one up to the end of the text, and what ends it is cut off again when it is shown.
`lines_reassemble` says that nothing is lost or counted twice on the way: the lines are the pieces
between the line feeds, and their ranges make up the text.

Everything is read off one picture. A line is what stands behind so many line feeds
(`Text.IsLine`): a part before it, the line itself without line feed, and a part that is empty or
begins with one. `Text.exists_isLine` says that a text has such a line behind each number of line
feeds that it holds.
-/

namespace SqlLexis

namespace Text

/-! ## The pieces between line feeds -/

/-- Behind `k` line feeds of `cs`, and so behind `before`, stands `line`, and `after` follows. -/
structure IsLine (cs : List Char) (k : Nat) (before line after : List Char) : Prop where
  append : cs = before ++ (line ++ after)
  starts : StartsLine before
  count : before.count '\n' = k
  oneLine : '\n' ∉ line
  ends : LineEnd after
  piece : (cs.splitOn '\n')[k]? = some line

theorem StartsLine.cons_append {cs : List Char} (h : StartsLine cs) (as : List Char) :
    StartsLine (as ++ '\n' :: cs) := by
  rcases h.nil_or_concat with rfl | ⟨bs, rfl⟩
  · exact startsLine_concat as
  · rw [← List.cons_append, ← List.append_assoc]
    exact startsLine_concat _

/-- The first line goes up to the first line feed. -/
theorem isLine_zero {line after : List Char} (hline : '\n' ∉ line) (hafter : LineEnd after) :
    IsLine (line ++ after) 0 [] line after := by
  refine ⟨rfl, by simp [StartsLine], rfl, hline, hafter, ?_⟩
  cases after with
  | nil =>
      rw [List.append_nil, List.splitOn_eq_singleton hline]
      rfl
  | cons c after =>
      obtain rfl : c = '\n' := hafter c rfl
      rw [List.splitOn_append_cons_self_of_not_mem hline]
      rfl

/-- Every other line is a line of what follows the first line feed. -/
theorem IsLine.succ {first cs before line after : List Char} {k : Nat}
    (h : IsLine cs k before line after) (hfirst : '\n' ∉ first) :
    IsLine (first ++ '\n' :: cs) (k + 1) (first ++ '\n' :: before) line after where
  append := by
    rw [h.append, List.append_assoc]
    rfl
  starts := h.starts.cons_append first
  count := by
    rw [List.count_append, List.count_eq_zero.mpr hfirst, List.count_cons_self, h.count,
      Nat.zero_add]
  oneLine := h.oneLine
  ends := h.ends
  piece := by
    rw [List.splitOn_append_cons_self_of_not_mem hfirst]
    exact h.piece

theorem exists_isLine {cs : List Char} {k : Nat} (hk : k ≤ cs.count '\n') :
    ∃ before line after, IsLine cs k before line after := by
  induction k generalizing cs with
  | zero =>
      obtain ⟨line, after, rfl, hline, hafter⟩ := exists_line cs
      exact ⟨[], line, after, isLine_zero hline hafter⟩
  | succ k ih =>
      have hfeed : '\n' ∈ cs := List.count_pos_iff.mp (Nat.zero_lt_of_lt hk)
      obtain ⟨first, rest, rfl, hfirst⟩ := List.eq_append_cons_of_mem hfeed
      rw [List.count_append, List.count_eq_zero.mpr hfirst, List.count_cons_self] at hk
      have hrest : k ≤ rest.count '\n' := by omega
      obtain ⟨before, line, after, h⟩ := ih hrest
      exact ⟨first ++ '\n' :: before, line, after, h.succ hfirst⟩

/-- Of a line without line feed only carriage returns are cut off. -/
theorem trimLineEnd_of_oneLine {line : List Char} (h : '\n' ∉ line) :
    NamedText.trimLineEnd line = line.rdropWhile (· == '\r') := by
  induction line using List.reverseRecOn with
  | nil => rfl
  | append_singleton cs c ih =>
      have hcs : '\n' ∉ cs := fun hmem => h (List.mem_append_left _ hmem)
      have hc : c ≠ '\n' := by
        rintro rfl
        exact h (List.mem_append_right _ List.mem_cons_self)
      have htrim : NamedText.trimLineEnd (cs ++ [c]) =
          if c == '\n' || c == '\r' then NamedText.trimLineEnd cs else cs ++ [c] :=
        List.rdropWhile_concat _ cs c
      rw [htrim, List.rdropWhile_concat, ih hcs]
      simp [hc]

theorem exists_returns (cs : List Char) :
    ∃ k, cs = cs.rdropWhile (· == '\r') ++ List.replicate k '\r' := by
  refine ⟨(cs.rtakeWhile (· == '\r')).length, ?_⟩
  have hall : ∀ c ∈ cs.rtakeWhile (· == '\r'), c = '\r' := by
    intro c hc
    simpa using List.mem_rtakeWhile_imp hc
  rw [← List.eq_replicate_of_mem hall, List.rdropWhile_append_rtakeWhile]

end Text

open Text

namespace NamedText

/-! ## The ranges of the lines -/

/-- A line with what ends it, lines counting from one. -/
def lineText (t : NamedText) (l : Nat) : List Char := t.bytes (t.lineBound (l - 1)) (t.lineBound l)

/-- Line `l` of a text, from one, when `piece` is what stands between line feeds there. -/
structure ShowsLine (t : NamedText) (l : Nat) (piece : List Char) : Prop where
  split : (t.content.splitOn '\n')[l - 1]? = some piece
  shown : t.lineAt? l = some (piece.rdropWhile (· == '\r'))
  start : t.lineStart? (l - 1) = some (t.lineBound (l - 1))
  /-- The range of the line begins and ends between two characters of the text. -/
  range : ∃ before after, t.content = before ++ (t.lineText l ++ after) ∧
    byteLength before = t.lineBound (l - 1) ∧
    byteLength before + byteLength (t.lineText l) = t.lineBound l
  /-- In its range only carriage returns and a line feed follow what is shown; the last line has
  no line feed. -/
  ending : ∃ k, t.lineText l = piece.rdropWhile (· == '\r') ++ List.replicate k '\r' ++
    if l < t.lineCount then ['\n'] else []

/-- The lines of a text are its pieces between line feeds, and their ranges make up the text. -/
structure Reassembles (t : NamedText) : Prop where
  count : t.lineCount = 1 + t.content.count '\n'
  lines : ∀ l, 1 ≤ l → l ≤ t.lineCount → ∃ piece, t.ShowsLine l piece
  outside : ∀ l, l = 0 ∨ t.lineCount < l → t.lineAt? l = none
  first : t.lineStart? 0 = some 0
  increasing : ∀ i j p q, i < j → t.lineStart? i = some p → t.lineStart? j = some q → p < q
  /-- Every line but the first starts at the byte behind a line feed. -/
  later : ∀ i p, t.lineStart? (i + 1) = some p →
    ∃ as bs, t.content = as ++ '\n' :: bs ∧ p = byteLength as + 1
  last : t.lineBound t.lineCount = byteLength t.content
  /-- Every byte of the text is in the range of one line. -/
  partition : ∀ p < byteLength t.content,
    ∃! l, (1 ≤ l ∧ l ≤ t.lineCount) ∧ t.lineBound (l - 1) ≤ p ∧ p < t.lineBound l
  concat : ((List.range t.lineCount).flatMap fun k => t.lineText (k + 1)) = t.content

section IsLine

variable {t : NamedText} {k : Nat} {before line after : List Char}

theorem lineStart?_of_isLine (h : IsLine t.content k before line after) :
    t.lineStart? k = some (byteLength before) := by
  rw [← h.count]
  exact lineStart?_of_append h.append h.starts

theorem lineBound_of_isLine (h : IsLine t.content k before line after) :
    t.lineBound k = byteLength before := by
  rw [lineBound, lineStart?_of_isLine h, Option.getD_some]

theorem lineBound_succ_of_isLine (h : IsLine t.content k before line after) :
    t.lineBound (k + 1) = byteLength before + byteLength (line ++ after.take 1) := by
  rw [← h.count]
  exact lineBound_of_append h.append h.oneLine h.ends

/-- The range of a line is cut out of the text. -/
theorem content_of_isLine (h : IsLine t.content k before line after) :
    t.content = before ++ ((line ++ after.take 1) ++ after.drop 1) := by
  rw [h.append, List.append_assoc, List.take_append_drop]

theorem lineText_of_isLine (h : IsLine t.content k before line after) :
    t.lineText (k + 1) = line ++ after.take 1 := by
  rw [lineText, Nat.add_sub_cancel, lineBound_of_isLine h, lineBound_succ_of_isLine h,
    bytes_of_append (content_of_isLine h)]

/-- Behind every line but the last there is a line feed. -/
theorem take_of_isLine (h : IsLine t.content k before line after) :
    after.take 1 = if k + 1 < t.lineCount then ['\n'] else [] := by
  have hcount : t.lineCount = k + after.count '\n' + 1 := by
    rw [lineCount, length_lineStarts, h.append, List.count_append, List.count_append, h.count,
      List.count_eq_zero.mpr h.oneLine, Nat.zero_add]
  cases hafter : after with
  | nil => rw [if_neg (by simp [hcount, hafter]), List.take_nil]
  | cons c cs =>
      obtain rfl : c = '\n' := h.ends c (by simp [hafter])
      rw [if_pos (by simp [hcount, hafter])]
      rfl

theorem showsLine_of_isLine (h : IsLine t.content k before line after) :
    t.ShowsLine (k + 1) line where
  split := h.piece
  shown := by
    rw [← trimLineEnd_of_oneLine h.oneLine, ← h.count]
    exact lineAt?_of_append h.append h.starts h.oneLine h.ends
  start := by
    rw [Nat.add_sub_cancel, lineBound_of_isLine h]
    exact lineStart?_of_isLine h
  range := by
    rw [lineText_of_isLine h]
    refine ⟨before, after.drop 1, content_of_isLine h, ?_, ?_⟩
    · exact (lineBound_of_isLine h).symm
    · exact (lineBound_succ_of_isLine h).symm
  ending := by
    obtain ⟨n, hn⟩ := exists_returns line
    refine ⟨n, ?_⟩
    rw [lineText_of_isLine h, ← hn, take_of_isLine h]

end IsLine

variable {t : NamedText}

theorem exists_isLine_of_lt {k : Nat} (hk : k < t.lineCount) :
    ∃ before line after, IsLine t.content k before line after := by
  rw [lineCount, length_lineStarts] at hk
  exact exists_isLine (Nat.le_of_lt_succ hk)

/-! ## The ranges follow one another -/

theorem lineBound_of_le {k : Nat} (hk : t.lineCount ≤ k) :
    t.lineBound k = byteLength t.content := by
  rw [lineBound, lineStart?, List.getElem?_eq_none hk, Option.getD_none]

theorem monotone_lineBound (t : NamedText) : Monotone t.lineBound := by
  apply monotone_nat_of_le_succ
  intro k
  rcases Nat.lt_or_ge k t.lineCount with hk | hk
  · obtain ⟨before, line, after, h⟩ := exists_isLine_of_lt hk
    rw [lineBound_of_isLine h, lineBound_succ_of_isLine h]
    exact Nat.le_add_right _ _
  · rw [lineBound_of_le hk, lineBound_of_le (Nat.le_succ_of_le hk)]

/-- A byte before the end of some lines is in the range of one of them. -/
theorem exists_line_of_lt {p k : Nat} (hp : p < t.lineBound k) :
    ∃ l, (1 ≤ l ∧ l ≤ k) ∧ t.lineBound (l - 1) ≤ p ∧ p < t.lineBound l := by
  induction k with
  | zero => exact absurd hp (Nat.not_lt_zero p)
  | succ k ih =>
      rcases Nat.lt_or_ge p (t.lineBound k) with hbeforeLast | hinLast
      · obtain ⟨l, ⟨hpos, hle⟩, hl⟩ := ih hbeforeLast
        exact ⟨l, ⟨hpos, Nat.le_succ_of_le hle⟩, hl⟩
      · exact ⟨k + 1, ⟨Nat.le_add_left 1 k, Nat.le_refl _⟩, hinLast, hp⟩

/-- The ranges of two lines have no byte in common. -/
theorem line_le_of_bounds {p l l' : Nat} (hp : t.lineBound (l - 1) ≤ p) (hp' : p < t.lineBound l') :
    l ≤ l' := by
  by_contra hlt
  have hbounds : t.lineBound l' ≤ t.lineBound (l - 1) := t.monotone_lineBound (by omega)
  omega

/-- The first lines make up the text before the start of the next one, as each of them adds its own
range to the text before it. -/
theorem flatMap_lineText {k : Nat} (hk : k ≤ t.lineCount) :
    ((List.range k).flatMap fun i => t.lineText (i + 1)) =
      takeBytes (t.lineBound k) t.content := by
  induction k with
  | zero => exact (takeBytes_append [] t.content).symm
  | succ k ih =>
      obtain ⟨before, line, after, h⟩ := exists_isLine_of_lt hk
      have hbefore : takeBytes (byteLength before) t.content = before := by
        rw [h.append, takeBytes_append]
      have hthrough : takeBytes (byteLength (before ++ (line ++ after.take 1))) t.content =
          before ++ (line ++ after.take 1) := by
        rw [content_of_isLine h, ← List.append_assoc before (line ++ after.take 1),
          takeBytes_append]
      rw [List.range_succ, List.flatMap_append, ih (Nat.le_of_succ_le hk), lineBound_of_isLine h,
        lineBound_succ_of_isLine h, ← byteLength_append, hbefore, hthrough,
        List.flatMap_singleton, lineText_of_isLine h]

theorem lineStart?_lt {i j p q : Nat} (hij : i < j) (hi : t.lineStart? i = some p)
    (hj : t.lineStart? j = some q) : p < q := by
  obtain ⟨hilt, rfl⟩ := List.getElem?_eq_some_iff.mp hi
  obtain ⟨hjlt, rfl⟩ := List.getElem?_eq_some_iff.mp hj
  exact List.pairwise_iff_getElem.mp t.pairwise_lineStarts i j hilt hjlt hij

theorem exists_feed_of_lineStart? {i p : Nat} (h : t.lineStart? (i + 1) = some p) :
    ∃ as bs, t.content = as ++ '\n' :: bs ∧ p = byteLength as + 1 := by
  obtain ⟨before, line, after, hline⟩ := exists_isLine_of_lt (List.getElem?_eq_some_iff.mp h).1
  obtain rfl : byteLength before = p := Option.some.inj ((lineStart?_of_isLine hline).symm.trans h)
  rcases hline.starts.nil_or_concat with rfl | ⟨as, rfl⟩
  · exact absurd hline.count (Nat.succ_ne_zero i).symm
  · refine ⟨as, line ++ after, ?_, ?_⟩
    · rw [hline.append, List.append_assoc]
      rfl
    · rw [byteLength_append]
      rfl

/-- The lines that are shown are the pieces of the text between its line feeds without the carriage
returns at their ends; each starts behind a line feed, and their ranges, in which nothing else is
cut off, make up the text. -/
theorem lines_reassemble (t : NamedText) : t.Reassembles where
  count := by
    rw [lineCount, length_lineStarts, Nat.add_comm]
  lines := by
    intro l hpos hle
    obtain ⟨k, rfl⟩ := Nat.exists_eq_add_of_le' hpos
    obtain ⟨before, line, after, h⟩ := exists_isLine_of_lt hle
    exact ⟨line, showsLine_of_isLine h⟩
  outside := by
    rintro l (rfl | hl)
    · rfl
    · have hnone : t.lineStart? (l - 1) = none := List.getElem?_eq_none (Nat.le_pred_of_lt hl)
      rw [lineAt?, if_neg (by omega), hnone, Option.map_none]
  first := rfl
  increasing _ _ _ _ hij hi hj := lineStart?_lt hij hi hj
  later _ _ h := exists_feed_of_lineStart? h
  last := lineBound_of_le (Nat.le_refl _)
  partition := by
    intro p hp
    rw [← lineBound_of_le (Nat.le_refl t.lineCount)] at hp
    obtain ⟨l, hl, hstart, hstop⟩ := exists_line_of_lt hp
    refine ⟨l, ⟨hl, hstart, hstop⟩, ?_⟩
    rintro l' ⟨-, hstart', hstop'⟩
    exact Nat.le_antisymm (line_le_of_bounds hstart' hstop) (line_le_of_bounds hstart hstop')
  concat := by
    rw [flatMap_lineText (Nat.le_refl _), lineBound_of_le (Nat.le_refl _)]
    simpa using takeBytes_append t.content []

/-- Carriage returns are cut off at the end of a line only, and an empty line is a line. -/
example :
    let t : NamedText := ⟨⟨0⟩, "q.sql", "a\rb\r\r\n\né\r".toList⟩
    t.lineCount = 3 ∧ t.lineAt? 1 = some ['a', '\r', 'b'] ∧ t.lineAt? 2 = some [] ∧
      t.lineAt? 3 = some ['é'] := by
  decide +kernel

end NamedText

end SqlLexis
