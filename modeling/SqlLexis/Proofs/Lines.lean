import Mathlib.Data.String.Basic
import SqlLexis.Location.NamedText
import SqlLexis.Proofs.Gap

/-!
# Lines and columns

A place in a text is given by what stands before it. Its line is one more than the line feeds
there, its column one more than the characters behind the last of them; this file shows that the
search through the starts of the lines finds both (`NamedText.lineCol_of_append`), and which
characters are shown as the line (`NamedText.lineAt?_of_append`).

Both rest on one picture of the text: a part after which a line starts (`StartsLine`), a part
without line feed, and a part before which a line ends (`LineEnd`).
-/

namespace SqlLexis

namespace Text

/-! ## Bytes -/

/-- The bytes are those of the text as a string. -/
theorem byteLength_eq_utf8ByteSize (cs : List Char) :
    byteLength cs = (String.ofList cs).utf8ByteSize := by
  rw [String.utf8ByteSize_ofList]
  induction cs with
  | nil => rfl
  | cons c cs ih => rw [byteLength, ih, String.utf8Len_cons, Nat.add_comm]

theorem takeBytes_append (as bs : List Char) : takeBytes (byteLength as) (as ++ bs) = as := by
  induction as with
  | nil =>
      cases bs with
      | nil => rfl
      | cons b bs =>
          have hpos : ¬ b.utf8Size ≤ 0 := Nat.not_le.mpr b.utf8Size_pos
          rw [byteLength, List.nil_append, takeBytes, if_neg hpos]
  | cons a as ih =>
      rw [byteLength, List.cons_append, takeBytes, if_pos (Nat.le_add_right _ _),
        Nat.add_sub_cancel_left, ih]

theorem dropBytes_append (as bs : List Char) : dropBytes (byteLength as) (as ++ bs) = bs := by
  have h := takeBytes_append_dropBytes (byteLength as) (as ++ bs)
  rw [takeBytes_append] at h
  exact List.append_cancel_left h

/-! ## Where lines start -/

/-- A line starts behind this: behind nothing, or behind a line feed. -/
def StartsLine (cs : List Char) : Prop := ∀ c ∈ cs.getLast?, c = '\n'

/-- The characters behind the last line feed. -/
def lastLine (cs : List Char) : List Char := (cs.reverse.takeWhile (· != '\n')).reverse

/-- The line in which the place behind `before` is, from one. -/
def lineNumber (before : List Char) : Nat := before.count '\n' + 1

/-- The column at which the place behind `before` is, from one. -/
def columnNumber (before : List Char) : Nat := (lastLine before).length + 1

theorem StartsLine.nil_or_concat {cs : List Char} (h : StartsLine cs) :
    cs = [] ∨ ∃ as, cs = as ++ ['\n'] := by
  rcases List.eq_nil_or_concat cs with rfl | ⟨as, c, rfl⟩
  · exact Or.inl rfl
  · obtain rfl : c = '\n' := h c (by simp)
    exact Or.inr ⟨as, by simp⟩

theorem startsLine_concat (cs : List Char) : StartsLine (cs ++ ['\n']) := by
  intro c hc
  obtain rfl : '\n' = c := by simpa using hc
  rfl

/-- What stands before the last line ends where that line starts. -/
theorem exists_startsLine (cs : List Char) :
    ∃ as, cs = as ++ lastLine cs ∧ StartsLine as ∧ '\n' ∉ lastLine cs := by
  refine ⟨(cs.reverse.dropWhile (· != '\n')).reverse, ?_, ?_, ?_⟩
  · rw [lastLine, ← List.reverse_append, List.takeWhile_append_dropWhile, List.reverse_reverse]
  · intro c hc
    rw [List.getLast?_reverse] at hc
    have h := List.head?_dropWhile_not (· != '\n') cs.reverse
    rw [Option.mem_def.mp hc] at h
    simpa using h
  · intro hmem
    exact absurd (List.mem_takeWhile_imp (List.mem_reverse.mp hmem)) (by simp)

theorem lineNumber_append {as bs : List Char} (hb : '\n' ∉ bs) :
    lineNumber (as ++ bs) = as.count '\n' + 1 := by
  rw [lineNumber, List.count_append, List.count_eq_zero.mpr hb, Nat.add_zero]

theorem lineNumber_le (before : List Char) : lineNumber before ≤ before.length + 1 :=
  Nat.succ_le_succ List.count_le_length

theorem columnNumber_le (before : List Char) : columnNumber before ≤ before.length + 1 := by
  obtain ⟨as, has, -, -⟩ := exists_startsLine before
  have hlen := congrArg List.length has
  rw [List.length_append] at hlen
  rw [columnNumber]
  omega

end Text

namespace NamedText

open Text

/-! ## The starts that are searched -/

theorem startsAfterFeeds_append (pos : Nat) (as bs : List Char) :
    startsAfterFeeds pos (as ++ bs) =
      startsAfterFeeds pos as ++ startsAfterFeeds (pos + byteLength as) bs := by
  induction as generalizing pos with
  | nil => rfl
  | cons a as ih =>
      simp only [List.cons_append, startsAfterFeeds, byteLength, ih, Nat.add_assoc]
      split <;> rfl

theorem length_startsAfterFeeds (pos : Nat) (cs : List Char) :
    (startsAfterFeeds pos cs).length = cs.count '\n' := by
  induction cs generalizing pos with
  | nil => rfl
  | cons c cs ih =>
      simp only [startsAfterFeeds]
      split
      · next hc => simp [hc, ih]
      · next hc => simp [hc, ih]

theorem startsAfterFeeds_bounds {pos p : Nat} {cs : List Char}
    (h : p ∈ startsAfterFeeds pos cs) : pos < p ∧ p ≤ pos + byteLength cs := by
  induction cs generalizing pos with
  | nil => simp [startsAfterFeeds] at h
  | cons c cs ih =>
      have hpos := c.utf8Size_pos
      have htail : p ∈ startsAfterFeeds (pos + c.utf8Size) cs →
          pos < p ∧ p ≤ pos + (c.utf8Size + byteLength cs) := by
        intro hp
        have := ih hp
        omega
      simp only [startsAfterFeeds] at h
      rw [byteLength]
      split at h
      · rcases List.mem_cons.mp h with rfl | hp
        · omega
        · exact htail hp
      · exact htail h

variable {t : NamedText}

theorem length_lineStarts (t : NamedText) :
    t.lineStarts.length = t.content.count '\n' + 1 := by
  rw [lineStarts, List.length_cons, length_startsAfterFeeds]

/-- The starts up to a place are as many as the number of its line says. -/
theorem takeWhile_lineStarts {as bs : List Char} (h : t.content = as ++ bs) :
    (t.lineStarts.takeWhile (· ≤ byteLength as)).length = lineNumber as := by
  have hbefore : ∀ p ∈ 0 :: startsAfterFeeds 0 as, decide (p ≤ byteLength as) = true := by
    intro p hp
    rcases List.mem_cons.mp hp with rfl | hp
    · simp
    · have := (startsAfterFeeds_bounds hp).2
      simpa using this
  have hbehind : (startsAfterFeeds (byteLength as) bs).takeWhile (· ≤ byteLength as) = [] := by
    rw [List.takeWhile_eq_nil_iff]
    intro hpos
    have := (startsAfterFeeds_bounds (List.get_mem _ ⟨0, hpos⟩)).1
    simpa using this
  rw [lineStarts, h, startsAfterFeeds_append, Nat.zero_add, ← List.cons_append,
    List.takeWhile_append_of_pos hbefore, hbehind, List.append_nil, List.length_cons,
    length_startsAfterFeeds, lineNumber]

/-- Behind each line feed a line starts. -/
theorem lineStart?_of_append {as bs : List Char} (h : t.content = as ++ bs)
    (ha : StartsLine as) : t.lineStart? (as.count '\n') = some (byteLength as) := by
  rw [lineStart?, lineStarts, h]
  rcases ha.nil_or_concat with rfl | ⟨cs, rfl⟩
  · rfl
  · have hcount : (cs ++ ['\n']).count '\n' = (startsAfterFeeds 0 cs).length + 1 := by
      rw [List.count_append, length_startsAfterFeeds]
      rfl
    rw [hcount, List.getElem?_cons_succ, startsAfterFeeds_append, startsAfterFeeds_append,
      List.append_assoc, List.getElem?_append_right (Nat.le_refl _), Nat.sub_self,
      byteLength_append, Nat.zero_add]
    rfl

/-! ## Line and column of a place -/

theorem boundary_of_append {as bs : List Char} (h : t.content = as ++ bs) :
    t.boundary (byteLength as) = byteLength as := by
  rw [boundary, h, takeBytes_append]

theorem bytes_of_append {as bs cs : List Char} (h : t.content = as ++ (bs ++ cs)) :
    t.bytes (byteLength as) (byteLength as + byteLength bs) = bs := by
  rw [bytes, h, dropBytes_append, Nat.add_sub_cancel_left, takeBytes_append]

/-- The line and the column of the byte behind `before` are those of that place. -/
theorem lineCol_of_append {before after : List Char} (h : t.content = before ++ after) :
    t.lineCol (byteLength before) = (lineNumber before, columnNumber before) := by
  obtain ⟨as, hbefore, has, hline⟩ := exists_startsLine before
  have hcontent : t.content = as ++ (lastLine before ++ after) := by
    rw [h, ← List.append_assoc, ← hbefore]
  have hnumber : lineNumber before - 1 = as.count '\n' := by
    rw [hbefore, lineNumber_append hline, Nat.add_sub_cancel]
  have hlength : byteLength before = byteLength as + byteLength (lastLine before) := by
    rw [← byteLength_append, ← hbefore]
  simp only [lineCol, boundary_of_append h, takeWhile_lineStarts h, hnumber,
    lineStart?_of_append hcontent has, Option.getD_some]
  rw [hlength, bytes_of_append hcontent, columnNumber]

/-! ## The line that is shown -/

theorem trimLineEnd_feed (cs : List Char) : trimLineEnd (cs ++ ['\n']) = trimLineEnd cs := by
  simp [trimLineEnd]

/-- The line feed behind a line is not shown. -/
theorem trimLineEnd_append_take {bs : List Char} (hb : LineEnd bs) (cs : List Char) :
    trimLineEnd (cs ++ bs.take 1) = trimLineEnd cs := by
  cases bs with
  | nil => rw [List.take_nil, List.append_nil]
  | cons c bs =>
      obtain rfl : c = '\n' := hb c rfl
      exact trimLineEnd_feed cs

/-- Where a line starts, lines counting from zero, or the end of the text behind the last line. -/
def lineBound (t : NamedText) (line : Nat) : Nat :=
  (t.lineStart? line).getD (byteLength t.content)

/-- A line reaches to behind its line feed, or to the end of the text. -/
theorem lineBound_of_append {as line bs : List Char} (h : t.content = as ++ (line ++ bs))
    (hline : '\n' ∉ line) (hb : LineEnd bs) :
    t.lineBound (as.count '\n' + 1) = byteLength as + byteLength (line ++ bs.take 1) := by
  cases bs with
  | nil =>
      have hlast : t.lineStart? (as.count '\n' + 1) = none := by
        rw [lineStart?, List.getElem?_eq_none_iff, length_lineStarts, h]
        simp [List.count_append, List.count_eq_zero.mpr hline]
      rw [lineBound, hlast, Option.getD_none, h, List.take_nil, byteLength_append]
  | cons c bs =>
      obtain rfl : c = '\n' := hb c rfl
      have hfeed : t.content = (as ++ line ++ ['\n']) ++ bs := by simp [h]
      have hcount : (as ++ line ++ ['\n']).count '\n' = as.count '\n' + 1 := by
        simp [List.count_append, List.count_eq_zero.mpr hline]
      have hnext := lineStart?_of_append hfeed (startsLine_concat _)
      rw [hcount] at hnext
      rw [lineBound, hnext, Option.getD_some, List.append_assoc, byteLength_append]
      rfl

/-- A part without line feed between the start and the end of a line is that line. -/
theorem lineAt?_of_append {as line bs : List Char} (h : t.content = as ++ (line ++ bs))
    (ha : StartsLine as) (hline : '\n' ∉ line) (hb : LineEnd bs) :
    t.lineAt? (as.count '\n' + 1) = some (trimLineEnd line) := by
  have hcut : t.content = as ++ ((line ++ bs.take 1) ++ bs.drop 1) := by
    rw [h, List.append_assoc, List.take_append_drop]
  rw [lineAt?, if_neg (Nat.succ_ne_zero _), Nat.add_sub_cancel, lineStart?_of_append h ha,
    Option.map_some]
  congr 1
  show trimLineEnd (t.bytes (byteLength as) (t.lineBound (as.count '\n' + 1))) = trimLineEnd line
  rw [lineBound_of_append h hline hb, bytes_of_append hcut, trimLineEnd_append_take hb]

/-- The snippet of a place shows the line around it: what stands before the place in its line,
and what stands behind it up to the end of the line. -/
theorem snippetAt_of_append {before rest v : List Char} (h : t.content = before ++ (rest ++ v))
    (hrest : '\n' ∉ rest) (hv : LineEnd v) :
    t.snippetAt (byteLength before) =
      ⟨trimLineEnd (lastLine before ++ rest), lineNumber before, columnNumber before⟩ := by
  obtain ⟨as, hbefore, has, hline⟩ := exists_startsLine before
  have hcontent : t.content = as ++ ((lastLine before ++ rest) ++ v) := by
    rw [h, List.append_assoc, ← List.append_assoc as, ← hbefore]
  have hnumber : lineNumber before = as.count '\n' + 1 := by
    rw [hbefore, lineNumber_append hline]
  have hfree : '\n' ∉ lastLine before ++ rest := by simp [hline, hrest]
  have hshown := lineAt?_of_append hcontent has hfree hv
  rw [← hnumber] at hshown
  simp only [snippetAt, lineCol_of_append h, hshown, Option.getD_some]

end NamedText

end SqlLexis
