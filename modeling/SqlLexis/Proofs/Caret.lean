import SqlLexis.LexicalError.Report
import SqlLexis.Proofs.Faults
import SqlLexis.Proofs.Lines

/-!
# The caret stands under the fault

A report on a lexical error gives its place three times: as a byte, as a line and a column, and
as a caret under a line of the text. `failure_points_at_fault` says that all three are the place
of the fault, for every error that a lexer with built-in forms returns.

A line is shown without the carriage returns at its end, so a caret could come to stand beyond
it. That it does not depends on where faults are reported: at a character that is shown, or, for
`0x` without a digit, right behind an `x` (`Faulty.showable`).
-/

namespace SqlLexis

open Text

/-! ## What a report has to say -/

/-- A snippet as two rows, the line behind a margin and a caret below. The caret is last in its
row, as far to the right as the column of the snippet is behind the margin. -/
structure Snippet.CaretUnder (sn : Snippet) (margin indent : List Char) : Prop where
  rows : sn.format = (margin ++ sn.line) ++ '\n' :: (indent ++ ['^'])
  feed_margin : '\n' ∉ margin
  feed_indent : '\n' ∉ indent
  column : indent.length = margin.length + (sn.column - 1)

/-- The snippet shows the character at position `o` of the text in its column, or ends right
before the column and the text has the end of a line at `o`. -/
def Snippet.ShowsAt (sn : Snippet) (text : List Char) (o : Nat) : Prop :=
  (∃ c, sn.line[sn.column - 1]? = some c ∧ text[o]? = some c) ∨
    sn.column = sn.line.length + 1 ∧
      (o = text.length ∨ text[o]? = some '\r' ∨ text[o]? = some '\n')

/-- The report on an error points at it in every way it can. -/
structure LexicalError.PointsAtFault (e : LexicalError) : Prop where
  /-- The byte of the span is the length of what stands before, in UTF-8. -/
  start : e.toDiagnostic.span.start = (String.ofList (e.input.take e.offset)).utf8ByteSize
  line : e.toDiagnostic.span.line.toNat = lineNumber (e.input.take e.offset)
  column : e.toDiagnostic.span.column.toNat = columnNumber (e.input.take e.offset)
  /-- There is one snippet, with the same line and column, and its caret is at the fault. -/
  snippet : ∃ sn, e.toDiagnostic.snippets = [sn] ∧
    sn.lineNumber = lineNumber (e.input.take e.offset) ∧
    sn.column = columnNumber (e.input.take e.offset) ∧
    '\n' ∉ sn.line ∧ sn.ShowsAt e.input e.offset ∧ ∃ margin indent, sn.CaretUnder margin indent
  /-- The token at the fault is the character there, or empty at the end of the text. -/
  token : e.token.kind = .error ∧
    ((∃ c, e.input[e.offset]? = some c ∧ e.token.literals = [c]) ∨
      e.offset = e.input.length ∧ e.token.literals = [])

/-! ## The two rows of a snippet -/

theorem feed_not_mem_decimal (n : Nat) : '\n' ∉ decimal n := by
  intro h
  exact absurd (Nat.isDigit_of_mem_toDigits (by decide) (by decide) h) (by decide)

/-- The caret is under the column whatever the width of the line number. -/
theorem Snippet.exists_caretUnder (sn : Snippet) :
    ∃ margin indent, sn.CaretUnder margin indent := by
  have hwidth : (decimal sn.lineNumber).length ≤ sn.gutter := Nat.le_max_left _ _
  refine ⟨padLeft ' ' sn.gutter (decimal sn.lineNumber) ++ [' ', '|', ' '],
    List.replicate sn.gutter ' ' ++ [' ', '|', ' '] ++ List.replicate (sn.column - 1) ' ',
    ?_, ?_, ?_, ?_⟩
  · simp only [Snippet.format, lineRow, caretRow, List.append_assoc, List.cons_append,
      List.nil_append]
  · simp [padLeft, feed_not_mem_decimal]
  · simp
  · simp only [padLeft, List.length_append, List.length_replicate, List.length_cons,
      List.length_nil]
    omega

/-! ## The line that is shown -/

/-- Only ends of lines are cut off. -/
theorem exists_trimLineEnd (cs : List Char) :
    ∃ ends, cs = NamedText.trimLineEnd cs ++ ends ∧ ∀ c ∈ ends, c = '\n' ∨ c = '\r' := by
  refine ⟨(cs.reverse.takeWhile fun c => c == '\n' || c == '\r').reverse, ?_, ?_⟩
  · rw [NamedText.trimLineEnd, ← List.reverse_append, List.takeWhile_append_dropWhile,
      List.reverse_reverse]
  · intro c hc
    simpa using List.mem_takeWhile_imp (List.mem_reverse.mp hc)

theorem feed_not_mem_trimLineEnd {cs : List Char} (h : '\n' ∉ cs) :
    '\n' ∉ NamedText.trimLineEnd cs := by
  intro hmem
  obtain ⟨ends, hcs, -⟩ := exists_trimLineEnd cs
  apply h
  rw [hcs]
  exact List.mem_append_left _ hmem

/-- A place at which a caret is seen to point: there is a character that is no end of a line, or
no carriage return stands right before. -/
def Showable (before after : List Char) : Prop :=
  (∃ c ∈ after.head?, c ≠ '\n' ∧ c ≠ '\r') ∨ before.getLast? ≠ some '\r'

/-- Behind the part `shown` of a line that stands before a place, the trimmed line goes on with
the character at the place, or it ends there and the end of the line follows. -/
theorem trimLineEnd_at {shown rest : List Char} (hs : '\n' ∉ shown) (hr : '\n' ∉ rest)
    (hplace : Showable shown rest) :
    (∃ c, (NamedText.trimLineEnd (shown ++ rest))[shown.length]? = some c ∧
        rest.head? = some c) ∨
      (NamedText.trimLineEnd (shown ++ rest)).length = shown.length ∧
        ∀ c ∈ rest.head?, c = '\r' := by
  obtain ⟨ends, hline, hends⟩ := exists_trimLineEnd (shown ++ rest)
  generalize NamedText.trimLineEnd (shown ++ rest) = kept at hline
  have hcr : ∀ c ∈ shown ++ rest, c ∈ ends → c = '\r' := by
    intro c hc hce
    rcases hends c hce with rfl | rfl
    · rcases List.mem_append.mp hc with h | h
      · exact absurd h hs
      · exact absurd h hr
    · rfl
  rcases Nat.lt_or_ge shown.length kept.length with hlt | hge
  · left
    obtain ⟨c, hc⟩ : ∃ c, kept[shown.length]? = some c :=
      ⟨_, List.getElem?_eq_getElem hlt⟩
    have hkeep : (kept ++ ends)[shown.length]? = kept[shown.length]? :=
      List.getElem?_append_left hlt
    refine ⟨c, hc, ?_⟩
    rw [List.head?_eq_getElem?, ← hc, ← hkeep, ← hline,
      List.getElem?_append_right (Nat.le_refl _), Nat.sub_self]
  · right
    obtain ⟨cut, rfl, rfl⟩ : ∃ cut, shown = kept ++ cut ∧ ends = cut ++ rest := by
      obtain ⟨cut, hcutOffShown⟩ := List.prefix_of_prefix_length_le ⟨ends, hline.symm⟩
        (List.prefix_append shown rest) hge
      refine ⟨cut, hcutOffShown.symm, ?_⟩
      rw [← hcutOffShown, List.append_assoc] at hline
      exact (List.append_cancel_left hline).symm
    have hrest : ∀ c ∈ rest.head?, c = '\r' := by
      intro c hc
      have hmem : c ∈ rest := List.mem_of_mem_head? hc
      exact hcr c (by simp [hmem]) (by simp [hmem])
    refine ⟨?_, hrest⟩
    rcases List.eq_nil_or_concat cut with rfl | ⟨cut, c, rfl⟩
    · simp
    · exfalso
      obtain rfl : c = '\r' := hcr c (by simp) (by simp)
      rcases hplace with ⟨c, hc, -, hne⟩ | hlast
      · exact hne (hrest c hc)
      · exact hlast (by simp)

/-- In its line a place is as showable as in the text. -/
theorem Showable.line {before rest v : List Char} (h : Showable before (rest ++ v))
    (hv : LineEnd v) : Showable (lastLine before) rest := by
  rcases h with ⟨c, hc, hfeed, hreturn⟩ | hlast
  · left
    cases rest with
    | nil => exact absurd (hv c hc) hfeed
    | cons d rest => exact ⟨c, hc, hfeed, hreturn⟩
  · right
    intro hreturn
    obtain ⟨as, hbefore, -, -⟩ := exists_startsLine before
    apply hlast
    rw [hbefore, List.getLast?_append, hreturn]
    rfl

/-- The snippet of a showable place shows it. -/
theorem shows_trimLineEnd {text rest v : List Char} {o n : Nat} (ho : o ≤ text.length)
    (hafter : text.drop o = rest ++ v) (hrest : '\n' ∉ rest) (hv : LineEnd v)
    (h : Showable (text.take o) (rest ++ v)) :
    Snippet.ShowsAt
      ⟨NamedText.trimLineEnd (lastLine (text.take o) ++ rest), n, columnNumber (text.take o)⟩
      text o := by
  have hat : text[o]? = (rest ++ v).head? := by rw [← hafter, List.head?_drop]
  obtain ⟨as, -, -, hfeed⟩ := exists_startsLine (text.take o)
  rcases trimLineEnd_at hfeed hrest (h.line hv) with ⟨c, hc, hhead⟩ | ⟨hlen, hhead⟩
  · refine Or.inl ⟨c, hc, ?_⟩
    rw [hat, List.head?_append, hhead]
    rfl
  · refine Or.inr ⟨congrArg (· + 1) hlen.symm, ?_⟩
    rw [hat]
    cases rest with
    | cons c rest =>
        obtain rfl : c = '\r' := hhead c rfl
        exact Or.inr (Or.inl rfl)
    | nil =>
        cases v with
        | nil =>
            have hend : text.length ≤ o := List.drop_eq_nil_iff.mp hafter
            exact Or.inl (Nat.le_antisymm ho hend)
        | cons c v =>
            obtain rfl : c = '\n' := hv c rfl
            exact Or.inr (Or.inr rfl)

/-! ## The report -/

namespace LexicalError

variable {e : LexicalError}

theorem span_toDiagnostic (e : LexicalError) :
    e.toDiagnostic.span =
      .point (byteLength (e.input.take e.offset))
        (lineNumber (e.input.take e.offset)).toUInt32
        (columnNumber (e.input.take e.offset)).toUInt32 := by
  have hcontent : e.named.content = e.input.take e.offset ++ e.input.drop e.offset :=
    (List.take_append_drop _ _).symm
  have hbyte : e.named.charToByte e.offset = byteLength (e.input.take e.offset) := rfl
  simp only [toDiagnostic, hbyte, NamedText.lineCol_of_append hcontent]

theorem snippets_toDiagnostic {rest v : List Char} (h : e.input.drop e.offset = rest ++ v)
    (hrest : '\n' ∉ rest) (hv : LineEnd v) :
    e.toDiagnostic.snippets =
      [⟨NamedText.trimLineEnd (lastLine (e.input.take e.offset) ++ rest),
        lineNumber (e.input.take e.offset), columnNumber (e.input.take e.offset)⟩] := by
  have hcontent : e.named.content = e.input.take e.offset ++ (rest ++ v) := by
    rw [← h]
    exact (List.take_append_drop _ _).symm
  have hbyte : e.named.charToByte e.offset = byteLength (e.input.take e.offset) := rfl
  simp only [toDiagnostic, hbyte, NamedText.snippetAt_of_append hcontent hrest hv]

theorem token_at (ho : e.offset ≤ e.input.length) :
    e.token.kind = .error ∧
      ((∃ c, e.input[e.offset]? = some c ∧ e.token.literals = [c]) ∨
        e.offset = e.input.length ∧ e.token.literals = []) := by
  refine ⟨rfl, ?_⟩
  rcases Nat.lt_or_eq_of_le ho with hlt | heq
  · left
    refine ⟨e.input[e.offset], List.getElem?_eq_getElem hlt, ?_⟩
    rw [token, List.drop_eq_getElem_cons hlt]
    rfl
  · right
    refine ⟨heq, ?_⟩
    rw [token, heq, List.drop_length]
    rfl

/-- An error at a showable place is pointed at. -/
theorem pointsAtFault_of_showable (hlen : e.input.length < UInt32.size - 1)
    (ho : e.offset ≤ e.input.length)
    (h : Showable (e.input.take e.offset) (e.input.drop e.offset)) : e.PointsAtFault := by
  have hbefore : (e.input.take e.offset).length ≤ e.input.length := List.length_take_le' _ _
  have hline := lineNumber_le (e.input.take e.offset)
  have hcolumn := columnNumber_le (e.input.take e.offset)
  obtain ⟨rest, v, hafter, hrest, hv⟩ := exists_line (e.input.drop e.offset)
  rw [hafter] at h
  refine ⟨?_, ?_, ?_, ⟨_, snippets_toDiagnostic hafter hrest hv, rfl, rfl, ?_, ?_, ?_⟩,
    token_at ho⟩
  · rw [span_toDiagnostic, ← byteLength_eq_utf8ByteSize]
    rfl
  · rw [span_toDiagnostic]
    exact UInt32.toNat_ofNat_of_lt' (by omega)
  · rw [span_toDiagnostic]
    exact UInt32.toNat_ofNat_of_lt' (by omega)
  · obtain ⟨as, -, -, hfeed⟩ := exists_startsLine (e.input.take e.offset)
    exact feed_not_mem_trimLineEnd (by simp [hfeed, hrest])
  · exact shows_trimLineEnd ho hafter hrest hv h
  · exact Snippet.exists_caretUnder _

end LexicalError

/-! ## Where faults are reported -/

/-- A token breaks at a character that its line shows, or right behind the `x` of a number. -/
theorem Broken.showable {f : Forms} {r : List Char} {c : LexicalError.Cause} {k : Nat}
    (h : Broken f r c k) (before : List Char) :
    0 < r.length ∧ k ≤ r.length ∧ Showable (before ++ r.take k) (r.drop k) := by
  cases h with
  | @stray c u hblank _ =>
      refine ⟨by simp, Nat.zero_le _, Or.inl ⟨c, rfl, ?_, ?_⟩⟩
      · rintro rfl
        exact absurd hblank (by decide)
      · rintro rfl
        exact absurd hblank (by decide)
  | @quote q u hq _ =>
      refine ⟨by simp, Nat.zero_le _, Or.inl ⟨q, rfl, ?_, ?_⟩⟩
      · rintro rfl
        exact absurd hq (by decide)
      · rintro rfl
        exact absurd hq (by decide)
  | national _ _ =>
      exact ⟨by simp, by simp, Or.inl ⟨singleQuote, rfl, by decide, by decide⟩⟩
  | hex _ =>
      refine ⟨by simp, by simp, Or.inr ?_⟩
      simp

/-- Faults are reported inside the text or at its end, where a caret is seen to point at them. -/
theorem Faulty.showable {s : Source} {f : Forms} {n o : Nat} {c : LexicalError.Cause}
    (h : Faulty s f n c o) :
    o ≤ s.length ∧ Showable (s.chars.take o) (s.chars.drop o) := by
  have hopen : ∀ {g u : List Char}, s.rest n = g ++ '/' :: '*' :: u →
      n + g.length ≤ s.length ∧
        Showable (s.chars.take (n + g.length)) (s.chars.drop (n + g.length)) := by
    intro g u hr
    have hrest := Source.rest_of_append hr
    refine ⟨?_, Or.inl ⟨'/', ?_, by decide, by decide⟩⟩
    · have := Source.lt_length_of_rest_eq_cons hrest
      omega
    · rw [show s.chars.drop (n + g.length) = _ from hrest]
      rfl
  cases h with
  | hint hr => exact hopen hr
  | comment hr => exact hopen hr
  | @token g r c k hr _ _ hbroken =>
      have hrest : s.chars.drop (n + g.length) = r := Source.rest_of_append hr
      have hlen := s.length_rest (n + g.length)
      obtain ⟨hpos, hk, hshow⟩ := hbroken.showable (s.chars.take (n + g.length))
      rw [Source.rest, hrest] at hlen
      have hdrop : s.chars.drop (n + g.length + k) = r.drop k := by rw [← hrest, List.drop_drop]
      refine ⟨by omega, ?_⟩
      rwa [List.take_add, hrest, hdrop]

/-! ## The errors of a lexer -/

/-- After any calls on a fresh lexer with built-in forms, the report on every error that a call
returns points at the fault, as long as line and column fit into their numbers. -/
theorem failure_points_at_fault {f : Forms} (hf : f.BuiltIn) (s : Source) (d : Dictionary)
    (hlen : s.length < UInt32.size - 1) (calls : List Lexer.Call) (c : Lexer.Call)
    {e : LexicalError} (h : c.failure? ((Lexer.fresh s d f).after calls) = some e) :
    e.input = s.chars ∧ e.PointsAtFault := by
  obtain ⟨hs, -, hforms⟩ := Lexer.after_input (Lexer.fresh s d f) calls
  obtain ⟨l, ⟨rfl, rfl⟩, hup⟩ :=
    Lexer.Call.failure_origin (P := fun l => l.source = s ∧ l.forms = f) (fun _ _ h _ => h)
      ⟨hs, hforms⟩ h
  obtain ⟨hinput, hfaulty⟩ := Lexer.faulty_of_scan hf (Lexer.scan_of_upcoming_error hup)
  obtain ⟨ho, hshow⟩ := hfaulty.showable
  refine ⟨hinput, LexicalError.pointsAtFault_of_showable ?_ ?_ ?_⟩
  · rwa [hinput]
  · rwa [hinput]
  · rwa [hinput]

/-- No digit follows `0x` in the second line, but two carriage returns do, of which the line
shows none. -/
theorem failure_points_at_fault_before_returns :
    let s : Source := .ofString "'é'\n'日' 0x\r\r\ny"
    let l := Lexer.fresh s (.ofWords []) {}
    let e : LexicalError := ⟨.missingHexDigits, s.chars, 10⟩
    (Forms.BuiltIn {} ∧ s.length < UInt32.size - 1 ∧
      Lexer.Call.tokenize.failure? (l.after [.next]) = some e) ∧
    e.PointsAtFault ∧ e.toDiagnostic.span = ⟨13, 13, 2, 7, ⟨0⟩⟩ ∧
      e.toDiagnostic.snippets = [⟨"'日' 0x".toList, 2, 7⟩] ∧ e.token = ⟨.error, ['\r'], 10⟩ := by
  intro s l e
  have hf : Forms.BuiltIn {} := ⟨.inl rfl, .inl rfl⟩
  have hlen : s.length < UInt32.size - 1 := by decide
  have hfails : Lexer.Call.tokenize.failure? (l.after [.next]) = some e := by decide +kernel
  have hpoints := (failure_points_at_fault hf s (.ofWords []) hlen [.next] .tokenize hfails).2
  exact ⟨⟨hf, hlen, hfails⟩, hpoints, by decide +kernel, by decide +kernel, by decide⟩

end SqlLexis
