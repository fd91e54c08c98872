import SqlLexis.Dictionary
import SqlLexis.Scan.Quoted

/-!
# Names and variables

A name is a run of name characters, looked up in the dictionary, or any text between
name quotes, which is never reserved and keeps its quotes. A variable is its opening
character, a second `@` if there is one, and a run of name characters and dots.
-/

namespace SqlLexis.Source

/-- The name at `n`. -/
def scanName (s : Source) (d : Dictionary) (n : Nat) : Except LexicalError Token :=
  if peek (s.rest n) = nameQuote then
    match s.quotedEnd nameQuote n with
    | .ok m => .ok (s.cut .identifier n (m - n))
    | .error e => .error e
  else
    let k := runLength isNameChar (s.rest n)
    .ok (s.cut (d.classify (s.slice n (n + k)) .identifier) n k)

/-- A character that a variable may go on with. -/
def isVariableChar (c : Char) : Bool := isNameChar c || c == '.'

/-- How long the variable at the front of a text is; its first character is taken as it is. -/
def variableLength (cs : List Char) : Nat :=
  match cs.drop 1 with
  | '@' :: r => 2 + runLength isVariableChar r
  | r => 1 + runLength isVariableChar r

/-- The variable at `n`. -/
def scanVariable (s : Source) (n : Nat) : Token :=
  s.cut .bindVariable n (variableLength (s.rest n))

theorem scanName_bounds {s : Source} {d : Dictionary} {n : Nat} {t : Token}
    (hb : isNameStart (peek (s.rest n)) = true) (h : s.scanName d n = .ok t) :
    n < t.stop ∧ t.stop ≤ s.length := by
  unfold scanName at h
  split at h
  · split at h
    · next m hm =>
      obtain rfl := Except.ok.inj h
      have hq := quotedEnd_bounds hm
      simp only [cut]
      omega
    · exact absurd h (by simp)
  · next hq =>
    obtain rfl := Except.ok.inj h
    have hl := s.length_rest n
    have hle := runLength_le isNameChar (s.rest n)
    cases hr : s.rest n with
    | nil => simp [hr, isNameStart, isLetter, endOfInput, nameQuote] at hb
    | cons c r =>
      have hc : isNameChar c = true := by
        simp only [hr, peek_cons, isNameStart, isNameChar] at hb hq ⊢
        simp [hq] at hb
        simp only [Bool.or_eq_true, beq_iff_eq]
        rcases hb with (hb | hb) | hb <;> simp [hb]
      have hpos := runLength_pos hc r
      rw [hr] at hl hle
      simp only [cut]
      omega

theorem variableLength_bounds {cs : List Char} (h : cs ≠ []) :
    0 < variableLength cs ∧ variableLength cs ≤ cs.length := by
  obtain ⟨c, r, rfl⟩ := List.exists_cons_of_ne_nil h
  unfold variableLength
  split
  · next r' hr =>
    have := runLength_le isVariableChar r'
    simp only [List.drop_succ_cons, List.drop_zero] at hr
    simp only [hr, List.length_cons]
    omega
  · next r' hr =>
    have := runLength_le isVariableChar r
    simp only [List.drop_succ_cons, List.drop_zero, List.length_cons]
    omega

theorem scanVariable_bounds {s : Source} {n : Nat} (hn : n < s.length) :
    n < (s.scanVariable n).stop ∧ (s.scanVariable n).stop ≤ s.length := by
  have hl := s.length_rest n
  have hne : s.rest n ≠ [] := by
    intro h
    rw [h] at hl
    simp at hl
    omega
  have hb := variableLength_bounds hne
  simp only [scanVariable, cut]
  omega

end SqlLexis.Source
