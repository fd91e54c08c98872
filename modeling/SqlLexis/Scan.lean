import SqlLexis.Scan.Gap
import SqlLexis.Scan.Name
import SqlLexis.Scan.Number
import SqlLexis.Scan.Operator

/-!
# One token

Which rule reads the token at a position. The rules are tried in a fixed order: a
variable, a national string, a name, a hexadecimal number, a decimal number, a symbol, a
string, the end of the text. `scanToken_bounds` says that a token other than the end
takes at least one character and stays inside the text.
-/

namespace SqlLexis.Source

/-- A national string begins at `n`, in a dialect that has them. -/
def beginsNational (s : Source) (f : Forms) (n : Nat) : Bool :=
  f.national && peek (s.rest n) == 'N' && peek (s.rest (n + 1)) == singleQuote

/-- The token at `n`, where no gap begins. -/
def scanToken (s : Source) (d : Dictionary) (f : Forms) (n : Nat) : Except LexicalError Token :=
  let c := peek (s.rest n)
  if f.beginsVariable s n then .ok (s.scanVariable n)
  else if s.beginsNational f n then s.scanChars (n + 1)
  else if isNameStart c then s.scanName d n
  else if s.beginsHex n then s.scanHex n
  else if s.beginsNumber n then .ok (s.scanNumber n)
  else if isSymbolChar c then
    let t := s.scanSymbol n
    if t.kind = .error then .error (s.fault (.unexpectedChar c) n) else .ok t
  else if c = singleQuote ∨ c = doubleQuote then s.scanChars n
  else if s.length ≤ n then .ok ⟨.finish, [], n⟩
  else .error (s.fault (.unexpectedChar c) n)

theorem scanToken_bounds {s : Source} {d : Dictionary} {f : Forms} {n : Nat} {t : Token}
    (h : s.scanToken d f n = .ok t) (ht : t.kind ≠ .finish) : n < t.stop ∧ t.stop ≤ s.length := by
  unfold scanToken at h
  simp only at h
  split at h
  · next hv =>
    obtain rfl := Except.ok.inj h
    exact scanVariable_bounds (Forms.lt_length_of_beginsVariable hv)
  split at h
  · have hb := scanChars_bounds h
    omega
  split at h
  · next hn => exact scanName_bounds hn h
  split at h
  · exact scanHex_bounds h
  split at h
  · next hn =>
    obtain rfl := Except.ok.inj h
    exact scanNumber_bounds hn
  split at h
  · split at h
    · exact absurd h (by simp)
    · next he =>
      obtain rfl := Except.ok.inj h
      exact scanSymbol_bounds he
  split at h
  · exact scanChars_bounds h
  split at h
  · obtain rfl := Except.ok.inj h
    exact absurd rfl ht
  · exact absurd h (by simp)

end SqlLexis.Source
