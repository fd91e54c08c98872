import SqlLexis.LexicalError

/-!
# Quoted text

A quoted text ends at the first quote that is not doubled; a doubled quote stands for
one quote. `encode` writes such a text, `decode` reads its body back.
-/

namespace SqlLexis

namespace Quoted

/-- How many characters follow the opening quote, the closing quote included; none if the
text ends first. The character after a quote is read as `peek` reads it. -/
def close (q : Char) : List Char → Option Nat
  | [] => none
  | [c] => if c = q ∧ q ≠ endOfInput then some 1 else none
  | c :: d :: cs =>
    if c = q then
      if d = q then (close q cs).map (· + 2) else some 1
    else
      (close q (d :: cs)).map (· + 1)

/-- Every doubled quote becomes one, from left to right. -/
def decode (q : Char) : List Char → List Char
  | c :: d :: cs => if c = q ∧ d = q then q :: decode q cs else c :: decode q (d :: cs)
  | cs => cs

/-- Every quote becomes two. -/
def encode (q : Char) : List Char → List Char
  | [] => []
  | c :: cs => if c = q then q :: q :: encode q cs else c :: encode q cs

theorem close_bounds {q : Char} {cs : List Char} {k : Nat} (h : close q cs = some k) :
    0 < k ∧ k ≤ cs.length := by
  fun_induction close q cs generalizing k with
  | case1 => simp at h
  | case2 c hc =>
    obtain rfl : 1 = k := by simpa using h
    simp
  | case3 c hc => simp at h
  | case4 cs ih =>
    obtain ⟨j, hj, rfl⟩ := Option.map_eq_some_iff.mp h
    have := (ih hj).2
    simp only [List.length_cons]
    omega
  | case5 =>
    obtain rfl : 1 = k := by simpa using h
    simp
  | case6 c d cs _ ih =>
    obtain ⟨j, hj, rfl⟩ := Option.map_eq_some_iff.mp h
    have := (ih hj).2
    simp only [List.length_cons] at this ⊢
    omega

end Quoted

namespace Source

/-- The position after the quoted text that `q` opens at `n`. -/
def quotedEnd (s : Source) (q : Char) (n : Nat) : Except LexicalError Nat :=
  match Quoted.close q (s.rest (n + 1)) with
  | some k => .ok (n + 1 + k)
  | none => .error (s.fault (.unterminatedChars q) n)

/-- The string whose opening quote stands at `n`, whatever character that is. -/
def scanChars (s : Source) (n : Nat) : Except LexicalError Token :=
  let q := peek (s.rest n)
  match s.quotedEnd q n with
  | .ok m => .ok ⟨.chars, Quoted.decode q (s.slice (n + 1) (m - 1)), m⟩
  | .error e => .error e

theorem quotedEnd_bounds {s : Source} {q : Char} {n m : Nat} (h : s.quotedEnd q n = .ok m) :
    n < m ∧ m ≤ s.length := by
  unfold quotedEnd at h
  split at h
  · next k hk =>
    obtain rfl : n + 1 + k = m := by simpa using h
    have hb := Quoted.close_bounds hk
    have hl := s.length_rest (n + 1)
    omega
  · exact absurd h (by simp)

theorem scanChars_bounds {s : Source} {n : Nat} {t : Token} (h : s.scanChars n = .ok t) :
    n < t.stop ∧ t.stop ≤ s.length := by
  unfold scanChars at h
  simp only at h
  split at h
  · next m hm =>
    obtain rfl := Except.ok.inj h
    exact quotedEnd_bounds hm
  · exact absurd h (by simp)

end Source

end SqlLexis
