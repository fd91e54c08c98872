import SqlLexis.Proofs.Position

/-!
# Quoted texts

Between its quotes a quoted text is written with every quote doubled. The end of such a
text is found by one loop and its content by another; `close_encode`, `exists_of_close` and
`decode_encode` say that both follow the same rule, the one `encode` writes by.
-/

namespace SqlLexis.Quoted

/-- A text between quotes, every quote in it doubled. -/
def wrap (q : Char) (body : List Char) : List Char := q :: (encode q body ++ [q])

theorem wrap_append (q : Char) (body r : List Char) :
    wrap q body ++ r = q :: (encode q body ++ q :: r) := by
  simp [wrap]

theorem length_wrap (q : Char) (body : List Char) :
    (wrap q body).length = (encode q body).length + 2 := by
  simp [wrap]

theorem decode_cons_of_ne {q c : Char} (hc : c ≠ q) (cs : List Char) :
    decode q (c :: cs) = c :: decode q cs := by
  cases cs with
  | nil => rfl
  | cons d cs =>
      rw [decode, if_neg]
      rintro ⟨h, -⟩
      exact hc h

theorem decode_encode (q : Char) (body : List Char) : decode q (encode q body) = body := by
  induction body with
  | nil => rfl
  | cons c body ih =>
      by_cases hc : c = q
      · subst hc
        rw [encode, if_pos rfl, decode, if_pos ⟨rfl, rfl⟩, ih]
      · rw [encode, if_neg hc, decode_cons_of_ne hc, ih]

/-- A quoted text is closed by the quote that no other quote follows. -/
theorem close_encode {q : Char} (hq : q ≠ endOfInput) {body r : List Char} (hr : peek r ≠ q) :
    close q (encode q body ++ q :: r) = some ((encode q body).length + 1) := by
  induction body with
  | nil =>
      cases r with
      | nil => simp [encode, close, hq]
      | cons c r =>
          have hc : c ≠ q := hr
          simp [encode, close, hc]
  | cons c body ih =>
      by_cases hc : c = q
      · subst hc
        simp only [encode, if_true, List.cons_append, close, ih, Option.map_some,
          List.length_cons]
      · rw [encode, if_neg hc]
        obtain ⟨d, u, hu⟩ : ∃ d u, encode q body ++ q :: r = d :: u := by
          cases encode q body with
          | nil => exact ⟨q, r, rfl⟩
          | cons d u => exact ⟨d, u ++ q :: r, rfl⟩
        rw [hu] at ih
        rw [List.cons_append, hu, close, if_neg hc, ih]
        rfl

theorem exists_of_close {q : Char} {cs : List Char} {k : Nat} (h : close q cs = some k) :
    ∃ body r, cs = encode q body ++ q :: r ∧ k = (encode q body).length + 1 ∧ peek r ≠ q := by
  fun_induction close q cs generalizing k with
  | case1 => simp at h
  | case2 c hc =>
      obtain rfl : 1 = k := by simpa using h
      obtain ⟨rfl, hq⟩ := hc
      exact ⟨[], [], rfl, rfl, hq.symm⟩
  | case3 c hc => simp at h
  | case4 cs ih =>
      obtain ⟨j, hj, rfl⟩ := Option.map_eq_some_iff.mp h
      obtain ⟨body, r, rfl, rfl, hr⟩ := ih hj
      exact ⟨q :: body, r, by simp [encode], by simp [encode], hr⟩
  | case5 d cs hd =>
      obtain rfl : 1 = k := by simpa using h
      exact ⟨[], d :: cs, rfl, rfl, hd⟩
  | case6 c d cs hc ih =>
      obtain ⟨j, hj, rfl⟩ := Option.map_eq_some_iff.mp h
      obtain ⟨body, r, hcs, rfl, hr⟩ := ih hj
      exact ⟨c :: body, r, by simp [encode, hc, hcs], by simp [encode, hc], hr⟩

end SqlLexis.Quoted

namespace SqlLexis.Source

open Quoted

variable {s : Source} {n : Nat}

theorem quotedEnd_of_wrap {q : Char} (hq : q ≠ endOfInput) {body r : List Char}
    (hs : s.rest n = wrap q body ++ r) (hr : peek r ≠ q) :
    s.quotedEnd q n = .ok (n + (wrap q body).length) := by
  have hrest : s.rest (n + 1) = encode q body ++ q :: r := by
    rw [rest_add, hs, wrap_append]
    rfl
  rw [quotedEnd, hrest, close_encode hq hr, length_wrap]
  show Except.ok _ = _
  congr 1
  omega

theorem exists_wrap_of_quotedEnd {q : Char} {m : Nat} {u : List Char} (hs : s.rest n = q :: u)
    (h : s.quotedEnd q n = .ok m) :
    ∃ body r, s.rest n = wrap q body ++ r ∧ peek r ≠ q ∧ m = n + (wrap q body).length := by
  have hrest : s.rest (n + 1) = u := by
    rw [rest_add, hs]
    rfl
  rw [quotedEnd, hrest] at h
  split at h
  · next k hk =>
      obtain ⟨body, r, rfl, rfl, hr⟩ := exists_of_close hk
      refine ⟨body, r, by rw [hs, wrap_append], hr, ?_⟩
      rw [← Except.ok.inj h, length_wrap]
      omega
  · exact absurd h (by simp)

/-- What stands between the quotes of a quoted text. -/
theorem slice_wrap {q : Char} {body r : List Char} (hs : s.rest n = wrap q body ++ r) :
    s.slice (n + 1) (n + (wrap q body).length - 1) = encode q body := by
  have hrest : s.rest (n + 1) = encode q body ++ q :: r := by
    rw [rest_add, hs, wrap_append]
    rfl
  rw [length_wrap, show n + ((encode q body).length + 2) - 1 =
    n + 1 + (encode q body).length by omega, slice_of_append hrest]

theorem scanChars_of_wrap {q : Char} (hq : q ≠ endOfInput) {body r : List Char}
    (hs : s.rest n = wrap q body ++ r) (hr : peek r ≠ q) :
    s.scanChars n = .ok ⟨.chars, body, n + (wrap q body).length⟩ := by
  have hpeek : peek (s.rest n) = q := by
    rw [hs]
    rfl
  simp only [scanChars, hpeek, quotedEnd_of_wrap hq hs hr, slice_wrap hs, decode_encode]

theorem exists_wrap_of_scanChars {q : Char} {t : Token} {u : List Char} (hs : s.rest n = q :: u)
    (h : s.scanChars n = .ok t) :
    ∃ body r, s.rest n = wrap q body ++ r ∧ peek r ≠ q ∧
      t = ⟨.chars, body, n + (wrap q body).length⟩ := by
  have hpeek : peek (s.rest n) = q := by
    rw [hs]
    rfl
  simp only [scanChars, hpeek] at h
  split at h
  · next m hm =>
      obtain ⟨body, r, hbody, hr, rfl⟩ := exists_wrap_of_quotedEnd hs hm
      refine ⟨body, r, hbody, hr, ?_⟩
      rw [← Except.ok.inj h, slice_wrap hbody, decode_encode]
  · exact absurd h (by simp)

end SqlLexis.Source
