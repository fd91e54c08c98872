import SqlLexis.Proofs.Lexeme

/-!
# Numbers, part by part

A decimal number has five parts, and each is looked for where the one before it ends. Here every
part is a relation between the text it is looked for in, what it takes of it and what it leaves,
with one way to be there and one to be missing. `Numeral.Stands` chains the five.

`scanNumber_stands` says that the scanner follows this grammar wherever a number begins, and that
the grammar leaves it no choice. What a number without fraction, exponent and suffix looks like,
and one without digits in front of its exponent, follows from the grammar and from what a number
may begin with.
-/

namespace SqlLexis

open Source

/-- `l` is the longest run of the class in front of `cs`, and `r` is left. -/
structure LongestRun (p : Char → Bool) (cs l r : List Char) : Prop where
  append : cs = l ++ r
  all : ∀ c ∈ l, p c = true
  stops : Stops p r

theorem LongestRun.unique {p : Char → Bool} (hp : p endOfInput = false) {cs l r l' r' : List Char}
    (h : LongestRun p cs l r) (h' : LongestRun p cs l' r') : l' = l ∧ r' = r := by
  have hl : cs.takeWhile p = l := by
    rw [h.append, takeWhile_append_of_stop h.all (peek_of_stops hp h.stops)]
  have hl' : cs.takeWhile p = l' := by
    rw [h'.append, takeWhile_append_of_stop h'.all (peek_of_stops hp h'.stops)]
  obtain rfl : l' = l := hl'.symm.trans hl
  exact ⟨rfl, List.append_cancel_left (h'.append.symm.trans h.append)⟩

theorem LongestRun.of_takeWhile {p : Char → Bool} (hp : p endOfInput = false) {l r : List Char}
    (h : (l ++ r).takeWhile p = l) : LongestRun p (l ++ r) l r where
  append := rfl
  all _ hc := List.mem_takeWhile_imp (h ▸ hc)
  stops := stops_of_peek (stop_of_takeWhile_append hp h)

theorem LongestRun.nil {p : Char → Bool} {cs : List Char} (h : p (peek cs) = false) :
    LongestRun p cs [] cs where
  append := rfl
  all := by simp
  stops := stops_of_peek h

/-- A run that takes nothing leaves a text that does not begin with the class. -/
theorem LongestRun.peek_of_nil {p : Char → Bool} (hp : p endOfInput = false) {cs r : List Char}
    (h : LongestRun p cs [] r) : p (peek cs) = false := by
  rw [h.append]
  exact peek_of_stops hp h.stops

namespace Numeral

/-! ## The parts -/

/-- The sign is the minus in front, if there is one. -/
inductive Sign : List Char → List Char → List Char → Prop
  | present {r : List Char} : Sign ('-' :: r) ['-'] r
  | absent {cs : List Char} : cs.head? ≠ some '-' → Sign cs [] cs

/-- A dot that no other dot follows. -/
def BeginsFraction (cs : List Char) : Prop := ∃ r, cs = '.' :: r ∧ r.head? ≠ some '.'

/-- The fraction is a dot that no other dot follows, with the longest run of digits behind it. -/
inductive Fraction : List Char → List Char → List Char → Prop
  | present {cs ds r : List Char} : cs.head? ≠ some '.' → LongestRun isDigit cs ds r →
      Fraction ('.' :: cs) ('.' :: ds) r
  | absent {cs : List Char} : ¬ BeginsFraction cs → Fraction cs [] cs

/-- `e` or `E`, then a sign or none, then a digit. -/
def BeginsExponent (cs : List Char) : Prop :=
  ∃ e sg d r, cs = e :: (sg ++ d :: r) ∧ (e = 'e' ∨ e = 'E') ∧
    (sg = [] ∨ sg = ['+'] ∨ sg = ['-']) ∧ isDigit d = true

/-- The exponent is `e` or `E`, a sign or none, and the longest run of digits, at least one. -/
inductive Exponent : List Char → List Char → List Char → Prop
  | present {e : Char} {sg cs ds r : List Char} : e = 'e' ∨ e = 'E' →
      sg = [] ∨ sg = ['+'] ∨ sg = ['-'] → ds ≠ [] → LongestRun isDigit cs ds r →
      Exponent (e :: (sg ++ cs)) (e :: (sg ++ ds)) r
  | absent {cs : List Char} : ¬ BeginsExponent cs → Exponent cs [] cs

/-- One of the letters `f`, `F`, `d` and `D`, behind which no name goes on. -/
def BeginsSuffix (cs : List Char) : Prop :=
  ∃ c r, cs = c :: r ∧ (c = 'f' ∨ c = 'F' ∨ c = 'd' ∨ c = 'D') ∧ Stops isNameChar r

/-- The suffix is a letter behind which no name goes on. -/
inductive Suffix : List Char → List Char → List Char → Prop
  | present {c : Char} {r : List Char} : c = 'f' ∨ c = 'F' ∨ c = 'd' ∨ c = 'D' →
      Stops isNameChar r → Suffix (c :: r) [c] r
  | absent {cs : List Char} : ¬ BeginsSuffix cs → Suffix cs [] cs

/-- The parts of `x` stand in front of `cs`, one behind the other, and `r` is left. -/
inductive Stands (x : Numeral) (cs r : List Char) : Prop
  | intro {u v w z : List Char} : Sign cs x.sign u → LongestRun isDigit u x.whole v →
      Fraction v x.fraction w → Exponent w x.exponent z → Suffix z x.suffix r → Stands x cs r

/-! ## No part has a choice -/

section Unique

variable {cs l r l' r' : List Char}

theorem Sign.unique (h : Sign cs l r) (h' : Sign cs l' r') : l' = l ∧ r' = r := by
  cases h with
  | present =>
      cases h' with
      | present => exact ⟨rfl, rfl⟩
      | absent hne => exact absurd rfl hne
  | absent hne =>
      cases h' with
      | present => exact absurd rfl hne
      | absent => exact ⟨rfl, rfl⟩

theorem Fraction.unique (h : Fraction cs l r) (h' : Fraction cs l' r') : l' = l ∧ r' = r := by
  cases h with
  | present hdot hrun =>
      cases h' with
      | present _ hrun' =>
          obtain ⟨rfl, rfl⟩ := hrun.unique (by decide) hrun'
          exact ⟨rfl, rfl⟩
      | absent hno => exact absurd ⟨_, rfl, hdot⟩ hno
  | absent hno =>
      cases h' with
      | present hdot => exact absurd ⟨_, rfl, hdot⟩ hno
      | absent => exact ⟨rfl, rfl⟩

/-- Where the digits of an exponent begin, its sign is known. -/
theorem exponentSign_of_digits {sg u ds : List Char} (hsg : sg = [] ∨ sg = ['+'] ∨ sg = ['-'])
    (hne : ds ≠ []) (hrun : LongestRun isDigit u ds r) : exponentSign (sg ++ u) = sg := by
  rw [hrun.append]
  exact exponentSign_append_digits hsg hne hrun.all

theorem Exponent.begins {e : Char} {sg u ds : List Char} (he : e = 'e' ∨ e = 'E')
    (hsg : sg = [] ∨ sg = ['+'] ∨ sg = ['-']) (hne : ds ≠ []) (hrun : LongestRun isDigit u ds r) :
    BeginsExponent (e :: (sg ++ u)) := by
  obtain ⟨d, ds, rfl⟩ := List.exists_cons_of_ne_nil hne
  exact ⟨e, sg, d, ds ++ r, by rw [hrun.append]; rfl, he, hsg, hrun.all d List.mem_cons_self⟩

theorem Exponent.unique (h : Exponent cs l r) (h' : Exponent cs l' r') : l' = l ∧ r' = r := by
  cases h with
  | @present e sg u ds r he hsg hne hrun =>
      generalize hcs : e :: (sg ++ u) = cs at h'
      cases h' with
      | @present e' sg' u' ds' r' he' hsg' hne' hrun' =>
          obtain ⟨rfl, htail⟩ := List.cons.inj hcs
          obtain rfl : sg' = sg := by
            rw [← exponentSign_of_digits hsg hne hrun, htail,
              exponentSign_of_digits hsg' hne' hrun']
          obtain rfl : u = u' := List.append_cancel_left htail
          obtain ⟨rfl, rfl⟩ := hrun.unique (by decide) hrun'
          exact ⟨rfl, rfl⟩
      | absent hno => exact absurd (hcs ▸ Exponent.begins he hsg hne hrun) hno
  | absent hno =>
      cases h' with
      | present he hsg hne hrun => exact absurd (Exponent.begins he hsg hne hrun) hno
      | absent => exact ⟨rfl, rfl⟩

theorem Suffix.unique (h : Suffix cs l r) (h' : Suffix cs l' r') : l' = l ∧ r' = r := by
  cases h with
  | present hc hr =>
      cases h' with
      | present => exact ⟨rfl, rfl⟩
      | absent hno => exact absurd ⟨_, _, rfl, hc, hr⟩ hno
  | absent hno =>
      cases h' with
      | present hc hr => exact absurd ⟨_, _, rfl, hc, hr⟩ hno
      | absent => exact ⟨rfl, rfl⟩

/-- The parts are fixed one after the other, from left to right. -/
theorem Stands.unique {x y : Numeral} (hx : x.Stands cs r) (hy : y.Stands cs r') :
    y = x ∧ r' = r := by
  obtain ⟨sign, whole, fraction, exponent, suffix⟩ := x
  obtain ⟨sign', whole', fraction', exponent', suffix'⟩ := y
  obtain ⟨hsign, hwhole, hfraction, hexponent, hsuffix⟩ := hx
  obtain ⟨hsign', hwhole', hfraction', hexponent', hsuffix'⟩ := hy
  obtain ⟨rfl, rfl⟩ := hsign.unique hsign'
  obtain ⟨rfl, rfl⟩ := hwhole.unique (by decide) hwhole'
  obtain ⟨rfl, rfl⟩ := hfraction.unique hfraction'
  obtain ⟨rfl, rfl⟩ := hexponent.unique hexponent'
  obtain ⟨rfl, rfl⟩ := hsuffix.unique hsuffix'
  exact ⟨rfl, rfl⟩

end Unique

/-! ## What is read stands there -/

section Read

variable {l r : List Char}

theorem Sign.of_signPart (h : signPart (l ++ r) = l) : Sign (l ++ r) l r := by
  generalize hcs : l ++ r = cs at h ⊢
  unfold signPart at h
  split at h
  · obtain rfl : ['-'] = l := h
    rw [← hcs]
    exact .present
  · next hno =>
      obtain rfl : [] = l := h
      obtain rfl : r = cs := hcs
      refine .absent ?_
      intro hhead
      obtain ⟨u, rfl⟩ := List.head?_eq_some_iff.mp hhead
      exact hno u rfl

theorem Fraction.of_fractionPart (h : fractionPart (l ++ r) = l) : Fraction (l ++ r) l r := by
  rcases fractionPart_eq (l ++ r) with hnil | ⟨ds, u, hcs, hpart, hds, hend, hdot⟩
  · obtain rfl : l = [] := h.symm.trans hnil
    refine .absent ?_
    rintro ⟨u, hu, hne⟩
    rw [hu, fractionPart, if_neg (mt (peek_eq_iff_head? (by decide) u).mp hne)] at h
    exact absurd h (by simp)
  · obtain rfl : l = '.' :: ds := h.symm.trans hpart
    obtain rfl : r = u := by simpa using hcs
    refine .present ?_ ⟨rfl, hds, stops_of_peek hend⟩
    cases ds with
    | nil => exact mt (peek_eq_iff_head? (by decide) r).mpr (hdot rfl)
    | cons d ds =>
        intro hd
        have hdigit := hds d List.mem_cons_self
        rw [Option.some.inj hd] at hdigit
        exact absurd hdigit (by decide)

/-- An exponent that begins is not left out. -/
theorem exponentPart_ne_nil {cs : List Char} (h : BeginsExponent cs) : exponentPart cs ≠ [] := by
  obtain ⟨e, sg, d, r, rfl, he, hsg, hd⟩ := h
  have hsign : exponentSign (sg ++ ([d] ++ r)) = sg :=
    exponentSign_append_digits hsg (by simp) (by simpa using hd)
  intro hnil
  have hno := exponentPart_cons_eq_nil_iff.mp hnil he
  rw [List.singleton_append] at hsign
  rw [hsign, List.drop_left, peek_cons, hd] at hno
  exact absurd hno (by simp)

theorem Exponent.of_exponentPart (h : exponentPart (l ++ r) = l) : Exponent (l ++ r) l r := by
  rcases exponentPart_eq (l ++ r) with hnil | ⟨e, sg, ds, u, hcs, hpart, he, hsg, hne, hds, hend⟩
  · obtain rfl : l = [] := h.symm.trans hnil
    exact .absent fun hbegins => exponentPart_ne_nil hbegins hnil
  · obtain rfl : l = e :: (sg ++ ds) := h.symm.trans hpart
    obtain rfl : r = u := List.append_cancel_left hcs
    rw [List.cons_append, List.append_assoc]
    exact .present he hsg hne ⟨rfl, hds, stops_of_peek hend⟩

theorem Suffix.of_suffixPart (h : suffixPart (l ++ r) = l) : Suffix (l ++ r) l r := by
  rcases suffixPart_eq (l ++ r) with hnil | ⟨c, u, hcs, hpart, hc, hend⟩
  · obtain rfl : l = [] := h.symm.trans hnil
    refine .absent ?_
    rintro ⟨c, u, hu, hc, hstop⟩
    have hname : isNameChar (peek u) = false := peek_of_stops isNameChar_endOfInput hstop
    rw [hu, suffixPart, if_pos ⟨hc, hname⟩] at h
    exact absurd h (by simp)
  · obtain rfl : l = [c] := h.symm.trans hpart
    obtain rfl : r = u := by simpa using hcs
    exact .present hc (stops_of_peek hend)

theorem stands_read (cs : List Char) :
    ∃ r, cs = (read cs).lexeme ++ r ∧ (read cs).Stands cs r := by
  obtain ⟨x, r, hread, hcs, hsign, hwhole, hfraction, hexponent, hsuffix⟩ := read_stages cs
  rw [hread]
  refine ⟨r, hcs, ?_⟩
  simp only [lexeme, List.append_assoc] at hcs
  subst hcs
  exact .intro (.of_signPart hsign) (.of_takeWhile (by decide) hwhole)
    (.of_fractionPart hfraction) (.of_exponentPart hexponent) (.of_suffixPart hsuffix)

end Read

/-! ## Numbers without digits -/

/-- A minus or none, and then digits, at least one. -/
def isInteger : List Char → Bool
  | '-' :: w => !w.isEmpty && w.all isDigit
  | w => !w.isEmpty && w.all isDigit

section Begins

variable {joined : Bool} {x : Numeral} {cs r : List Char}

theorem isInteger_append {sg ds : List Char} (hsg : sg = [] ∨ sg = ['-']) (hne : ds ≠ [])
    (hds : ∀ c ∈ ds, isDigit c = true) : isInteger (sg ++ ds) = true := by
  have hall : (!ds.isEmpty && ds.all isDigit) = true := by
    rw [Bool.and_eq_true, List.all_eq_true]
    exact ⟨by simpa using hne, hds⟩
  rcases hsg with rfl | rfl
  · obtain ⟨d, ds, rfl⟩ := List.exists_cons_of_ne_nil hne
    have hd := hds d List.mem_cons_self
    rw [List.nil_append]
    unfold isInteger
    split
    · next heq =>
        rw [(List.cons.inj heq).1] at hd
        exact absurd hd (by decide)
    · exact hall
  · exact hall

/-- Without digits in front of its fraction a number begins with a minus and a dot, or there
are digits in its fraction, of which a leading dot needs one right behind it. -/
theorem Stands.front_of_whole (h : x.Stands cs r) (hbegins : startsNumber joined cs = true)
    (hwhole : x.whole = []) :
    (∃ u, cs = '-' :: '.' :: u) ∨ x.fraction.any isDigit = true := by
  obtain ⟨sign, whole, fraction, exponent, suffix⟩ := x
  obtain rfl : whole = [] := hwhole
  obtain @⟨u, v, w, z, hsign, hrun, hfraction, -, -⟩ := h
  have hno := hrun.peek_of_nil (by decide)
  obtain rfl : u = v := hrun.append
  cases hsign with
  | present =>
      have hnext : (isDigit (peek u) || peek u == '.') = true :=
        (Bool.and_eq_true_iff.mp hbegins).1
      have hdot : peek u = '.' := by simpa [hno] using hnext
      obtain ⟨v, rfl⟩ := eq_cons_of_peek hdot (by decide)
      exact Or.inl ⟨v, rfl⟩
  | absent hne =>
      rcases peek_of_startsNumber hbegins with hd | hd | hd
      · exact absurd hd (by simp [hno])
      · obtain ⟨v, rfl⟩ := eq_cons_of_peek hd (by decide)
        have hdigit : isDigit (peek v) = true := (Bool.and_eq_true_iff.mp hbegins).1
        cases hfraction with
        | @present _ ds _ _ hds =>
            cases ds with
            | nil => exact absurd hdigit (by simp [hds.peek_of_nil (by decide)])
            | cons d ds => exact Or.inr (by simp [hds.all d List.mem_cons_self])
        | absent hno =>
            refine absurd ⟨v, rfl, ?_⟩ hno
            intro hhead
            rw [(peek_eq_iff_head? (by decide) v).mpr hhead] at hdigit
            exact absurd hdigit (by decide)
      · exact absurd ((peek_eq_iff_head? (by decide) _).mp hd) hne

/-- Of a minus and a dot the number takes both, or only the minus if another dot follows. -/
theorem Stands.of_minus_dot {u : List Char} (h : x.Stands ('-' :: '.' :: u) r) :
    ['-', '.'] <+: x.lexeme ∨ x = ⟨['-'], [], [], [], []⟩ ∧ ['.', '.'] <+: r := by
  by_cases hdot : u.head? = some '.'
  · obtain ⟨v, rfl⟩ := List.head?_eq_some_iff.mp hdot
    have hfraction : ¬ BeginsFraction ('.' :: '.' :: v) := by
      rintro ⟨w, hw, hne⟩
      rw [← (List.cons.inj hw).2] at hne
      exact hne rfl
    have hexponent : ¬ BeginsExponent ('.' :: '.' :: v) := by
      rintro ⟨e, sg, d, w, hw, he, -⟩
      rw [← (List.cons.inj hw).1] at he
      exact absurd he (by decide)
    have hsuffix : ¬ BeginsSuffix ('.' :: '.' :: v) := by
      rintro ⟨c, w, hw, hc, -⟩
      rw [← (List.cons.inj hw).1] at hc
      exact absurd hc (by decide)
    have hminus : Stands ⟨['-'], [], [], [], []⟩ ('-' :: '.' :: '.' :: v) ('.' :: '.' :: v) :=
      .intro .present (.nil rfl) (.absent hfraction) (.absent hexponent)
        (.absent hsuffix)
    obtain ⟨rfl, rfl⟩ := hminus.unique h
    exact Or.inr ⟨rfl, v, rfl⟩
  · obtain ⟨sign, whole, fraction, exponent, suffix⟩ := x
    obtain ⟨hsign, hwhole, hfraction, -, -⟩ := h
    obtain ⟨rfl, rfl⟩ := Sign.present.unique hsign
    obtain ⟨rfl, rfl⟩ := (LongestRun.nil (p := isDigit) rfl).unique (by decide) hwhole
    cases hfraction with
    | present => exact Or.inl ⟨_, rfl⟩
    | absent hno => exact absurd ⟨u, rfl, hdot⟩ hno

theorem Stands.sign_eq (h : x.Stands cs r) : x.sign = [] ∨ x.sign = ['-'] := by
  obtain ⟨sign, whole, fraction, exponent, suffix⟩ := x
  obtain ⟨hsign, -, -, -, -⟩ := h
  cases hsign with
  | present => exact Or.inr rfl
  | absent => exact Or.inl rfl

theorem Stands.whole_digits (h : x.Stands cs r) : ∀ c ∈ x.whole, isDigit c = true := by
  obtain ⟨-, hwhole, -, -, -⟩ := h
  exact hwhole.all

/-- A number that is only a sign and digits. -/
theorem Stands.int_cases (h : x.Stands cs r) (hbegins : startsNumber joined cs = true)
    (hfloat : x.isFloat = false) :
    isInteger x.lexeme = true ∨ x.lexeme = ['-'] ∧ ['.', '.'] <+: r := by
  have hlexeme := lexeme_of_not_float hfloat
  by_cases hwhole : x.whole = []
  · rcases h.front_of_whole hbegins hwhole with ⟨u, rfl⟩ | hdigit
    · rcases h.of_minus_dot with hfront | ⟨rfl, hdots⟩
      · have hlen := hfront.length_le
        rw [hlexeme, hwhole, List.append_nil] at hlen
        rcases h.sign_eq with hs | hs <;> simp [hs] at hlen
      · exact Or.inr ⟨rfl, hdots⟩
    · exact absurd hdigit (by simp [(isFloat_eq_false_iff.mp hfloat).1])
  · rw [hlexeme]
    exact Or.inl (isInteger_append h.sign_eq hwhole h.whole_digits)

/-- A floating point number without digits in front of its exponent. -/
theorem Stands.float_front (h : x.Stands cs r) (hbegins : startsNumber joined cs = true)
    (hfloat : x.isFloat = true) (hdigits : (x.whole ++ x.fraction).any isDigit = false) :
    ['-', '.'] <+: x.lexeme := by
  rw [List.any_append, Bool.or_eq_false_iff] at hdigits
  have hwhole : x.whole = [] := by
    refine List.eq_nil_iff_forall_not_mem.mpr ?_
    intro c hc
    exact List.any_eq_false.mp hdigits.1 c hc (h.whole_digits c hc)
  rcases h.front_of_whole hbegins hwhole with ⟨u, rfl⟩ | hdigit
  · rcases h.of_minus_dot with hfront | ⟨rfl, -⟩
    · exact hfront
    · exact absurd hfloat (by decide)
  · exact absurd hdigit (by simp [hdigits.2])

end Begins

end Numeral

/-! ## What the scanner reads -/

/-- The number at `n` has the parts `x`, and the text goes on with `r`. -/
structure Source.ReadsNumber (s : Source) (n : Nat) (x : Numeral) (r : List Char) : Prop where
  stands : x.Stands (s.rest n) r
  unique : ∀ y u, y.Stands (s.rest n) u → y = x ∧ u = r
  append : s.rest n = x.lexeme ++ r
  ne_nil : x.lexeme ≠ []
  token : s.scanNumber n =
    ⟨if x.fraction = [] ∧ x.exponent = [] ∧ x.suffix = [] then .int else .float, x.lexeme,
      n + x.lexeme.length⟩
  inside : (s.scanNumber n).stop ≤ s.length
  int : (s.scanNumber n).kind = .int →
    Numeral.isInteger (s.scanNumber n).literals = true ∨
      (s.scanNumber n).literals = ['-'] ∧ ['.', '.'] <+: s.rest (s.scanNumber n).stop
  float : (s.scanNumber n).kind = .float → (x.whole ++ x.fraction).any isDigit = false →
    ['-', '.'] <+: (s.scanNumber n).literals

section Scanner

variable {s : Source} {n : Nat}

theorem scanNumber_of_append {r : List Char}
    (hr : s.rest n = (Numeral.read (s.rest n)).lexeme ++ r) :
    s.scanNumber n = ⟨if (Numeral.read (s.rest n)).isFloat then .float else .int,
      (Numeral.read (s.rest n)).lexeme, n + (Numeral.read (s.rest n)).lexeme.length⟩ :=
  cut_of_append hr _

/-- Where a number begins, the scanner takes the five parts that the grammar finds there, and the
grammar finds them in one way only. So a number without fraction, exponent and suffix is an
integer, unless it is a minus in front of two dots, and one without digits in front of its exponent
begins with a minus and a dot. -/
theorem scanNumber_stands (h : s.beginsNumber n = true) : ∃ x r, s.ReadsNumber n x r := by
  obtain ⟨r, hr, hx⟩ := Numeral.stands_read (s.rest n)
  obtain ⟨hpos, hinside⟩ := scanNumber_bounds h
  have hbegins : startsNumber (s.followsName n) (s.rest n) = true := beginsNumber_eq ▸ h
  have hrest := rest_of_append hr
  have htoken := scanNumber_of_append hr
  generalize Numeral.read (s.rest n) = x at hr hx hrest htoken
  have hkind := congrArg Token.kind htoken
  refine ⟨x, r, hx, fun y u hy => hx.unique hy, hr, ?_, ?_, hinside, ?_, ?_⟩
  · intro hnil
    rw [htoken, hnil] at hpos
    exact absurd hpos (Nat.lt_irrefl n)
  · rw [htoken]
    congr 1
    cases hf : x.isFloat with
    | false => rw [if_pos (Numeral.isFloat_eq_false_iff.mp hf)]; rfl
    | true => rw [if_neg (mt Numeral.isFloat_eq_false_iff.mpr (by simp [hf]))]; rfl
  · intro hint
    have hfloat : x.isFloat = false := by
      cases hf : x.isFloat with
      | false => rfl
      | true => simp [hint, hf] at hkind
    rw [htoken]
    show _ ∨ _ ∧ ['.', '.'] <+: s.rest _
    rw [hrest]
    exact hx.int_cases hbegins hfloat
  · intro hfloat hdigits
    have hf : x.isFloat = true := by
      cases hf : x.isFloat with
      | false => simp [hfloat, hf] at hkind
      | true => rfl
    rw [htoken]
    exact hx.float_front hbegins hf hdigits

/-- A number without digits in front of its exponent, with a suffix behind, and a minus that two
dots leave alone. -/
theorem scanNumber_stands_without_digits :
    let s : Source := .ofString "x -.e5d)"
    let s' : Source := .ofString "(-..5"
    (s.beginsNumber 2 = true ∧ s'.beginsNumber 1 = true) ∧
      s.scanNumber 2 = ⟨.float, "-.e5d".toList, 7⟩ ∧ (∃ x r, s.ReadsNumber 2 x r) ∧
      s'.scanNumber 1 = ⟨.int, ['-'], 2⟩ ∧ ∃ x r, s'.ReadsNumber 1 x r := by
  intro s s'
  have h : s.beginsNumber 2 = true ∧ s'.beginsNumber 1 = true := by decide
  exact ⟨h, by decide, scanNumber_stands h.1, by decide, scanNumber_stands h.2⟩

end Scanner

end SqlLexis
