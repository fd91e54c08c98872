import Mathlib.Data.List.DropRight
import Mathlib.Data.List.Forall2
import SqlLexis.Listing

/-!
# Rows of a listing

A listing of tokens as text has one line for each token, whatever the literals hold, and every
column can be read off it again; only spaces at the end of a literal may be lost among those that
fill up its column. This is `Listing.text_lossless`.

A literal may hold line feeds, spaces and text that looks like an escape or like another column.
Two things keep it apart from what follows. A character is shown in one of three ways (`Shown`),
and no way of showing one is the beginning of a way of showing another (`Shown.unique`). And each
separator is found by what never holds it: the line feed that ends a row by what stands before it,
the space before the last column by the digits behind it.
-/

namespace SqlLexis

namespace Text

/-! ## Separators -/

variable {α : Type} {a : α} {xs xs' ys ys' : List α}

/-- A list is split in one way at the first place of an element. -/
theorem eq_of_first_separator (h : a ∉ xs) (h' : a ∉ xs') (heq : xs ++ a :: ys = xs' ++ a :: ys') :
    xs = xs' ∧ ys = ys' := by
  induction xs generalizing xs' with
  | nil =>
      cases xs' with
      | nil => exact ⟨rfl, (List.cons.inj heq).2⟩
      | cons x xs' =>
          obtain ⟨rfl, -⟩ := List.cons.inj heq
          exact absurd List.mem_cons_self h'
  | cons x xs ih =>
      cases xs' with
      | nil =>
          obtain ⟨rfl, -⟩ := List.cons.inj heq
          exact absurd List.mem_cons_self h
      | cons x' xs' =>
          obtain ⟨rfl, htail⟩ := List.cons.inj heq
          obtain ⟨rfl, hys⟩ := ih (mt (List.mem_cons_of_mem _) h) (mt (List.mem_cons_of_mem _) h')
            htail
          exact ⟨rfl, hys⟩

/-- A list is split in one way at the last place of an element. -/
theorem eq_of_last_separator (h : a ∉ ys) (h' : a ∉ ys') (heq : xs ++ a :: ys = xs' ++ a :: ys') :
    xs = xs' ∧ ys = ys' := by
  have hreverse := congrArg List.reverse heq
  simp only [List.reverse_append, List.reverse_cons, List.append_assoc, List.singleton_append]
    at hreverse
  obtain ⟨hys, hxs⟩ := eq_of_first_separator (mt List.mem_reverse.mp h)
    (mt List.mem_reverse.mp h') hreverse
  exact ⟨List.reverse_inj.mp hxs, List.reverse_inj.mp hys⟩

/-! ## Digits -/

theorem not_mem_toDigits {b : Nat} (hb : 1 < b) {c : Char} (hc : ∀ d, Nat.digitChar d ≠ c)
    (n : Nat) : c ∉ Nat.toDigits b n := by
  induction n using Nat.strongRecOn with
  | ind n ih =>
      rw [Nat.toDigits_eq_if hb]
      split
      · exact fun h => hc n (List.mem_singleton.mp h).symm
      · next hn =>
          have hlt : n / b < n := Nat.div_lt_self (by omega) hb
          intro h
          rcases List.mem_append.mp h with h | h
          · exact ih _ hlt h
          · exact hc _ (List.mem_singleton.mp h).symm

theorem digitChar_injective {m n : Nat} (hm : m < 16) (hn : n < 16)
    (h : m.digitChar = n.digitChar) : m = n := by
  have hall : ∀ i j : Fin 16, i.val.digitChar = j.val.digitChar → i = j := by decide
  exact Fin.mk.inj (hall ⟨m, hm⟩ ⟨n, hn⟩ h)

/-- A number is found again from its digits. -/
theorem toDigits_injective {b : Nat} (hb : 1 < b) (hb' : b ≤ 16) :
    Function.Injective (Nat.toDigits b) := by
  intro m
  induction m using Nat.strongRecOn with
  | ind m ih =>
      intro n h
      have hlength : m < b ↔ n < b := by
        rw [← Nat.pow_one b, ← Nat.length_toDigits_le_iff hb Nat.one_pos, h,
          Nat.length_toDigits_le_iff hb Nat.one_pos]
      by_cases hm : m < b
      · have hn := hlength.mp hm
        rw [Nat.toDigits_of_lt_base hm, Nat.toDigits_of_lt_base hn] at h
        exact digitChar_injective (by omega) (by omega) (List.cons.inj h).1
      · have hn := mt hlength.mpr hm
        rw [Nat.toDigits_of_base_le hb (Nat.not_lt.mp hm),
          Nat.toDigits_of_base_le hb (Nat.not_lt.mp hn)] at h
        obtain ⟨hfront, hlast⟩ := List.append_inj' h rfl
        have hquotient := ih (m / b) (Nat.div_lt_self (by omega) hb) hfront
        have hremainder := digitChar_injective
          (Nat.lt_of_lt_of_le (Nat.mod_lt m (by omega)) hb')
          (Nat.lt_of_lt_of_le (Nat.mod_lt n (by omega)) hb') (List.cons.inj hlast).1
        rw [← Nat.div_add_mod m b, ← Nat.div_add_mod n b, hquotient, hremainder]

/-! ## Shown characters -/

/-- Characters that are shown as a backslash and a character of their own. -/
def shortEscapes : List (Char × Char) :=
  [('\x00', '0'), ('\t', 't'), ('\r', 'r'), ('\n', 'n'), ('\\', '\\'), ('\x27', '\x27'),
    ('\x22', '\x22')]

/-- The ways of showing a character on one line. -/
inductive Shown : Char → List Char → Prop where
  | plain {c : Char} : c ≠ '\\' → c ≠ '\n' → Shown c [c]
  | short {c e : Char} : (c, e) ∈ shortEscapes → Shown c ['\\', e]
  | codePoint (c : Char) : Shown c (codePointEscape c)

theorem shown_escapeChar (extender : Bool) (c : Char) :
    Shown c (escapeChar ['\x27', '\x22'] extender c) := by
  unfold escapeChar
  split_ifs with hnul htab hreturn hfeed hslash hquote hextender hprintable
  · exact .short (by rw [hnul]; decide)
  · exact .short (by rw [htab]; decide)
  · exact .short (by rw [hreturn]; decide)
  · exact .short (by rw [hfeed]; decide)
  · exact .short (by rw [hslash]; decide)
  · have hmem : c ∈ ['\x27', '\x22'] := List.contains_iff_mem.mp hquote
    rcases List.mem_pair.mp hmem with rfl | rfl <;> exact .short (by decide)
  · exact .codePoint c
  · exact .plain hslash hfeed
  · exact .codePoint c

variable {c c' : Char} {w w' u u' : List Char}

theorem shortEscapes_injective :
    ∀ p ∈ shortEscapes, ∀ q ∈ shortEscapes, p.2 = q.2 → p.1 = q.1 := by
  decide

theorem codePointEscape_append (c : Char) (u : List Char) :
    codePointEscape c ++ u =
      '\\' :: 'u' :: '\x7b' :: (Nat.toDigits 16 c.toNat ++ '\x7d' :: u) := by
  simp [codePointEscape]

/-- A shown character is found again, whatever follows it: the first character tells plain from
escaped, and the second one which escape it is. -/
theorem Shown.unique (h : Shown c w) (h' : Shown c' w') (heq : w ++ u = w' ++ u') :
    c = c' ∧ u = u' := by
  have hbrace (n : Nat) : '\x7d' ∉ Nat.toDigits 16 n :=
    not_mem_toDigits (by decide) (fun _ => Nat.digitChar_ne _ (by decide)) n
  have hletter : ∀ p ∈ shortEscapes, p.2 ≠ 'u' := by decide
  cases h with
  | plain hc _ =>
      cases h' with
      | plain _ _ => exact List.cons.inj heq
      | short _ => exact absurd (List.cons.inj heq).1 hc
      | codePoint => exact absurd (List.cons.inj heq).1 hc
  | short he =>
      cases h' with
      | plain hc' _ => exact absurd (List.cons.inj heq).1.symm hc'
      | short he' =>
          obtain ⟨rfl, hrest⟩ := List.cons.inj (List.cons.inj heq).2
          exact ⟨shortEscapes_injective _ he _ he' rfl, hrest⟩
      | codePoint => exact absurd (List.cons.inj (List.cons.inj heq).2).1 (hletter _ he)
  | codePoint =>
      cases h' with
      | plain hc' _ => exact absurd (List.cons.inj heq).1.symm hc'
      | short he' => exact absurd (List.cons.inj (List.cons.inj heq).2).1.symm (hletter _ he')
      | codePoint =>
          simp only [codePointEscape_append, List.cons.injEq, true_and] at heq
          obtain ⟨hdigits, hrest⟩ := eq_of_first_separator (hbrace _) (hbrace _) heq
          have hcode := toDigits_injective (by decide) (by decide) hdigits
          exact ⟨Char.toNat_inj.mp hcode, hrest⟩

/-! ## Shown texts -/

/-- A text on one line: its characters, each shown in some way. -/
inductive ShownText : List Char → List Char → Prop where
  | nil : ShownText [] []
  | cons {c : Char} {w cs u : List Char} : Shown c w → ShownText cs u →
      ShownText (c :: cs) (w ++ u)

variable {cs cs' : List Char}

theorem shownText_flatMap (extender : Bool) (cs : List Char) :
    ShownText cs (cs.flatMap (escapeChar ['\x27', '\x22'] extender)) := by
  induction cs with
  | nil => exact .nil
  | cons c cs ih => exact .cons (shown_escapeChar extender c) ih

theorem shownText_oneLine (cs : List Char) : ShownText cs (oneLine cs) := by
  cases cs with
  | nil => exact .nil
  | cons c cs => exact .cons (shown_escapeChar true c) (shownText_flatMap false cs)

theorem ShownText.append (h : ShownText cs w) (h' : ShownText cs' w') :
    ShownText (cs ++ cs') (w ++ w') := by
  induction h with
  | nil => exact h'
  | cons hc _ ih =>
      rw [List.append_assoc]
      exact .cons hc ih

/-- Spaces are shown as they are. -/
theorem shownText_spaces (n : Nat) :
    ShownText (List.replicate n ' ') (List.replicate n ' ') := by
  induction n with
  | zero => exact .nil
  | succ n ih => exact .cons (.plain (by decide) (by decide)) ih

theorem Shown.ne_nil (h : Shown c w) : w ≠ [] := by
  cases h <;> simp [codePointEscape]

/-- A text is found again from how it is shown. -/
theorem ShownText.unique (h : ShownText cs w) (h' : ShownText cs' w') (heq : w = w') :
    cs = cs' := by
  induction h generalizing cs' w' with
  | nil =>
      cases h' with
      | nil => rfl
      | cons hc' _ => exact absurd (List.append_eq_nil_iff.mp heq.symm).1 hc'.ne_nil
  | cons hc _ ih =>
      cases h' with
      | nil => exact absurd (List.append_eq_nil_iff.mp heq).1 hc.ne_nil
      | cons hc' hcs' =>
          obtain ⟨rfl, hrest⟩ := hc.unique hc' heq
          rw [ih hcs' hrest]

theorem Shown.feed_not_mem (h : Shown c w) : '\n' ∉ w := by
  cases h with
  | plain _ hc => simpa using hc.symm
  | short he =>
      have hshort : ∀ p ∈ shortEscapes, '\n' ∉ ['\\', p.2] := by decide
      exact hshort _ he
  | codePoint =>
      have hdigits : '\n' ∉ Nat.toDigits 16 c.toNat :=
        not_mem_toDigits (by decide) (fun _ => Nat.digitChar_ne _ (by decide)) _
      simp [codePointEscape, hdigits]

/-- No literal can begin another line. -/
theorem ShownText.feed_not_mem (h : ShownText cs w) : '\n' ∉ w := by
  induction h with
  | nil => exact List.not_mem_nil
  | cons hc _ ih =>
      intro hmem
      rcases List.mem_append.mp hmem with hmem | hmem
      · exact hc.feed_not_mem hmem
      · exact ih hmem

/-! ## Columns -/

/-- A text without the spaces at its end. -/
def trimmed (cs : List Char) : List Char := cs.rdropWhile (· == ' ')

theorem trimmed_append_spaces (cs : List Char) (n : Nat) :
    trimmed (cs ++ List.replicate n ' ') = trimmed cs := by
  induction n with
  | zero => rw [List.replicate_zero, List.append_nil]
  | succ n ih =>
      rw [List.replicate_succ', ← List.append_assoc, trimmed,
        List.rdropWhile_concat_pos _ _ _ (by decide)]
      exact ih

theorem trimmed_padRight (n : Nat) (cs : List Char) : trimmed (padRight n cs) = trimmed cs :=
  trimmed_append_spaces cs _

theorem trimmed_of_not_mem (h : ' ' ∉ cs) : trimmed cs = cs := by
  refine List.rdropWhile_eq_self_iff.mpr ?_
  intro hne hlast
  rw [← beq_iff_eq.mp hlast] at h
  exact h (List.getLast_mem hne)

theorem length_padRight {n : Nat} (h : cs.length ≤ n) : (padRight n cs).length = n := by
  simp [padRight, h]

/-- A text that is shown in a column is found again but for spaces at its end. -/
theorem trimmed_eq_of_padRight_oneLine {n : Nat}
    (h : padRight n (oneLine cs) = padRight n (oneLine cs')) : trimmed cs = trimmed cs' := by
  have hspaces := ((shownText_oneLine cs).append (shownText_spaces _)).unique
    ((shownText_oneLine cs').append (shownText_spaces _)) h
  rw [← trimmed_append_spaces cs, hspaces, trimmed_append_spaces]

end Text

/-- The name of a class is made of capitals and fits its column. -/
theorem TokenKind.name_fits (k : TokenKind) :
    k.name.toList.length ≤ 10 ∧ ∀ c ∈ k.name.toList, c.isUpper = true := by
  cases k <;> simp [name]

namespace Listing

/-! ## Rows -/

/-- What a row holds before its line feed. -/
def columns (t : Token) : List Char :=
  Text.padRight 10 t.kind.name.toList ++
    ' ' :: (Text.padRight 24 (Text.oneLine t.literals) ++ ' ' :: Text.decimal t.stop)

theorem row_eq (t : Token) : row t = columns t ++ ['\n'] := by
  simp [row, columns]

theorem feed_not_mem_columns (t : Token) : '\n' ∉ columns t := by
  have hname : '\n' ∉ t.kind.name.toList := by
    intro h
    exact absurd (t.kind.name_fits.2 _ h) (by decide)
  have hshown := (Text.shownText_oneLine t.literals).feed_not_mem
  have hstop : '\n' ∉ Text.decimal t.stop :=
    Text.not_mem_toDigits (by decide) (fun _ => Nat.digitChar_ne _ (by decide)) _
  simp [columns, Text.padRight, hname, hshown, hstop]

/-- What a row tells of a token: the name of its class, its literals but for spaces at their end,
and where it ends. -/
structure SameColumns (t u : Token) : Prop where
  name : t.kind.name = u.kind.name
  literals : Text.trimmed t.literals = Text.trimmed u.literals
  stop : t.stop = u.stop

theorem sameColumns_of_columns {t u : Token} (h : columns t = columns u) : SameColumns t u := by
  have hwidth (k : TokenKind) : (Text.padRight 10 k.name.toList).length = 10 :=
    Text.length_padRight k.name_fits.1
  have hnospace (k : TokenKind) : ' ' ∉ k.name.toList := by
    intro hmem
    exact absurd (k.name_fits.2 _ hmem) (by decide)
  have hdigits (n : Nat) : ' ' ∉ Text.decimal n :=
    Text.not_mem_toDigits (by decide) (fun _ => Nat.digitChar_ne _ (by decide)) n
  obtain ⟨hname, hrest⟩ := List.append_inj h (by rw [hwidth, hwidth])
  obtain ⟨hliterals, hstop⟩ :=
    Text.eq_of_last_separator (hdigits _) (hdigits _) (List.cons.inj hrest).2
  refine ⟨?_, Text.trimmed_eq_of_padRight_oneLine hliterals, ?_⟩
  · have htrimmed := congrArg Text.trimmed hname
    rw [Text.trimmed_padRight, Text.trimmed_padRight, Text.trimmed_of_not_mem (hnospace _),
      Text.trimmed_of_not_mem (hnospace _)] at htrimmed
    exact String.toList_inj.mp htrimmed
  · exact Text.toDigits_injective (by decide) (by decide) hstop

/-! ## Listings -/

theorem rows_cons (t : Token) (ts : List Token) :
    rows (t :: ts) = columns t ++ '\n' :: rows ts := by
  rw [rows, List.flatMap_cons, row_eq, List.append_assoc]
  rfl

theorem rows_cons_ne_nil (t : Token) (ts : List Token) : rows (t :: ts) ≠ [] := by
  rw [rows_cons]
  simp

theorem count_feed_rows (ts : List Token) : (rows ts).count '\n' = ts.length := by
  induction ts with
  | nil => rfl
  | cons t ts ih =>
      rw [rows_cons, List.count_append, List.count_cons_self, ih,
        List.count_eq_zero_of_not_mem (feed_not_mem_columns t), List.length_cons, Nat.zero_add]

theorem getLast?_rows {ts : List Token} (h : ts ≠ []) : (rows ts).getLast? = some '\n' := by
  obtain ⟨ts, t, rfl⟩ := List.eq_nil_or_concat ts |>.resolve_left h
  simp [rows, row_eq]

theorem sameColumns_of_rows {us ts : List Token} (h : rows us = rows ts) :
    List.Forall₂ SameColumns us ts := by
  induction us generalizing ts with
  | nil =>
      cases ts with
      | nil => exact .nil
      | cons t ts => exact absurd h.symm (rows_cons_ne_nil t ts)
  | cons u us ih =>
      cases ts with
      | nil => exact absurd h (rows_cons_ne_nil u us)
      | cons t ts =>
          rw [rows_cons, rows_cons] at h
          obtain ⟨hcolumns, hrows⟩ := Text.eq_of_first_separator (feed_not_mem_columns u)
            (feed_not_mem_columns t) h
          exact .cons (sameColumns_of_columns hcolumns) (ih hrows)

/-- A listing as text has one line for each token, and two lists of tokens with the same listing
agree token by token in all that a row tells. -/
theorem text_lossless (ts : List Token) :
    (write .text ts).count '\n' = ts.length ∧
    (ts ≠ [] → (write .text ts).getLast? = some '\n') ∧
    ∀ us, write .text us = write .text ts →
      us.length = ts.length ∧ List.Forall₂ SameColumns us ts := by
  refine ⟨count_feed_rows ts, getLast?_rows, ?_⟩
  intro us h
  have hsame := sameColumns_of_rows h
  exact ⟨hsame.length_eq, hsame⟩

/-- A space behind an escaped line feed is lost in its column, and so is which keyword it was. -/
theorem text_lossless_trailing_space :
    let ts : List Token := [⟨.keyword .SELECT, ['a', '\n', ' '], 6⟩, ⟨.finish, [], 6⟩]
    let us : List Token := [⟨.keyword .FROM, ['a', '\n'], 6⟩, ⟨.finish, [], 6⟩]
    (write .text ts).count '\n' = 2 ∧ (ts ≠ [] ∧ (write .text ts).getLast? = some '\n') ∧
      us ≠ ts ∧ write .text us = write .text ts ∧ List.Forall₂ SameColumns us ts := by
  intro ts us
  have hne : ts ≠ [] := List.cons_ne_nil _ _
  have hequal : write .text us = write .text ts := by decide +kernel
  obtain ⟨hcount, hlast, hsame⟩ := text_lossless ts
  exact ⟨hcount, ⟨hne, hlast hne⟩, by decide, hequal, (hsame us hequal).2⟩

end Listing

end SqlLexis
