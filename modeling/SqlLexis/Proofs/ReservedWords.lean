import Mathlib
import SqlLexis.Vocabulary

/-!
# Which words are reserved

A word is reserved if it spells one of the words of a dictionary, whatever the case of its ASCII
letters. There are two ways to look a word up: a dictionary raises its letters and compares texts,
and keywords in general are compared letter by letter. `reserved_words_exact` says that both find
the same keyword, which one that is, and what follows for the questions a user may ask.

Both ways rest on two facts about the table of keywords, each checked once over the whole table:
their texts are in upper case (`Keyword.exists_raised_text`) and no two are equal
(`Keyword.text_injective`).
-/

namespace SqlLexis

/-! ## Spelling -/

/-- The same character, or an upper-case ASCII letter and its lower-case form. -/
def SameLetter (a b : Char) : Prop :=
  a = b ∨ a.isUpper = true ∧ b.toNat = a.toNat + 32 ∨ b.isUpper = true ∧ a.toNat = b.toNat + 32

/-- The same word up to the case of ASCII letters. -/
def SameSpelling (v w : List Char) : Prop := List.Forall₂ SameLetter v w

theorem isUpper_iff_toNat {c : Char} : c.isUpper = true ↔ 65 ≤ c.toNat ∧ c.toNat ≤ 90 := by
  simp [Char.isUpper, UInt32.le_iff_toNat_le]

theorem toNat_toLower (c : Char) :
    c.toLower.toNat = if 65 ≤ c.toNat ∧ c.toNat ≤ 90 then c.toNat + 32 else c.toNat := by
  split
  · next hc =>
      rw [Char.toLower_eq_of_isUpper (isUpper_iff_toNat.mpr hc), Char.toNat_ofNat, if_pos]
      exact Or.inl (by omega)
  · next hc => rw [Char.toLower_eq_of_not_isUpper (mt isUpper_iff_toNat.mp hc)]

theorem sameLetter_iff_toLower {a b : Char} : SameLetter a b ↔ a.toLower = b.toLower := by
  simp only [SameLetter, isUpper_iff_toNat, ← Char.toNat_inj, toNat_toLower]
  split <;> split <;> omega

theorem sameLetter_iff_toUpper {a b : Char} : SameLetter a b ↔ a.toUpper = b.toUpper := by
  rw [sameLetter_iff_toLower]
  constructor
  · intro h
    simpa using congrArg Char.toUpper h
  · intro h
    simpa using congrArg Char.toLower h

theorem sameSpelling_iff_map_toUpper {v w : List Char} :
    SameSpelling v w ↔ v.map Char.toUpper = w.map Char.toUpper := by
  have hsame : SameLetter = fun a b => a.toUpper = b.toUpper := by
    ext a b
    exact sameLetter_iff_toUpper
  rw [SameSpelling, hsame, ← List.forall₂_eq_eq_eq, List.forall₂_map_left_iff,
    List.forall₂_map_right_iff]

theorem SameSpelling.ascii {v w : List Char} (h : SameSpelling v w)
    (hv : ∀ a ∈ v, a.toNat < 128) : ∀ c ∈ w, c.toNat < 128 := by
  induction h with
  | nil => exact hv
  | cons hletter _ ih =>
      obtain ⟨ha, hv⟩ := List.forall_mem_cons.mp hv
      refine List.forall_mem_cons.mpr ⟨?_, ih hv⟩
      simp only [SameLetter, isUpper_iff_toNat, ← Char.toNat_inj] at hletter
      omega

instance (v w : List Char) : Decidable (SameSpelling v w) :=
  decidable_of_iff _ sameSpelling_iff_map_toUpper.symm

theorem Keyword.sameWord_iff {v w : List Char} : sameWord v w = true ↔ SameSpelling v w := by
  induction v generalizing w with
  | nil => cases w <;> simp [sameWord, SameSpelling]
  | cons a v ih =>
      cases w with
      | nil => simp [sameWord, SameSpelling]
      | cons b w =>
          rw [sameWord, Bool.and_eq_true, beq_iff_eq, ih, SameSpelling, SameSpelling,
            List.forall₂_cons, sameLetter_iff_toLower]

/-! ## The table of keywords -/

namespace Keyword

theorem ctorIdx_lt (k : Keyword) : k.ctorIdx < 211 := by
  cases k <;> decide

theorem map_ofNat_range : (List.range 211).map ofNat = all := by decide +kernel

theorem mem_all (k : Keyword) : k ∈ all := by
  rw [← map_ofNat_range, ← ofNat_ctorIdx k]
  exact List.mem_map_of_mem (List.mem_range.mpr k.ctorIdx_lt)

/-- The bytes of a text as one number. Comparing numbers is what makes it feasible to compare
each text of the table with every other one. -/
def fingerprint (s : String) : Nat :=
  s.toByteArray.data.toList.foldr (fun b n => b.toNat + 256 * n) 0

theorem find?_fingerprint : ∀ k ∈ all,
    (all.find? fun j => (fingerprint j.text).beq (fingerprint k.text)) = some k := by
  decide +kernel

/-- No two keywords have the same text. -/
theorem text_injective : Function.Injective text := by
  intro j k h
  have hj := find?_fingerprint j j.mem_all
  rw [h, find?_fingerprint k k.mem_all] at hj
  exact (Option.some.inj hj).symm

/-- The text of a keyword is ASCII and in upper case. -/
theorem exists_raised_text (k : Keyword) :
    ∃ cs, k.text = String.ofList cs ∧ cs.map Char.toUpper = cs ∧
      (cs.all fun c => c.toNat < 128) = true := by
  cases k <;> exact ⟨_, rfl, rfl, rfl⟩

theorem text_eq_raise_iff {k : Keyword} {w : List Char} :
    k.text = Dictionary.raise w ↔ SameSpelling k.text.toList w := by
  obtain ⟨cs, htext, hraised, -⟩ := k.exists_raised_text
  rw [htext, String.toList_ofList, Dictionary.raise, String.ofList_inj,
    sameSpelling_iff_map_toUpper, hraised]

/-- A word spells at most one keyword. -/
theorem eq_of_sameSpelling {j k : Keyword} {w : List Char} (hj : SameSpelling j.text.toList w)
    (hk : SameSpelling k.text.toList w) : j = k := by
  apply text_injective
  rw [text_eq_raise_iff.mpr hj, text_eq_raise_iff.mpr hk]

/-- A word that spells a keyword is as long as it, and ASCII. -/
theorem ascii_of_sameSpelling {k : Keyword} {w : List Char} (h : SameSpelling k.text.toList w) :
    w.length = k.text.length ∧ ∀ c ∈ w, c.toNat < 128 := by
  obtain ⟨cs, htext, -, hascii⟩ := k.exists_raised_text
  rw [htext, String.toList_ofList] at h
  constructor
  · rw [htext, String.length_ofList, List.Forall₂.length_eq h]
  · simp only [List.all_eq_true, decide_eq_true_eq] at hascii
    exact h.ascii hascii

end Keyword

/-! ## Looking a word up -/

/-- If at most one element passes the test, searching finds that element or none. -/
theorem find?_eq_some_iff_of_unique {α : Type} {p : α → Bool}
    (hp : ∀ a b, p a = true → p b = true → a = b) {xs : List α} {x : α} :
    xs.find? p = some x ↔ x ∈ xs ∧ p x = true := by
  constructor
  · intro h
    exact ⟨List.mem_of_find?_eq_some h, List.find?_some h⟩
  · rintro ⟨hmem, hx⟩
    cases hfind : xs.find? p with
    | none => exact absurd hx (List.find?_eq_none.mp hfind x hmem)
    | some y => rw [hp y x (List.find?_some hfind) hx]

/-- Among all keywords, a word finds the one that it spells. -/
theorem Keyword.ofWord?_eq_some_iff {w : List Char} {k : Keyword} :
    ofWord? w = some k ↔ SameSpelling k.text.toList w := by
  have hunique : ∀ a b : Keyword, sameWord a.text.toList w = true →
      sameWord b.text.toList w = true → a = b := by
    intro a b ha hb
    exact eq_of_sameSpelling (sameWord_iff.mp ha) (sameWord_iff.mp hb)
  rw [ofWord?, find?_eq_some_iff_of_unique hunique, sameWord_iff]
  exact and_iff_right k.mem_all

namespace Dictionary

/-- In a dictionary, a word finds the given keyword that it spells. -/
theorem find?_eq_some_iff {ks : List Keyword} {w : List Char} {k : Keyword} :
    (ofWords ks).find? w = some k ↔ k ∈ ks ∧ SameSpelling k.text.toList w := by
  have hunique : ∀ a b : Keyword, (a.text == raise w) = true → (b.text == raise w) = true →
      a = b := by
    intro a b ha hb
    apply Keyword.text_injective
    rw [beq_iff_eq.mp ha, beq_iff_eq.mp hb]
  rw [find?, find?_eq_some_iff_of_unique hunique, beq_iff_eq, Keyword.text_eq_raise_iff]
  exact and_congr_left' mem_firsts

/-- What looking up `w` in the dictionary of `ks` has to answer. -/
structure Decides (ks : List Keyword) (w : List Char) : Prop where
  found : ∀ k, (ofWords ks).find? w = some k ↔ k ∈ ks ∧ SameSpelling k.text.toList w
  /-- Look-alikes outside ASCII and longer or shorter words are not found. -/
  exact_word : ∀ k, (ofWords ks).find? w = some k →
    w.length = k.text.length ∧ ∀ c ∈ w, c.toNat < 128
  any_case : ∀ v, SameSpelling v w → (ofWords ks).find? v = (ofWords ks).find? w
  /-- The dictionary finds what is found among all keywords, if it is one of its own. -/
  parsed : (ofWords ks).find? w = (Keyword.ofWord? w).filter (· ∈ ks)

theorem decides (ks : List Keyword) (w : List Char) : Decides ks w where
  found _ := find?_eq_some_iff
  exact_word k h := Keyword.ascii_of_sameSpelling (find?_eq_some_iff.mp h).2
  any_case v h := by
    have hraise : raise v = raise w := by
      rw [raise, raise, sameSpelling_iff_map_toUpper.mp h]
    rw [find?, find?, hraise]
  parsed := by
    ext k
    rw [Option.filter_eq_some_iff, find?_eq_some_iff, Keyword.ofWord?_eq_some_iff]
    simp [and_comm]

/-! ## The words of a dictionary -/

/-- The entries of a list that stand nowhere before. -/
def firstOccurrences (ks : List Keyword) : List Keyword :=
  (ks.zipIdx.filter fun e => e.1 ∉ ks.take e.2).map Prod.fst

/-- One word more in a map from texts to keywords that keeps its entries in order: a text that is
there keeps its place and gets the keyword, a new one is added at the end. -/
def insertByText (entries : List Keyword) (k : Keyword) : List Keyword :=
  if entries.any fun j => j.text == k.text then
    entries.map fun j => if j.text == k.text then k else j
  else entries ++ [k]

theorem firsts_concat (ks : List Keyword) (k : Keyword) :
    firsts (ks ++ [k]) = if k ∈ ks then firsts ks else firsts ks ++ [k] := by
  induction ks with
  | nil => rfl
  | cons j ks ih =>
      rw [List.cons_append, firsts, ih]
      by_cases hkj : k = j
      · subst hkj
        split <;> simp [firsts]
      · by_cases hmem : k ∈ ks
        · simp [firsts, hmem]
        · simp [firsts, hmem, hkj]

theorem firstOccurrences_concat (ks : List Keyword) (k : Keyword) :
    firstOccurrences (ks ++ [k]) =
      if k ∈ ks then firstOccurrences ks else firstOccurrences ks ++ [k] := by
  have hearlierUnchanged : (ks.zipIdx.filter fun e => e.1 ∉ (ks ++ [k]).take e.2) =
      ks.zipIdx.filter fun e => e.1 ∉ ks.take e.2 := by
    apply List.filter_congr
    rintro ⟨j, i⟩ hmem
    have hi := List.snd_lt_of_mem_zipIdx hmem
    rw [List.take_append_of_le_length (by simpa using Nat.le_of_lt hi)]
  rw [firstOccurrences, List.zipIdx_append, List.filter_append, hearlierUnchanged, List.map_append,
    firstOccurrences]
  split
  · next hmem => simp [hmem]
  · next hmem => simp [hmem]

theorem insertByText_eq (entries : List Keyword) (k : Keyword) :
    insertByText entries k = if k ∈ entries then entries else entries ++ [k] := by
  have hreplacedByItself : (entries.map fun j => if j.text == k.text then k else j) = entries := by
    apply List.map_id''
    intro j
    split
    · next h => exact (Keyword.text_injective (beq_iff_eq.mp h)).symm
    · rfl
  have hany : (entries.any fun j => j.text == k.text) = true ↔ k ∈ entries := by
    simp [Keyword.text_injective.eq_iff]
  simp only [insertByText, hreplacedByItself, hany]

/-- What a dictionary holds: the first occurrences of its words, which is also what is left when
they are inserted one by one. -/
structure KeepsFirsts (ks : List Keyword) : Prop where
  words : (ofWords ks).words = firstOccurrences ks
  inserted : (ofWords ks).words = ks.foldl insertByText []
  count : (ofWords ks).count = (firstOccurrences ks).length

theorem firsts_eq_firstOccurrences (ks : List Keyword) : firsts ks = firstOccurrences ks := by
  induction ks using List.reverseRecOn with
  | nil => rfl
  | append_singleton ks k ih => rw [firsts_concat, firstOccurrences_concat, ih]

theorem firsts_eq_foldl (ks : List Keyword) : firsts ks = ks.foldl insertByText [] := by
  induction ks using List.reverseRecOn with
  | nil => rfl
  | append_singleton ks k ih =>
      rw [firsts_concat, List.foldl_concat, ← ih, insertByText_eq]
      simp only [mem_firsts]

theorem keepsFirsts (ks : List Keyword) : KeepsFirsts ks where
  words := firsts_eq_firstOccurrences ks
  inserted := firsts_eq_foldl ks
  count := congrArg List.length (firsts_eq_firstOccurrences ks)

end Dictionary

/-! ## Asking about words -/

namespace Vocabulary

/-- A word spells one of the words of a vocabulary. -/
def Lists (v : Vocabulary) (word : String) : Prop :=
  ∃ e ∈ v.entries, SameSpelling e.1.toList word.toList

instance (v : Vocabulary) (word : String) : Decidable (v.Lists word) :=
  inferInstanceAs (Decidable (∃ e ∈ v.entries, SameSpelling e.1.toList word.toList))

/-- What the answer to a question about `words` has to be, given the dialect's `listing`. -/
structure Answers (answer listing : Vocabulary) (words : List String) : Prop where
  asked : answer.entries.map Prod.fst = words
  /-- A keyword is reported only for a word that spells it, and is listed itself. -/
  reserved : ∀ w k, (w, some k) ∈ answer.entries →
    (k.text, some k) ∈ listing.entries ∧ SameSpelling k.text.toList w.toList
  not_reserved : (answer.entries.filter fun e => e.2.isNone).map Prod.fst =
    words.filter fun w => ¬ listing.Lists w
  unreserved : answer.unreserved = (words.filter fun w => ¬ listing.Lists w).length
  succeeds : answer.verdict = .ok () ↔ ∀ w ∈ words, listing.Lists w

theorem lists_listing_iff {d : Dialect} {w : String} :
    (lookUp d []).Lists w ↔ ∃ k ∈ d.reserved, SameSpelling k.text.toList w.toList := by
  simp [Lists, lookUp, Dialect.dictionary, Dictionary.ofWords, Dictionary.mem_firsts]

/-- A word is not found exactly if it matches nothing that the dialect lists. -/
theorem find?_eq_none_iff {d : Dialect} {w : String} :
    d.dictionary.find? w.toList = none ↔ ¬ (lookUp d []).Lists w := by
  rw [Option.eq_none_iff_forall_ne_some, lists_listing_iff]
  simp only [Dialect.dictionary, ne_eq, Dictionary.find?_eq_some_iff, not_exists]

theorem entries_lookUp {d : Dialect} {words : List String} (h : words ≠ []) :
    (lookUp d words).entries = words.map fun w => (w, d.dictionary.find? w.toList) := by
  cases words with
  | nil => exact absurd rfl h
  | cons w words => rfl

theorem not_reserved_lookUp {d : Dialect} {words : List String} (h : words ≠ []) :
    ((lookUp d words).entries.filter fun e => e.2.isNone).map Prod.fst =
      words.filter fun w => ¬ (lookUp d []).Lists w := by
  rw [entries_lookUp h, List.filter_map, List.map_map]
  have hsame : ((fun e : String × Option Keyword => e.2.isNone) ∘
      fun w => (w, d.dictionary.find? w.toList)) = fun w => ¬ (lookUp d []).Lists w := by
    funext w
    rw [Function.comp_apply, Bool.eq_iff_iff, Option.isNone_iff_eq_none, decide_eq_true_iff]
    exact find?_eq_none_iff
  rw [hsame]
  exact List.map_id'' (fun _ => rfl) _

theorem unreserved_lookUp {d : Dialect} {words : List String} (h : words ≠ []) :
    (lookUp d words).unreserved = (words.filter fun w => ¬ (lookUp d []).Lists w).length := by
  rw [← not_reserved_lookUp h, List.length_map, unreserved, List.countP_eq_length_filter]

theorem verdict_eq_ok_iff {v : Vocabulary} : v.verdict = .ok () ↔ v.unreserved = 0 := by
  unfold verdict
  split <;> simp [*]

theorem answers_lookUp (d : Dialect) {words : List String} (h : words ≠ []) :
    (lookUp d words).Answers (lookUp d []) words where
  asked := by
    rw [entries_lookUp h, List.map_map]
    exact List.map_id'' (fun _ => rfl) words
  reserved := by
    intro w k hmem
    rw [entries_lookUp h] at hmem
    obtain ⟨w, -, heq⟩ := List.mem_map.mp hmem
    obtain ⟨rfl, hfind⟩ := Prod.mk.inj heq
    obtain ⟨hk, hspelling⟩ := Dictionary.find?_eq_some_iff.mp hfind
    exact ⟨List.mem_map.mpr ⟨k, Dictionary.mem_firsts.mpr hk, rfl⟩, hspelling⟩
  not_reserved := not_reserved_lookUp h
  unreserved := unreserved_lookUp h
  succeeds := by
    rw [verdict_eq_ok_iff, unreserved_lookUp h, List.length_eq_zero_iff, List.filter_eq_nil_iff]
    simp

end Vocabulary

/-- A dictionary finds exactly the keywords it was given, under any case of their ASCII letters,
in agreement with the search among all keywords. It holds each of them once, in the order they
were first given. Asking a dialect about words therefore reports as not reserved those that match
nothing in its own listing. -/
theorem reserved_words_exact (ks : List Keyword) :
    (∀ w, Dictionary.Decides ks w) ∧ Dictionary.KeepsFirsts ks ∧
      ∀ (d : Dialect) (words : List String), words ≠ [] →
        (Vocabulary.lookUp d words).Answers (Vocabulary.lookUp d []) words := by
  refine ⟨Dictionary.decides ks, Dictionary.keepsFirsts ks, ?_⟩
  intro d words h
  exact Vocabulary.answers_lookUp d h

/-- A word given twice is kept once, a Kelvin sign is not the letter K, and `limit` is not among
the words common to all dialects. -/
theorem reserved_words_exact_like :
    (Dictionary.ofWords [.SELECT, .LIKE, .SELECT]).words = [.SELECT, .LIKE] ∧
    (Dictionary.ofWords [.SELECT, .LIKE, .SELECT]).find? ['l', 'I', 'k', 'E'] = some .LIKE ∧
    (Dictionary.ofWords [.SELECT, .LIKE, .SELECT]).find? ['l', 'i', '\u212a', 'e'] = none ∧
    ["select", "limit"] ≠ [] ∧
    (Vocabulary.lookUp .common ["select", "limit"]).Answers (Vocabulary.lookUp .common [])
      ["select", "limit"] ∧
    (Vocabulary.lookUp .common ["select", "limit"]).unreserved = 1 := by
  obtain ⟨hdecides, hkeeps, hanswers⟩ := reserved_words_exact [.SELECT, .LIKE, .SELECT]
  refine ⟨hkeeps.words, ?_, ?_, by simp, hanswers .common ["select", "limit"] (by simp), ?_⟩
  · exact ((hdecides _).found .LIKE).mpr ⟨by decide, by decide +kernel⟩
  · rw [Option.eq_none_iff_forall_ne_some]
    intro k hk
    have hascii := ((hdecides _).exact_word k hk).2 '\u212a' (by simp)
    revert hascii
    decide
  · decide +kernel

end SqlLexis
