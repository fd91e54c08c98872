import SqlLexis.Token

/-!
# Dictionaries

The reserved words of one dialect. A word is looked up by raising its ASCII letters,
which is how keyword texts are written, so non-ASCII look-alikes never match.

The symbols are the same in every dictionary. They are looked up in their own table
(`Symbol.ofChars?`), which a dictionary therefore does not hold.
-/

namespace SqlLexis

/-- Reserved words in the order they were first given, none of them twice. -/
structure Dictionary where
  words : List Keyword
  nodup : words.Nodup

namespace Dictionary

/-- Keeps the first of equal keywords. -/
def firsts : List Keyword → List Keyword
  | [] => []
  | k :: ks => k :: (firsts ks).filter (· != k)

theorem mem_firsts {k : Keyword} {ks : List Keyword} : k ∈ firsts ks ↔ k ∈ ks := by
  induction ks with
  | nil => simp [firsts]
  | cons j ks ih =>
    by_cases h : k = j
    · simp [firsts, h]
    · simp [firsts, h, ih]

theorem nodup_firsts (ks : List Keyword) : (firsts ks).Nodup := by
  induction ks with
  | nil => simp [firsts]
  | cons j ks ih =>
    refine List.nodup_cons.mpr ⟨?_, ih.filter _⟩
    simp

/-- The dictionary of the given words; a repeated word is kept at its first place. -/
def ofWords (ks : List Keyword) : Dictionary :=
  ⟨firsts ks, nodup_firsts ks⟩

/-- Number of reserved words. -/
def count (d : Dictionary) : Nat := d.words.length

/-- A word with its ASCII letters raised. -/
def raise (word : List Char) : String :=
  String.ofList (word.map Char.toUpper)

/-- The keyword a word spells in this dictionary, whatever the case of its ASCII letters. -/
def find? (d : Dictionary) (word : List Char) : Option Keyword :=
  d.words.find? fun k => k.text == raise word

/-- The class of a word: a keyword if it is reserved, else `fallback`. -/
def classify (d : Dictionary) (word : List Char) (fallback : TokenKind) : TokenKind :=
  match d.find? word with
  | some k => .keyword k
  | none => fallback

end Dictionary

end SqlLexis
