import SqlLexis.Failure

/-!
# Vocabulary

Which words a dialect reserves: all of them, or an answer for each word asked about.
-/

namespace SqlLexis

/-- An answer to a question about reserved words. -/
structure Vocabulary where
  dialect : Dialect
  /-- Whether words were asked about; otherwise all reserved words are listed. -/
  asked : Bool
  /-- Each word with the keyword it spells in the dialect. -/
  entries : List (String × Option Keyword)

namespace Vocabulary

/-- Looks up each word, or lists every reserved word if there are none. -/
def lookUp (d : Dialect) (words : List String) : Vocabulary :=
  match words with
  | [] => ⟨d, false, d.dictionary.words.map fun k => (k.text, some k)⟩
  | ws => ⟨d, true, ws.map fun w => (w, d.dictionary.find? w.toList)⟩

def count (v : Vocabulary) : Nat := v.entries.length

/-- How many words are not reserved. -/
def unreserved (v : Vocabulary) : Nat :=
  v.entries.countP fun e => e.2.isNone

def line (v : Vocabulary) (word : String) (found : Option Keyword) : String :=
  if v.asked then
    match found with
    | some k => word ++ "  reserved (" ++ k.text ++ ")\n"
    | none => word ++ "  not reserved\n"
  else word ++ "\n"

/-- One line for each word. -/
def lines (v : Vocabulary) : String :=
  String.join (v.entries.map fun e => v.line e.1 e.2)

/-- Asking about a word that is not reserved is a failure. -/
def verdict (v : Vocabulary) : Except Failure Unit :=
  if v.unreserved = 0 then .ok () else .error (.wordsNotReserved v.unreserved v.dialect)

end Vocabulary

end SqlLexis
