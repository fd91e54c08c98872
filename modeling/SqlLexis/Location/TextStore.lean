import SqlLexis.Location.NamedText

/-!
# The texts of a run

Texts are numbered in the order in which they are added.
-/

namespace SqlLexis

structure TextStore where
  texts : List NamedText := []

namespace TextStore

def empty : TextStore := {}

/-- Adds a text under the next number. -/
def add (m : TextStore) (name : String) (content : List Char) : TextId × TextStore :=
  let id : TextId := ⟨m.texts.length⟩
  (id, ⟨m.texts ++ [⟨id, name, content⟩]⟩)

def get? (m : TextStore) (id : TextId) : Option NamedText := m.texts[id.index]?

end TextStore

end SqlLexis
