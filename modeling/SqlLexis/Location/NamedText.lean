import SqlLexis.Diagnostic.Snippet
import SqlLexis.Location.Span
import SqlLexis.Text.Bytes
import SqlLexis.Text.Escape

/-!
# Named texts and their lines

A text with a name, and the correspondence between its bytes, characters, lines and
columns. A line starts at the beginning of the text or after a line feed; a byte inside a
character or past the end counts as the last character boundary before it.
-/

namespace SqlLexis

structure NamedText where
  id : TextId
  name : String
  content : List Char
  deriving Repr, DecidableEq

namespace NamedText

/-- The bytes that follow a line feed, for a text that starts at byte `pos`. -/
def startsAfterFeeds (pos : Nat) : List Char → List Nat
  | [] => []
  | c :: cs =>
    let after := pos + c.utf8Size
    if c = '\n' then after :: startsAfterFeeds after cs else startsAfterFeeds after cs

/-- The bytes at which the lines start. -/
def lineStarts (t : NamedText) : List Nat :=
  0 :: startsAfterFeeds 0 t.content

/-- Number of lines; an empty text has one. -/
def lineCount (t : NamedText) : Nat := t.lineStarts.length

/-- Where a line starts; lines count from zero here. -/
def lineStart? (t : NamedText) (line : Nat) : Option Nat := t.lineStarts[line]?

/-- The last character boundary at or before a byte. -/
def boundary (t : NamedText) (byte : Nat) : Nat :=
  Text.byteLength (Text.takeBytes byte t.content)

/-- The characters between two character boundaries. -/
def bytes (t : NamedText) (start stop : Nat) : List Char :=
  Text.takeBytes (stop - start) (Text.dropBytes start t.content)

/-- Line and column of a byte, both from one; columns count characters. -/
def lineCol (t : NamedText) (byte : Nat) : Nat × Nat :=
  let b := t.boundary byte
  let line := (t.lineStarts.takeWhile (· ≤ b)).length
  let start := (t.lineStart? (line - 1)).getD 0
  (line, (t.bytes start b).length + 1)

/-- The byte at which a character starts; the end of the text for positions past it. -/
def charToByte (t : NamedText) (n : Nat) : Nat :=
  Text.byteLength (t.content.take n)

/-- A text without the line feeds and carriage returns at its end. -/
def trimLineEnd (cs : List Char) : List Char :=
  (cs.reverse.dropWhile fun c => c == '\n' || c == '\r').reverse

/-- A line without its end; lines count from one here. -/
def lineAt? (t : NamedText) (line : Nat) : Option (List Char) :=
  if line = 0 then none
  else
    (t.lineStart? (line - 1)).map fun start =>
      let stop := (t.lineStart? line).getD (Text.byteLength t.content)
      trimLineEnd (t.bytes start stop)

/-- The line of a byte with a caret under its column. -/
def snippetAt (t : NamedText) (byte : Nat) : Snippet :=
  let (line, column) := t.lineCol byte
  ⟨(t.lineAt? line).getD [], line, column⟩

/-- What identifies the text and how long it is, as a record. -/
def display (t : NamedText) : String :=
  "SourceFile \x7b id: FileId(" ++ toString t.id.index ++ "), name: "
    ++ Text.quotedText t.name.toList ++ ", line_count: " ++ toString t.lineCount ++ " \x7d"

end NamedText

end SqlLexis
