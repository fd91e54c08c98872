import SqlLexis.Diagnostic
import SqlLexis.LexicalError
import SqlLexis.Location.NamedText

/-!
# Reporting lexical errors

A lexical error as a diagnostic: its code, the place in bytes, lines and columns, the
line it is on with a caret under the fault, and one suggestion.
-/

namespace SqlLexis.LexicalError

def Cause.code : Cause → DiagnosticCode
  | unexpectedChar _ => ⟨"E", 1001⟩
  | unterminatedChars _ => ⟨"E", 1002⟩
  | unterminatedComment => ⟨"E", 1003⟩
  | unterminatedHint => ⟨"E", 1004⟩
  | missingHexDigits => ⟨"E", 1005⟩

/-- The text of the error under a name that says it has none of its own. -/
def named (e : LexicalError) : NamedText := ⟨⟨0⟩, "<input>", e.input⟩

def toDiagnostic (e : LexicalError) : Diagnostic :=
  let byte := e.named.charToByte e.offset
  let (line, column) := e.named.lineCol byte
  { level := .error
    message := e.cause.message
    span := Span.point byte line.toUInt32 column.toUInt32
    code := some e.cause.code
    helps := [e.cause.help]
    snippets := [e.named.snippetAt byte] }

/-- The error for a terminal. -/
def render (e : LexicalError) (origin : String) : String :=
  e.toDiagnostic.render origin

end SqlLexis.LexicalError
