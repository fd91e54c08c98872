import SqlLexis.Diagnostic.Snippet
import SqlLexis.Location.Span

/-!
# Diagnostics

What a user is told about a problem: how bad it is, a message, a code to look up, the
place, lines of the text and suggestions.
-/

namespace SqlLexis

/-- A family letter and a number of at least four digits, such as `E1001`. Family `E0…`
is about inputs, `E1…` about tokens, `W0…` about suspicious inputs. -/
structure DiagnosticCode where
  family : String
  number : UInt32
  deriving Repr, DecidableEq

namespace DiagnosticCode

def text (c : DiagnosticCode) : String :=
  c.family ++ String.ofList (Text.padLeft '0' 4 (Text.decimal c.number.toNat))

def display (c : DiagnosticCode) : String :=
  "DiagnosticCode(" ++ c.text ++ ")"

/-- An input could not be read. -/
def unreadable : DiagnosticCode := ⟨"E", 1⟩

/-- An input holds no token. -/
def noStatement : DiagnosticCode := ⟨"W", 1⟩

end DiagnosticCode

inductive Level where
  /-- The input cannot be used. -/
  | error
  /-- The input is suspicious. -/
  | warning
  deriving Repr, DecidableEq

def Level.name : Level → String
  | .error => "error"
  | .warning => "warning"

structure Diagnostic where
  level : Level
  message : String
  span : Span := Span.unknown
  code : Option DiagnosticCode := none
  helps : List String := []
  snippets : List Snippet := []
  deriving Repr, DecidableEq

namespace Diagnostic

/-- The first line: level, code and message. -/
def headline (d : Diagnostic) : String :=
  match d.code with
  | some c => d.level.name ++ "[" ++ c.text ++ "]: " ++ d.message ++ "\n"
  | none => d.level.name ++ ": " ++ d.message ++ "\n"

/-- The line that says where: the origin, and line and column where they are known. -/
def place (d : Diagnostic) (origin : String) : String :=
  if 0 < d.span.line then
    "  --> " ++ origin ++ ":" ++ toString d.span.line.toNat ++ ":"
      ++ toString d.span.column.toNat ++ "\n"
  else "  --> " ++ origin ++ "\n"

/-- The diagnostic for a terminal. `origin` names the text it is about. -/
def render (d : Diagnostic) (origin : String) : String :=
  d.headline ++ d.place origin
    ++ String.join (d.snippets.map fun s => String.ofList s.format ++ "\n")
    ++ String.join (d.helps.map fun h => "    = help: " ++ h ++ "\n")

end Diagnostic

end SqlLexis
