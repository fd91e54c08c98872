import SqlLexis.Diagnostic

/-!
# Diagnostic logs

The diagnostics of a run in the order in which they came up.
-/

namespace SqlLexis

structure DiagnosticLog where
  entries : List Diagnostic := []

namespace DiagnosticLog

def empty : DiagnosticLog := {}

def add (l : DiagnosticLog) (d : Diagnostic) : DiagnosticLog := ⟨l.entries ++ [d]⟩

/-- Number of diagnostics of a level. -/
def count (l : DiagnosticLog) (level : Level) : Nat :=
  l.entries.countP fun d => d.level == level

def errorCount (l : DiagnosticLog) : Nat := l.count .error

def warningCount (l : DiagnosticLog) : Nat := l.count .warning

def hasErrors (l : DiagnosticLog) : Bool := l.entries.any fun d => d.level == .error

end DiagnosticLog

end SqlLexis
