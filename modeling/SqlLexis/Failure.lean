import SqlLexis.Dialect
import SqlLexis.Files
import SqlLexis.LexicalError

/-!
# Failures

Every reason for which the tool gives up, and what it says then. Setting up its trace output, on
which no answer depends, is not among them.
-/

namespace SqlLexis

inductive Failure where
  /-- The settings file that was asked for is not there. -/
  | settingsNotFound (path : String)
  /-- The settings file is malformed, or a setting has a wrong value. -/
  | settingsMalformed
  /-- The settings ask for no parallel job at all. -/
  | settingsWithoutJobs
  /-- There is nothing to check. -/
  | noInputFiles
  /-- A check was asked for with no parallel job at all. -/
  | noJobs
  /-- The workers of a check could not be started. -/
  | workersNotStarted (why : String)
  /-- A statement was given both as text and as a file. -/
  | textAndFile
  | inputNotFound (path : String)
  | inputNotFile (path : String)
  | filesFailed (count : Nat)
  | wordsNotReserved (count : Nat) (dialect : Dialect)
  /-- A statement cannot be split into tokens. -/
  | lexical (e : LexicalError)
  /-- An input cannot be read. -/
  | unreadable (why : ReadError)
  deriving Repr, DecidableEq

namespace Failure

/-- The kind of a failure, which its message starts with. -/
inductive Kind where
  | configuration
  | validation
  | lexical
  | io
  deriving Repr, DecidableEq

def Kind.title : Kind → String
  | configuration => "Configuration error"
  | validation => "Validation error"
  | lexical => "Lexical error"
  | io => "IO error"

def kind : Failure → Kind
  | settingsNotFound _ | settingsMalformed | settingsWithoutJobs | workersNotStarted _ =>
    .configuration
  | noInputFiles | noJobs | textAndFile | inputNotFound _ | inputNotFile _ | filesFailed _
  | wordsNotReserved _ _ => .validation
  | lexical _ => .lexical
  | unreadable _ => .io

def detail : Failure → String
  | settingsNotFound path => "Configuration file not found: " ++ path
  | settingsMalformed => "Failed to parse configuration"
  | settingsWithoutJobs => "check.jobs must be at least 1"
  | noInputFiles => "No input files specified"
  | noJobs => "Number of jobs must be at least 1"
  | workersNotStarted why => "Failed to start worker pool: " ++ why
  | textAndFile => "Give either SQL text or --file, not both"
  | inputNotFound path => "Input path does not exist: " ++ path
  | inputNotFile path => "Input path is not a file: " ++ path
  | filesFailed n => toString n ++ " file(s) failed lexical check"
  | wordsNotReserved n d => toString n ++ " word(s) not reserved in " ++ d.name
  | lexical e => e.message
  | unreadable why => why.message

def message (f : Failure) : String :=
  f.kind.title ++ ": " ++ f.detail

end Failure

end SqlLexis
