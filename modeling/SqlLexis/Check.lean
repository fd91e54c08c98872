import SqlLexis.Diagnostic.Log
import SqlLexis.LexicalError.Report
import SqlLexis.Location.TextStore
import SqlLexis.Statement

/-!
# Checking files

Splits each of many files into tokens and reports on it. With `failFast`, files not yet
started are skipped once one has failed. A `Checker` keeps its diagnostics and the texts
they point into over several runs, and a run counts all failures logged so far.
-/

namespace SqlLexis

/-- What is to be checked, and how. -/
structure CheckJob where
  /-- The paths of the files. A path stands for the text it is shown as, which loses what is not
  UTF-8 in it. -/
  files : List String
  dialect : Dialect
  /-- How many files may be checked at the same time. -/
  jobs : Nat
  failFast : Bool

/-- What became of a file. -/
inductive FileOutcome where
  /-- Split into this many tokens, the end included. -/
  | passed (tokens : Nat)
  | unreadable (why : ReadError)
  | lexical (e : LexicalError)
  /-- Not started, because another file had failed. -/
  | skipped
  deriving Repr, DecidableEq

def FileOutcome.isFailure : FileOutcome → Bool
  | unreadable _ | lexical _ => true
  | passed _ | skipped => false

structure FileReport where
  /-- The path of the file, which stands for the text it is shown as, as in a job. -/
  path : String
  outcome : FileOutcome
  deriving Repr, DecidableEq

namespace Check

/-- What becomes of a file that is started. -/
def outcome (files : Files) (d : Dialect) (path : String) : FileOutcome :=
  match files.readText path with
  | .error why => .unreadable why
  | .ok text =>
    match tokenize d text with
    | .ok tokens => .passed tokens.length
    | .error e => .lexical e

/-- Checks files one after the other. `stopped` says that a file has failed before. -/
def reports (failFast : Bool) (outcomeOf : String → FileOutcome) (stopped : Bool) :
    List String → List FileReport
  | [] => []
  | path :: paths =>
    if failFast && stopped then
      ⟨path, .skipped⟩ :: reports failFast outcomeOf stopped paths
    else
      let o := outcomeOf path
      ⟨path, o⟩ :: reports failFast outcomeOf (stopped || o.isFailure) paths

end Check

/-- The result of a run. -/
structure CheckResult where
  reports : List FileReport
  processed : Nat
  /-- All failures logged by the checker so far. -/
  failed : Nat

def CheckResult.isSuccess (r : CheckResult) : Bool := r.failed == 0

/-- What comes of starting a number of workers: the system may refuse, and says why. -/
abbrev WorkerStart := Nat → Except String Unit

/-- Any number of workers is started. -/
def WorkerStart.granted : WorkerStart := fun _ => .ok ()

/-- Runs a job and keeps what it has to say. -/
structure Checker where
  job : CheckJob
  log : DiagnosticLog := .empty
  texts : TextStore := .empty

namespace Checker

def ofJob (job : CheckJob) : Checker := { job }

/-- Logs what a report calls for: an error for a failure, a warning for a file without
tokens. The text a diagnostic points into is kept under the path of the file. -/
def note (c : Checker) (r : FileReport) : Checker :=
  match r.outcome with
  | .passed tokens =>
    if 1 < tokens then c
    else
      let (id, texts) := c.texts.add r.path []
      { c with
        texts
        log := c.log.add
          { level := .warning
            message := "file contains no statement"
            span := Span.unknown.inText id
            code := some .noStatement } }
  | .skipped => c
  | .unreadable why =>
    let (id, texts) := c.texts.add r.path []
    { c with
      texts
      log := c.log.add
        { level := .error
          message := "cannot read file: " ++ why.message
          span := Span.unknown.inText id
          code := some .unreadable } }
  | .lexical e =>
    let (id, texts) := c.texts.add r.path e.input
    let d := e.toDiagnostic
    { c with texts, log := c.log.add { d with span := d.span.inText id } }

/-- A run whose workers hand in these reports, or could not be started for this reason: what the
reports call for is logged. -/
def runWith (handedIn : Except String (List FileReport)) (c : Checker) :
    Except Failure CheckResult × Checker :=
  if c.job.files.isEmpty then (.error .noInputFiles, c)
  else if c.job.jobs = 0 then (.error .noJobs, c)
  else
    match handedIn with
    | .error why => (.error (.workersNotStarted why), c)
    | .ok reports =>
      let c := reports.foldl note c
      (.ok ⟨reports, c.job.files.length, c.log.errorCount⟩, c)

/-- Starts the workers of the job, checks every file and logs what the reports call for. -/
def run (files : Files) (c : Checker) (start : WorkerStart := .granted) :
    Except Failure CheckResult × Checker :=
  c.runWith ((start c.job.jobs).map fun _ =>
    Check.reports c.job.failFast (Check.outcome files c.job.dialect) false c.job.files)

/-- The result of a run that starts with nothing logged. -/
def execute (files : Files) (c : Checker) (start : WorkerStart := .granted) :
    Except Failure CheckResult :=
  (run files (ofJob c.job) start).1

/-- The name of the text that a diagnostic points into. -/
def originOf (c : Checker) (d : Diagnostic) : String :=
  match c.texts.get? d.span.text with
  | some t => t.name
  | none => "<input>"

end Checker

/-- A report on one line. -/
def FileReport.line (r : FileReport) : String :=
  match r.outcome with
  | .passed tokens => "✅ " ++ r.path ++ " (" ++ toString tokens ++ " tokens)\n"
  | .skipped => "ℹ️ " ++ r.path ++ " skipped\n"
  | .unreadable _ | .lexical _ => "❌ " ++ r.path ++ "\n"

end SqlLexis
