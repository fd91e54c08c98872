import SqlLexis.Check
import SqlLexis.CommandLine.Arguments
import SqlLexis.Settings
import SqlLexis.Vocabulary

/-!
# The command line tool

What a run of the tool writes and how it ends, as a function of its arguments, of all it can
read, and of whether the system starts workers for it.
-/

namespace SqlLexis.CommandLine

/-- How a run ends and what it writes. -/
structure Outcome where
  exit : UInt32
  output : String
  errors : String
  deriving Repr, DecidableEq

/-- Everything a run depends on besides its arguments and the start of workers. -/
structure Environment where
  /-- Environment variables. -/
  vars : String → Option String
  inputs : Inputs
  /-- The user's directory. -/
  home : Option String
  /-- The directory for settings. -/
  config : Option String
  /-- How many files are checked at the same time unless said otherwise. -/
  processors : Nat
  /-- How long checking took, in milliseconds. -/
  elapsed : Nat

namespace Outcome

/-- A run that has written something and then succeeds or fails. -/
def ofVerdict (output errors : String) : Except Failure Unit → Outcome
  | .ok () => ⟨0, output, errors⟩
  | .error f => ⟨1, output, errors ++ "Error: " ++ f.message ++ "\n"⟩

def ofFailure (f : Failure) : Outcome := ofVerdict "" "" (.error f)

end Outcome

/-- Lists the tokens of a statement. A lexical error is shown in its place first. -/
def tokenize (inputs : Inputs) (d : Dialect) (listing : Listing) (s : Statement) : Outcome :=
  match s.tokenize inputs d with
  | .ok tokens =>
    let text := String.ofList (listing.write tokens)
    Outcome.ofVerdict (if listing = .json then text ++ "\n" else text) "" (.ok ())
  | .error (.lexical e) => Outcome.ofVerdict "" (e.render s.origin) (.error (.lexical e))
  | .error f => .ofFailure f

/-- The last line of a check. -/
def summary (r : CheckResult) (warnings elapsed : Nat) : String :=
  "📊 " ++ toString r.processed ++ " file(s) checked, " ++ toString r.failed ++ " failed, "
    ++ toString warnings ++ " warning(s) in " ++ toString elapsed ++ "ms\n"

/-- What a check writes after its run: one line for each file, the diagnostics, and a summary. -/
def Outcome.ofCheck (elapsed : Nat) : Except Failure CheckResult × Checker → Outcome
  | (.error f, _) => .ofFailure f
  | (.ok r, c) =>
    Outcome.ofVerdict
      (String.join (r.reports.map FileReport.line) ++ summary r c.log.warningCount elapsed)
      (String.join (c.log.entries.map fun d => d.render (c.originOf d)))
      (if c.log.hasErrors then .error (.filesFailed r.failed) else .ok ())

/-- Checks files. -/
def check (files : Files) (start : WorkerStart) (job : CheckJob) (elapsed : Nat) : Outcome :=
  .ofCheck elapsed ((Checker.ofJob job).run files start)

/-- Lists reserved words, or answers for each word asked about. -/
def keywords (d : Dialect) (words : List String) : Outcome :=
  let v := Vocabulary.lookUp d words
  Outcome.ofVerdict v.lines "" v.verdict

/-- The settings an invocation asks for. -/
def settings (env : Environment) (i : Invocation) : Except Failure Settings :=
  match i.config with
  | some path => Settings.load env.inputs.files path
  | none => Settings.find env.inputs.files (Settings.places env.home env.config)

/-- Carries out a command under settings. -/
def execute (env : Environment) (start : WorkerStart) (s : Settings) : Command → Outcome
  | .tokenize sql file dialect listing =>
    match Statement.choose sql file with
    | .ok statement =>
      tokenize env.inputs (s.resolveDialect dialect) (listing.getD s.listing) statement
    | .error f => .ofFailure f
  | .check files dialect jobs failFast =>
    check env.inputs.files start
      { files
        dialect := s.resolveDialect dialect
        jobs := jobs.getD (s.jobs.getD env.processors)
        failFast := failFast || s.failFast }
      env.elapsed
  | .keywords words dialect => keywords (s.resolveDialect dialect) words

/-- What is shown to someone who asks for help, or who needs it. -/
def usage : String :=
  "Usage: sqltok [-v] [-c CONFIG] [--no-color] COMMAND\n\n"
    ++ "  tokenize [SQL] [-f FILE] [-d DIALECT] [-F text|json]\n"
    ++ "  check FILES... [-d DIALECT] [-j JOBS] [--fail-fast]\n"
    ++ "  keywords [WORDS...] [-d DIALECT]\n"

/-- A run of the tool. Unless said otherwise, the system starts any number of workers. -/
def run (env : Environment) (args : List String) (start : WorkerStart := .granted) : Outcome :=
  match parse env.vars args with
  | .error .misuse => ⟨2, "", usage⟩
  | .error .help => ⟨0, usage, ""⟩
  | .ok i =>
    match settings env i with
    | .error f => .ofFailure f
    | .ok s => execute env start s i.command

end SqlLexis.CommandLine
