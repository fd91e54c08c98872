import SqlLexis.Failure
import SqlLexis.Listing
import SqlLexis.Toml.Document

/-!
# Settings

What a settings file may say: the dialect, how tokens are written out, and how files are
checked. The command line takes precedence over all of it.
-/

namespace SqlLexis

structure Settings where
  dialect : Dialect := .common
  listing : Listing := .text
  /-- How many files may be checked at the same time; one per processor if not said. -/
  jobs : Option Nat := none
  failFast : Bool := false
  deriving Repr, DecidableEq

namespace Settings

/-- The name of the settings file. -/
def fileName : String := "sqltok.toml"

/-- A choice between names: a string, or a table whose only key is the name and which says
no more about it. -/
def choice : Toml.Value → Option String
  | .string s => some (String.ofList s)
  | .table _ [(k, v)] =>
    match v with
    | .array [] | .tables [] | .table _ [] => some (String.ofList k)
    | _ => none
  | _ => none

/-- A count that is not negative. -/
def count : Toml.Value → Option Nat
  | .integer (.ofNat n) => some n
  | _ => none

def flag : Toml.Value → Option Bool
  | .boolean b => some b
  | _ => none

/-- Reads a setting if it is there; `none` if it has a wrong value. -/
def setting {α : Type} (read : Toml.Value → Option α) (fallback : α) :
    Option Toml.Value → Option α
  | none => some fallback
  | some v => read v

/-- How files are checked: a table, or the number of jobs and the flag in this order. A date
is a table without any of the names. -/
def checking : Toml.Value → Option (Option Nat × Bool)
  | .table o es => byName (o, es)
  | .date => byName (Toml.Table.empty .inline)
  | .array vs => byPlace vs
  | .tables ts => byPlace (ts.map fun t => .table t.1 t.2)
  | _ => none
where
  byName (t : Toml.Table) : Option (Option Nat × Bool) := do
    let jobs ← setting (fun v => (count v).map some) none (t.get? "jobs".toList)
    let failFast ← setting flag false (t.get? "fail_fast".toList)
    return (jobs, failFast)
  byPlace (vs : List Toml.Value) : Option (Option Nat × Bool) := do
    let jobs ← setting (fun v => (count v).map some) none vs[0]?
    let failFast ← setting flag false vs[1]?
    return (jobs, failFast)

/-- The settings of a document. Unknown keys mean nothing. -/
def ofTable (t : Toml.Table) : Option Settings := do
  let dialect ← setting (fun v => (choice v).bind Dialect.ofSetting?) .common
    (t.get? "dialect".toList)
  let listing ← setting (fun v => (choice v).bind Listing.ofName?) .text (t.get? "format".toList)
  let (jobs, failFast) ← setting checking (none, false) (t.get? "check".toList)
  return { dialect, listing, jobs, failFast }

/-- The settings of a file. -/
def load (files : Files) (path : String) : Except Failure Settings := do
  if !(files path).exists? then throw (.settingsNotFound path)
  let text ← (files.readText path).mapError .unreadable
  match (Toml.read text).bind ofTable with
  | none => throw .settingsMalformed
  | some s => if s.jobs = some 0 then throw .settingsWithoutJobs else return s

/-- Where settings are looked for: the working directory, the user's directory and the
directory for settings. -/
def places (home config : Option String) : List String :=
  [fileName] ++ (home.map (· ++ "/.config/sqltok/" ++ fileName)).toList
    ++ (config.map (· ++ "/sqltok/" ++ fileName)).toList

/-- The settings of the first place where there are any, or those that need no file. -/
def find (files : Files) (places : List String) : Except Failure Settings :=
  match places.find? fun p => (files p).exists? with
  | some path => load files path
  | none => .ok {}

/-- The dialect asked for, or else the one of the settings. -/
def resolveDialect (s : Settings) (asked : Option Dialect) : Dialect :=
  asked.getD s.dialect

end Settings

end SqlLexis
