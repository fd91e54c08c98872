import SqlLexis.CommandLine

/-!
The program: reads what the command line names, runs the tool on it and writes the result.
-/

namespace SqlLexis

/-- What a path leads to right now. -/
def entryAt (path : String) : IO Entry := do
  try
    return .file (← IO.FS.readBinFile path)
  catch
    | .noFileOrDirectory .. => return .absent .notFound
    | .inappropriateType _ code _ =>
      return if code = 21 ∨ code = -21 then .directory else .absent .notDirectory
    | e => return .absent (.system (toString e))

/-- The paths that an invocation may read. -/
def pathsOf (places : List String) (i : CommandLine.Invocation) : List String :=
  (match i.config with
    | some path => [path]
    | none => places) ++
  (match i.command with
    | .tokenize _ file _ _ => file.toList
    | .check files _ _ _ => files
    | .keywords _ _ => [])

/-- Whether an invocation reads standard input. -/
def readsStandardInput : CommandLine.Command → Bool
  | .tokenize sql file _ _ =>
    match Statement.choose sql file with
    | .ok .standardInput => true
    | _ => false
  | _ => false

end SqlLexis

open SqlLexis

/-- Takes a snapshot of all that an invocation may read, and runs the tool on it. It checks files
one after the other, so no worker has to be started. -/
def main (args : List String) : IO UInt32 := do
  let started ← IO.monoMsNow
  let general := [CommandLine.Opt.verbose, .config, .noColor].filterMap CommandLine.Opt.standIn?
  let values ← general.mapM fun name => return (name, ← IO.getEnv name)
  let vars := fun name => (values.lookup name).join
  let home := (← IO.getEnv "HOME").filter (· != "")
  let config := ((← IO.getEnv "XDG_CONFIG_HOME").filter (·.startsWith "/")).or
    (home.map (· ++ "/.config"))
  let mut entries := []
  let mut standardInput := ByteArray.empty
  if let .ok i := CommandLine.parse vars args then
    for path in pathsOf (Settings.places home config) i do
      entries := (path, ← entryAt path) :: entries
    if readsStandardInput i.command then
      standardInput ← (← IO.getStdin).readBinToEnd
  let snapshot := entries
  let files : Files := fun path => (snapshot.lookup path).getD (.absent .notFound)
  let elapsed := (← IO.monoMsNow) - started
  let outcome := CommandLine.run ⟨vars, ⟨files, standardInput⟩, home, config, 1, elapsed⟩ args
  (← IO.getStdout).putStr outcome.output
  (← IO.getStderr).putStr outcome.errors
  return outcome.exit
