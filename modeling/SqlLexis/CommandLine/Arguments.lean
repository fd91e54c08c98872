import SqlLexis.Dialect
import SqlLexis.Listing

/-!
# Arguments

How the words of a command line are taken apart. Options are written `--name value`,
`--name=value`, `-n value` or `-nvalue`, short ones may share a dash, and `--` ends them.
An option may be given once at each level: before the command and after it. General
options may stand at both levels, and an environment variable stands in for one that is
missing.

Words are taken up in order, so the first fault or the first request for help decides.
Only a value that is a word of its own is read late: when its level goes on or ends, which
for the last option before a command is after the words of the command.
-/

namespace SqlLexis.CommandLine

/-! ## Values -/

/-- A path, which is never empty. -/
def path? (s : String) : Option String := if s = "" then none else some s

/-- A number of 64 bits; a plus may stand before it. -/
def number? (s : String) : Option Nat :=
  let ds := match s.toList with
    | '+' :: ds => ds
    | ds => ds
  let n := ds.foldl (fun n c => 10 * n + (c.toNat - '0'.toNat)) 0
  if ds.isEmpty || !ds.all isDigit || UInt64.size ≤ n then none else some n

def truth? : String → Option Bool
  | "true" => some true
  | "false" => some false
  | _ => none

/-! ## Options and commands -/

/-- The options of the tool and of its commands. -/
inductive Opt where
  | verbose | config | noColor | file | dialect | format | jobs | failFast | help | version
  deriving Repr, DecidableEq

namespace Opt

def long : Opt → String
  | verbose => "verbose"
  | config => "config"
  | noColor => "no-color"
  | file => "file"
  | dialect => "dialect"
  | format => "format"
  | jobs => "jobs"
  | failFast => "fail-fast"
  | help => "help"
  | version => "version"

def short? : Opt → Option Char
  | verbose => some 'v'
  | config => some 'c'
  | noColor => none
  | file => some 'f'
  | dialect => some 'd'
  | format => some 'F'
  | jobs => some 'j'
  | failFast => none
  | help => some 'h'
  | version => some 'V'

def takesValue : Opt → Bool
  | config | file | dialect | format | jobs => true
  | verbose | noColor | failFast | help | version => false

/-- The value can be read as what the option asks for. -/
def accepts : Opt → String → Bool
  | config, s | file, s => (path? s).isSome
  | dialect, s => (Dialect.ofName? s).isSome
  | format, s => (Listing.ofName? s).isSome
  | jobs, s => (number? s).isSome
  | verbose, _ | noColor, _ | failFast, _ | help, _ | version, _ => true

/-- The variable that stands in for a general option. -/
def standIn? : Opt → Option String
  | verbose => some "SQLTOK_VERBOSE"
  | config => some "SQLTOK_CONFIG"
  | noColor => some "SQLTOK_NO_COLOR"
  | _ => none

/-- Options that may stand before and after the command. -/
def general : List Opt := [verbose, config, noColor, help, version]

end Opt

/-- The commands. -/
inductive CommandName where
  | tokenize | check | keywords
  deriving Repr, DecidableEq

namespace CommandName

def all : List CommandName := [tokenize, check, keywords]

def name : CommandName → String
  | tokenize => "tokenize"
  | check => "check"
  | keywords => "keywords"

def ofName? (s : String) : Option CommandName := all.find? fun c => c.name == s

/-- The options of a command, the general ones included. -/
def options : CommandName → List Opt
  | tokenize => [.file, .dialect, .format] ++ Opt.general
  | check => [.dialect, .jobs, .failFast] ++ Opt.general
  | keywords => [.dialect] ++ Opt.general

/-- Whether a plain word may follow those that came before it: one statement, any number of
paths, or any words at all. -/
def admits : CommandName → List String → String → Bool
  | tokenize, before, _ => before.isEmpty
  | check, _, w => (path? w).isSome
  | keywords, _, _ => true

end CommandName

/-! ## Levels -/

/-- Why taking the words apart comes to an end early. -/
inductive Stop where
  /-- They do not fit the tool. -/
  | misuse
  /-- They ask for help or for the version. -/
  | help
  deriving Repr, DecidableEq

/-- The words of one level: the options with their values, and the other words. -/
structure Level where
  given : List (Opt × String) := []
  /-- An option whose value, a word of its own, has not been read yet. -/
  held : Option (Opt × String) := none
  plain : List String := []

namespace Level

def value? (l : Level) (o : Opt) : Option String := l.given.lookup o

def has (l : Level) (o : Opt) : Bool := (l.value? o).isSome

/-- Adds an option, which must not be there yet, with a value that can be read. A request
for help ends everything. -/
def give (l : Level) (o : Opt) (value : String) : Except Stop Level :=
  if o = .help ∨ o = .version then .error .help
  else if l.has o || !o.accepts value then .error .misuse
  else .ok { l with given := l.given ++ [(o, value)] }

/-- Adds the option that is held. -/
def settle (l : Level) : Except Stop Level :=
  match l.held with
  | none => .ok l
  | some (o, value) => { l with held := none }.give o value

end Level

/-- What may stand at a level: options, words that name a command and end the level, and
whether a plain word may follow those before it. -/
structure Grammar where
  options : List Opt
  commands : List String
  admits : List String → String → Bool

/-- What stands before the command. -/
def Grammar.outer : Grammar :=
  ⟨Opt.general, "help" :: CommandName.all.map (·.name), fun _ _ => false⟩

/-- What stands behind a command. -/
def Grammar.inner (c : CommandName) : Grammar := ⟨c.options, [], c.admits⟩

/-- A word that looks like an option: a dash and something behind it. -/
def looksLikeOption (word : String) : Bool :=
  match word.toList with
  | '-' :: _ :: _ => true
  | _ => false

/-- The letters behind a single dash. Yields the level and the option that still waits for
its value. -/
def letters (g : Grammar) (l : Level) : List Char → Except Stop (Level × Option Opt)
  | [] => .ok (l, none)
  | c :: cs =>
    match g.options.find? fun o => o.short? == some c with
    | none => .error .misuse
    | some o =>
      if o.takesValue then
        match cs with
        | [] => .ok (l, some o)
        | '=' :: v => do return (← l.give o (String.ofList v), none)
        | v => do return (← l.give o (String.ofList v), none)
      else do
        letters g (← l.give o "true") cs

/-- A word behind two dashes, with the value that an equals sign attaches to it. -/
def longName (g : Grammar) (l : Level) (word : List Char) :
    Except Stop (Level × Option Opt) :=
  let name := word.takeWhile (· != '=')
  match g.options.find? fun o => o.long.toList == name, word.drop name.length with
  | none, _ => .error .misuse
  | some o, [] => if o.takesValue then .ok (l, some o) else do return (← l.give o "true", none)
  | some o, _ :: v =>
    if o.takesValue then do return (← l.give o (String.ofList v), none) else .error .misuse

/-- A word that is no option. -/
def plainWord (g : Grammar) (l : Level) (w : String) : Except Stop Level :=
  if g.admits l.plain w then .ok { l with plain := l.plain ++ [w] } else .error .misuse

/-- One word that is not the value of an option before it. -/
def word (g : Grammar) (l : Level) (w : String) : Except Stop (Level × Option Opt) :=
  match w.toList with
  | '-' :: '-' :: name => longName g l name
  | '-' :: c :: cs => letters g l (c :: cs)
  | _ => do return (← plainWord g l w, none)

/-- Takes the words of a level apart. The option whose value comes next is given first.
Yields the level, and the command with the words behind it; an option right before the
command is still held. -/
def level (g : Grammar) (l : Level) :
    Option Opt → List String → Except Stop (Level × Option (String × List String))
  | some _, [] => .error .misuse
  | none, [] => do return (← l.settle, none)
  | some o, w :: ws =>
    if looksLikeOption w then .error .misuse
    else level g { l with held := some (o, w) } none ws
  | none, w :: ws =>
    if g.commands.contains w then .ok (l, some (w, ws))
    else
      match l.settle with
      | .error e => .error e
      | .ok l =>
        if w = "--" then do return (← ws.foldlM (plainWord g) l, none)
        else
          match word g l w with
          | .ok (l, waiting) => level g l waiting ws
          | .error e => .error e

/-! ## Invocations -/

/-- What is to be done. -/
inductive Command where
  | tokenize (sql file : Option String) (dialect : Option Dialect) (listing : Option Listing)
  | check (files : List String) (dialect : Option Dialect) (jobs : Option Nat) (failFast : Bool)
  | keywords (words : List String) (dialect : Option Dialect)

/-- A command line taken apart. -/
structure Invocation where
  /-- More is to be logged. -/
  verbose : Bool
  /-- The log is to be plain. -/
  noColor : Bool
  /-- The settings file to use. -/
  config : Option String
  command : Command

/-- The value of an option that was given. -/
def valueOf {α : Type} (l : Level) (o : Opt) (read : String → Option α) : Option α :=
  (l.value? o).bind read

/-- The value of a general option at a level: the one given, or else the variable's. The
flag says whether it was given. -/
def generalValue {α : Type} (vars : String → Option String) (l : Level) (o : Opt)
    (read : String → Option α) : Except Stop (Option (Bool × α)) :=
  match l.value? o, o.standIn?.bind vars with
  | none, none => .ok none
  | some s, _ | none, some s =>
    match read s with
    | some a => .ok (some (l.has o, a))
    | none => .error .misuse

/-- The value of a general option: what is given at either level comes before a variable,
and the level of the command before the other. -/
def general {α : Type} (vars : String → Option String) (outer inner : Level) (o : Opt)
    (read : String → Option α) : Except Stop (Option α) := do
  let i ← generalValue vars inner o read
  let e ← generalValue vars outer o read
  return match i, e with
    | some (true, a), _ => some a
    | _, some (true, a) => some a
    | some (false, a), _ => some a
    | none, some (false, a) => some a
    | none, none => none

/-- The command that its level describes. -/
def command (name : CommandName) (l : Level) : Except Stop Command :=
  let dialect := valueOf l .dialect Dialect.ofName?
  match name with
  | .tokenize =>
    let file := valueOf l .file path?
    let listing := valueOf l .format Listing.ofName?
    match l.plain, file with
    | [], file => .ok (.tokenize none file dialect listing)
    | [sql], none => .ok (.tokenize (some sql) none dialect listing)
    | _, _ => .error .misuse
  | .check =>
    if l.plain.isEmpty then .error .misuse
    else .ok (.check l.plain dialect (valueOf l .jobs number?) (l.has .failFast))
  | .keywords => .ok (.keywords l.plain dialect)

/-- What may be asked about behind the command for help: everything, or one command. -/
def isTopic : List String → Bool
  | [] => true
  | [w] => Grammar.outer.commands.contains w
  | _ => false

/-- Takes a command line apart. -/
def parse (vars : String → Option String) (args : List String) : Except Stop Invocation := do
  match ← level .outer {} none args with
  | (_, none) => throw .misuse
  | (outer, some (w, ws)) =>
    match CommandName.ofName? w with
    | none => throw (if isTopic ws then .help else .misuse)
    | some name =>
      let (inner, _) ← level (.inner name) {} none ws
      let outer ← outer.settle
      let command ← command name inner
      let verbose ← general vars outer inner .verbose truth?
      let noColor ← general vars outer inner .noColor truth?
      let config ← general vars outer inner .config path?
      return ⟨verbose.getD false, noColor.getD false, config, command⟩

end SqlLexis.CommandLine
