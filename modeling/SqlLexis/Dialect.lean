import SqlLexis.Dictionary
import SqlLexis.Keyword.Reserved

/-!
# Dialects

One scanner serves every dialect. A dialect is a dictionary of reserved words and a
choice of optional lexical forms. Hints and variables are recognised by matchers, which
see the whole text and a position in it.
-/

namespace SqlLexis

/-- Tests whether an optional form begins at a position of a text. -/
abbrev Matcher := Source → Nat → Bool

/-- The text goes on with `word` at the position. -/
def beginsWith (word : List Char) : Matcher :=
  fun s n => word.isPrefixOf (s.rest n)

theorem lt_length_of_beginsWith {word : List Char} (hw : word ≠ []) {s : Source} {n : Nat}
    (h : beginsWith word s n = true) : n < s.length := by
  have hp : word <+: s.rest n := List.isPrefixOf_iff_prefix.mp h
  have hl := hp.length_le
  have hpos := List.length_pos_iff.mpr hw
  rw [s.length_rest n] at hl
  omega

/-- A matcher that only answers yes inside the text, so what it announces can be read. One that
also answers yes behind the text could announce variables there without end. -/
structure InnerMatcher where
  test : Matcher
  inside : ∀ {s : Source} {n : Nat}, test s n = true → n < s.length

/-- The optional lexical forms of a dialect; by default there are none. A hint may begin wherever
its matcher says, a variable only inside the text, and statements about all forms are about these.
-/
structure Forms where
  /-- Where a hint region begins; it runs to its closing mark like a block comment. -/
  hint : Option Matcher := none
  /-- Where a session or bind variable begins, always inside the text. -/
  bindVariable : Option InnerMatcher := none
  /-- National string literals `N'…'`. -/
  national : Bool := false
  /-- Line comments that begin with `#`. -/
  hashComment : Bool := false

namespace Forms

def beginsHint (f : Forms) (s : Source) (n : Nat) : Bool :=
  match f.hint with
  | some m => m s n
  | none => false

def beginsVariable (f : Forms) (s : Source) (n : Nat) : Bool :=
  match f.bindVariable with
  | some m => m.test s n
  | none => false

theorem lt_length_of_beginsVariable {f : Forms} {s : Source} {n : Nat}
    (h : f.beginsVariable s n = true) : n < s.length := by
  unfold beginsVariable at h
  split at h
  · exact InnerMatcher.inside _ h
  · exact absurd h (by simp)

/-- The forms as a record of which of them are on. -/
def display (f : Forms) : String :=
  "Syntax \x7b hint: " ++ toString f.hint.isSome
    ++ ", variable: " ++ toString f.bindVariable.isSome
    ++ ", nchars: " ++ toString f.national
    ++ ", hash_comment: " ++ toString f.hashComment ++ " \x7d"

/-- Executable comments of MySQL: `/*! … */`. -/
def executableComment : Matcher := beginsWith ['/', '*', '!']

/-- Optimizer hints of Oracle: `/*+ … */`. -/
def optimizerHint : Matcher := beginsWith ['/', '*', '+']

/-- Variables `@name` and `@@name`. -/
def atSign : InnerMatcher where
  test := beginsWith ['@']
  inside := lt_length_of_beginsWith (by simp)

end Forms

/-- The dialects that are known by name. -/
inductive Dialect where
  /-- The words common to all dialects and no optional form. -/
  | common
  | mysql
  | oracle
  | postgresql
  | sqlServer
  /-- The words of MySQL without its optional forms. -/
  | h2
  deriving Repr, DecidableEq

namespace Dialect

def all : List Dialect := [common, mysql, oracle, postgresql, sqlServer, h2]

/-- The lower-case name. -/
def name : Dialect → String
  | common => "default"
  | mysql => "mysql"
  | oracle => "oracle"
  | postgresql => "postgresql"
  | sqlServer => "sqlserver"
  | h2 => "h2"

def forms : Dialect → Forms
  | mysql => ⟨some Forms.executableComment, some Forms.atSign, false, true⟩
  | oracle => ⟨some Forms.optimizerHint, none, false, false⟩
  | sqlServer => ⟨none, some Forms.atSign, true, false⟩
  | common | postgresql | h2 => {}

/-- The words the dialect reserves, in listing order. -/
def reserved : Dialect → List Keyword
  | common => Keyword.common
  | mysql | h2 => Keyword.common ++ Keyword.mysqlOnly
  | oracle => Keyword.common ++ Keyword.oracleOnly
  | postgresql => Keyword.common ++ Keyword.postgresqlOnly
  | sqlServer => Keyword.common ++ Keyword.sqlServerOnly

def dictionary (d : Dialect) : Dictionary :=
  Dictionary.ofWords d.reserved

/-- The dialect a user names: any case of the ASCII letters, and a few short names. -/
def ofName? (s : String) : Option Dialect :=
  match String.ofList (s.toList.map Char.toLower) with
  | "default" => some common
  | "mysql" => some mysql
  | "oracle" => some oracle
  | "postgresql" | "postgres" | "pg" => some postgresql
  | "sqlserver" | "mssql" => some sqlServer
  | "h2" => some h2
  | _ => none

/-- The dialect a settings file names: the exact spellings it may use. -/
def ofSetting? : String → Option Dialect
  | "default" => some common
  | "mysql" | "MySQL" => some mysql
  | "oracle" => some oracle
  | "postgresql" | "postgres" | "PostgreSQL" => some postgresql
  | "sqlserver" | "mssql" | "SQLServer" => some sqlServer
  | "h2" => some h2
  | _ => none

/-- What a user is told about a name that is no dialect. -/
def unknownMessage (s : String) : String :=
  "unknown dialect `" ++ s ++ "` (expected one of: "
    ++ ", ".intercalate (all.map name) ++ ")"

end Dialect

/-- What a user is told about a word that is no keyword. -/
def Keyword.unknownMessage (word : String) : String :=
  "unknown keyword `" ++ word ++ "`"

end SqlLexis
