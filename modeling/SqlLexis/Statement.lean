import SqlLexis.Failure
import SqlLexis.Lexer

/-!
# Statements

Where the SQL text of a run comes from: the command line, a file or standard input.
-/

namespace SqlLexis

inductive Statement where
  | given (text : String)
  | file (path : String)
  | standardInput
  deriving Repr, DecidableEq

/-- What a run can read. -/
structure Inputs where
  files : Files
  standardInput : ByteArray

namespace Statement

/-- The statement that was asked for. A lone dash, and nothing at all, stand for standard
input. -/
def choose : Option String → Option String → Except Failure Statement
  | some _, some _ => .error .textAndFile
  | some "-", none => .ok standardInput
  | some text, none => .ok (given text)
  | none, some path => .ok (file path)
  | none, none => .ok standardInput

/-- What the statement is called in messages. -/
def origin : Statement → String
  | given _ => "<arg>"
  | file path => path
  | standardInput => "<stdin>"

/-- The text of a file, which has to be there and to be a file. -/
def readFile (files : Files) (path : String) : Except Failure (List Char) :=
  if !(files path).exists? then .error (.inputNotFound path)
  else if !(files path).isFile then .error (.inputNotFile path)
  else (files.readText path).mapError .unreadable

def read (inputs : Inputs) : Statement → Except Failure (List Char)
  | given text => .ok text.toList
  | file path => readFile inputs.files path
  | standardInput => (decodeText inputs.standardInput).mapError .unreadable

/-- The tokens of the statement. -/
def tokenize (inputs : Inputs) (d : Dialect) (s : Statement) : Except Failure (List Token) := do
  let text ← s.read inputs
  (SqlLexis.tokenize d text).mapError .lexical

end Statement

end SqlLexis
