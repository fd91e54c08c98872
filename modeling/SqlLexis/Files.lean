/-!
# Files

What a path leads to, seen from the working directory. Everything the tool reads goes
through such a view, so a run is a function of it.
-/

namespace SqlLexis

/-- Why a path cannot be read as text. -/
inductive ReadError where
  /-- Nothing is there. -/
  | notFound
  /-- A file stands where the path needs a directory. -/
  | notDirectory
  /-- The path leads to a directory. -/
  | isDirectory
  /-- A part of the path is longer than names may be. -/
  | nameTooLong
  /-- The path holds the character that ends names. -/
  | nulInName
  /-- The bytes are not UTF-8. -/
  | notText
  /-- Any other reason the system gives. -/
  | system (reason : String)
  deriving Repr, DecidableEq

def ReadError.message : ReadError → String
  | notFound => "No such file or directory (os error 2)"
  | notDirectory => "Not a directory (os error 20)"
  | isDirectory => "Is a directory (os error 21)"
  | nameTooLong => "File name too long (os error 36)"
  | nulInName => "file name contained an unexpected NUL byte"
  | notText => "stream did not contain valid UTF-8"
  | system reason => reason

/-- What a path leads to. -/
inductive Entry where
  | file (bytes : ByteArray)
  | directory
  | absent (why : ReadError)

namespace Entry

def exists? : Entry → Bool
  | absent _ => false
  | _ => true

def isFile : Entry → Bool
  | file _ => true
  | _ => false

end Entry

/-- Bytes read as UTF-8; a byte order mark is kept. -/
def decodeText (bytes : ByteArray) : Except ReadError (List Char) :=
  match String.fromUTF8? bytes with
  | some s => .ok s.toList
  | none => .error .notText

/-- A view of the files. -/
abbrev Files := String → Entry

/-- The text of a file. -/
def Files.readText (files : Files) (path : String) : Except ReadError (List Char) :=
  match files path with
  | .file bytes => decodeText bytes
  | .directory => .error .isDirectory
  | .absent why => .error why

end SqlLexis
