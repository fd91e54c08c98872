import SqlLexis.Files

/-!
# File trees

A directory and all below it, as a value. A path is followed part by part: every part
needs a directory to stand in, so a path through a file is refused, and `..` goes back to
the directory before. Above the top there is an empty directory. Names have at most 255
bytes and paths fewer than 4096.
-/

namespace SqlLexis

inductive FileTree where
  | file (bytes : ByteArray)
  | directory (children : List (String × FileTree))

namespace FileTree

def empty : FileTree := directory []

/-- The child of a directory with the given name. -/
def child? : FileTree → String → Option FileTree
  | file _, _ => none
  | directory cs, name => cs.lookup name

/-- Puts a child in place of the one with the same name. A file becomes a directory. -/
def setChild (t : FileTree) (name : String) (c : FileTree) : FileTree :=
  match t with
  | file _ => directory [(name, c)]
  | directory cs => directory ((name, c) :: cs.filter fun p => p.1 != name)

/-- The parts of a path that name something. -/
def parts (path : String) : List String :=
  (path.splitOn "/").filter fun p => p != "" && p != "."

/-- Changes what stands at the given parts; directories on the way are made. -/
def update (change : Option FileTree → FileTree) : List String → FileTree → FileTree
  | [], t => change (some t)
  | [name], t => t.setChild name (change (t.child? name))
  | name :: rest, t => t.setChild name (update change rest ((t.child? name).getD empty))

/-- Writes a file. -/
def writeFile (t : FileTree) (path : String) (bytes : ByteArray) : FileTree :=
  t.update (fun _ => file bytes) (parts path)

/-- Makes a directory, unless it is there already. -/
def makeDirectory (t : FileTree) (path : String) : FileTree :=
  t.update (fun old => match old with
    | some (directory cs) => directory cs
    | _ => empty) (parts path)

/-- Follows the parts of a path from a tree, whose enclosing directories are `above`,
innermost first. -/
def follow : List FileTree → FileTree → List String → Except ReadError FileTree
  | _, t, [] => .ok t
  | above, t, part :: rest =>
    match t with
    | file _ => .error .notDirectory
    | directory _ =>
      if part = "" ∨ part = "." then follow above t rest
      else if part = ".." then
        match above with
        | up :: above => follow above up rest
        | [] => follow [] empty rest
      else
        match t.child? part with
        | some c => follow (t :: above) c rest
        | none => .error (if 255 < part.utf8ByteSize then .nameTooLong else .notFound)

/-- What a relative path leads to. The empty path leads nowhere. -/
def look (t : FileTree) : Files := fun path =>
  if path.contains '\x00' then .absent .nulInName
  else if path = "" then .absent .notFound
  else if 4096 ≤ path.utf8ByteSize then .absent .nameTooLong
  else
    match follow [] t (path.splitOn "/") with
    | .ok (file bytes) => .file bytes
    | .ok (directory _) => .directory
    | .error why => .absent why

end FileTree

end SqlLexis
