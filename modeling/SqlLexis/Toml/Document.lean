import SqlLexis.Toml.Scalar

/-!
# TOML documents

A document is a series of lines, each of which opens a table or adds an entry to the table
opened last. Reading it yields its outermost table, or nothing if it is malformed.
-/

namespace SqlLexis.Toml

open Reader

mutual

/-- A value; `depth` is how many more brackets may be opened inside it. -/
def value (depth : Nat) : Nat → Reader Value
  | 0 => failure
  | fuel + 1 => do
    if ← at? '[' then
      if depth = 0 then failure
      let _ ← next
      return .array (← items (depth - 1) fuel)
    else if ← at? '\x7b' then
      if depth = 0 then failure
      let _ ← next
      spaces
      if ← at? '\x7d' then
        let _ ← next
        return .table .inline []
      let t ← entries (depth - 1) (Table.empty .inline) fuel
      return .table t.1 t.2
    else scalar

/-- The rest of an array; a comma may follow its last item. -/
def items (depth : Nat) : Nat → Reader (List Value)
  | 0 => failure
  | fuel + 1 => do
    skipLines (← left)
    if ← at? ']' then
      let _ ← next
      return []
    let v ← value depth fuel
    skipLines (← left)
    let c ← next
    if c = ']' then return [v]
    else if c = ',' then return v :: (← items depth fuel)
    else failure

/-- The rest of a table between braces, all on one line and without a last comma. -/
def entries (depth : Nat) (t : Table) : Nat → Reader Table
  | 0 => failure
  | fuel + 1 => do
    let (ks, k) ← key
    word ['=']
    spaces
    let v ← value depth fuel
    spaces
    let some t := t.assignInline ks k v | failure
    let c ← next
    if c = '\x7d' then return t
    else if c = ',' then entries depth t fuel
    else failure

end

/-- A line that does something. -/
inductive Line where
  /-- Opens a table. -/
  | header (path : List Key) (name : Key)
  /-- Opens one more table of a series. -/
  | next (path : List Key) (name : Key)
  /-- Adds an entry. -/
  | entry (path : List Key) (name : Key) (v : Value)

/-- A header in one or two pairs of brackets. -/
def header : Reader Line :=
  (do
    word ['[', '[']
    let (path, k) ← key
    word [']', ']']
    restOfLine
    return .next path k) <|> (do
    word ['[']
    let (path, k) ← key
    word [']']
    restOfLine
    return .header path k)

def entryLine : Reader Line := do
  let (path, k) ← key
  word ['=']
  spaces
  let v ← value (depthLimit - 1) (2 * (← left) + 2)
  restOfLine
  return .entry path k v

/-- All lines of a document; empty lines and comments say nothing. -/
def lines : Nat → Reader (List Line)
  | 0 => failure
  | fuel + 1 => do
    spaces
    if (← left) = 0 then return []
    if ← at? '#' then
      restOfLine
      lines fuel
    else if (← at? '\n') || (← at? '\x0d') then
      newline
      lines fuel
    else
      let l ← header <|> entryLine
      return l :: (← lines fuel)

/-- The table that lines build up. `path` is where the table opened last stands. -/
def build : List Key → Table → List Line → Option Table
  | _, t, [] => some t
  | _, t, .header path k :: ls => do build (path ++ [k]) (← t.openTable path k) ls
  | _, t, .next path k :: ls => do build (path ++ [k]) (← t.openNext path k) ls
  | path, t, .entry ks k v :: ls => do build path (← t.assign path ks k v) ls

/-- The outermost table of a document. A byte order mark at the start is passed over. -/
def read (text : List Char) : Option Table := do
  let text := if text.head? = some '\ufeff' then text.drop 1 else text
  let (ls, _) ← StateT.run (lines (text.length + 1)) text
  build [] (Table.empty .header) ls

end SqlLexis.Toml
