/-!
# TOML tables

The values of a TOML document and the rules by which its lines build up tables: a table
is opened once by a header, keys with dots may only extend tables made by such keys, and
the tables on the way to a header come into being on their own.
-/

namespace SqlLexis.Toml

abbrev Key := List Char

/-- How a table came into being, which decides who may still add to it. -/
inductive Origin where
  /-- Written between braces: complete. -/
  | inline
  /-- Opened by a header. -/
  | header
  /-- On the way to a header, and not opened itself. -/
  | implied
  /-- Made by a key with dots. -/
  | dotted
  deriving Repr, DecidableEq

/-- A value. Of floats and dates only their presence is kept. -/
inductive Value where
  | string (s : List Char)
  | integer (i : Int)
  | float
  | boolean (b : Bool)
  | date
  | array (items : List Value)
  /-- Tables that are opened one after the other under the same name. -/
  | tables (items : List (Origin × List (Key × Value)))
  | table (origin : Origin) (entries : List (Key × Value))

/-- A table: how it came into being, and its entries. -/
abbrev Table := Origin × List (Key × Value)

namespace Table

def empty (o : Origin) : Table := (o, [])

def get? (t : Table) (k : Key) : Option Value := t.2.lookup k

/-- Puts a value in place of the one under the same key, or at the end. -/
def set (t : Table) (k : Key) (v : Value) : Table :=
  (t.1, t.2.filter (fun e => e.1 != k) ++ [(k, v)])

/-- Changes the last table of a series. -/
def changeLast (change : Table → Option Table) : List Table → Option (List Table)
  | [] => none
  | [t] => (change t).map ([·])
  | t :: ts => (changeLast change ts).map (t :: ·)

/-- Changes the table at the end of a path of keys. Missing tables are made, as `made`
says; a series of tables stands for its last one; a table opened by a header is closed to
keys with dots, and a table between braces to everything. -/
def descend (made : Origin) (change : Table → Option Table) : List Key → Table → Option Table
  | [], t => change t
  | k :: ks, t =>
    match t.get? k with
    | none => (descend made change ks (empty made)).map fun s => t.set k (.table s.1 s.2)
    | some (.tables ts) => (changeLast (descend made change ks) ts).map fun ts => t.set k (.tables ts)
    | some (.table o es) =>
      if o = .inline ∨ (made = .dotted ∧ o = .header) then none
      else (descend made change ks (o, es)).map fun s => t.set k (.table s.1 s.2)
    | some _ => none

/-- Adds an entry under a new key. -/
def addNew (k : Key) (v : Value) (t : Table) : Option Table :=
  match t.get? k with
  | none => some (t.set k v)
  | some _ => none

/-- Adds the entry that a line under the header `path` writes at `ks` and `k`. A key with
dots ends in a table made by such keys. -/
def assign (path : List Key) (ks : List Key) (k : Key) (v : Value) : Table → Option Table :=
  descend .implied
    (descend .dotted (fun t => if ks ≠ [] ∧ t.1 ≠ .dotted then none else t.addNew k v) ks) path

/-- Opens the table of a header, which may have come into being on the way to another. -/
def openTable (path : List Key) (k : Key) : Table → Option Table :=
  descend .implied (fun t =>
    match t.get? k with
    | none => some (t.set k (.table .header []))
    | some (.table .implied es) => some (t.set k (.table .header es))
    | some _ => none) path

/-- Opens one more table of a series. -/
def openNext (path : List Key) (k : Key) : Table → Option Table :=
  descend .implied (fun t =>
    match t.get? k with
    | none => some (t.set k (.tables [empty .header]))
    | some (.tables ts) => some (t.set k (.tables (ts ++ [empty .header])))
    | some _ => none) path

/-- Adds an entry of a table between braces, where keys with dots make tables too. -/
def assignInline (ks : List Key) (k : Key) (v : Value) (t : Table) : Option Table :=
  descend .dotted (fun t => if ks ≠ [] ∧ t.1 ≠ .dotted then none else t.addNew k v) ks t

end Table

end SqlLexis.Toml
