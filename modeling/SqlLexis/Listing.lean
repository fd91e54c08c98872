import SqlLexis.Text.Column
import SqlLexis.Text.Json
import SqlLexis.Token

/-!
# Listings

Tokens written out: as text, one token on a line in three columns, or as a JSON array.
-/

namespace SqlLexis

/-- How tokens are written out. -/
inductive Listing where
  | text
  | json
  deriving Repr, DecidableEq

namespace Listing

def name : Listing → String
  | text => "text"
  | json => "json"

def ofName? : String → Option Listing
  | "text" => some text
  | "json" => some json
  | _ => none

/-- A token on one line: class, escaped text and end, the first two filled up to a width. -/
def row (t : Token) : List Char :=
  Text.padRight 10 t.kind.name.toList ++ [' ']
    ++ Text.padRight 24 (Text.oneLine t.literals) ++ [' ']
    ++ Text.decimal t.stop ++ ['\n']

def rows (ts : List Token) : List Char := ts.flatMap row

/-- A token as a JSON object inside the array. -/
def object (t : Token) : List Char :=
  Text.Json.block '\x7b' '\x7d' 1
    [Text.Json.member "type" (Text.Json.quoted t.kind.name.toList),
      Text.Json.member "literals" (Text.Json.quoted t.literals),
      Text.Json.member "end_offset" (Text.decimal t.stop)]

def array (ts : List Token) : List Char :=
  Text.Json.block '[' ']' 0 (ts.map object)

/-- Tokens written out. -/
def write : Listing → List Token → List Char
  | text, ts => rows ts
  | json, ts => array ts

end Listing

end SqlLexis
