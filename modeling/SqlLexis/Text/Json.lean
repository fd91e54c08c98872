/-!
# JSON text

Strings and indented layout of JSON. A string escapes quote, backslash and the controls
below U+0020, the common ones by a letter, and nothing else.
-/

namespace SqlLexis.Text.Json

/-- Two hexadecimal digits in lower case. -/
def twoDigits (n : Nat) : List Char :=
  [Nat.digitChar (n / 16), Nat.digitChar (n % 16)]

def escapeChar (c : Char) : List Char :=
  if c = '\x22' then ['\\', '\x22']
  else if c = '\\' then ['\\', '\\']
  else if c = '\x08' then ['\\', 'b']
  else if c = '\x0c' then ['\\', 'f']
  else if c = '\n' then ['\\', 'n']
  else if c = '\r' then ['\\', 'r']
  else if c = '\t' then ['\\', 't']
  else if c.toNat < 0x20 then ['\\', 'u', '0', '0'] ++ twoDigits c.toNat
  else [c]

/-- A string in quotes. -/
def quoted (cs : List Char) : List Char :=
  '\x22' :: cs.flatMap escapeChar ++ ['\x22']

/-- The start of a line `depth` levels in. -/
def indent (depth : Nat) : List Char :=
  '\n' :: List.replicate (2 * depth) ' '

/-- Written items between two brackets, one on a line, `depth` levels in. Without items the
brackets stand together. -/
def block (opening closing : Char) (depth : Nat) (items : List (List Char)) : List Char :=
  match items with
  | [] => [opening, closing]
  | first :: rest =>
    opening :: (indent (depth + 1) ++ first)
      ++ rest.flatMap (fun item => ',' :: (indent (depth + 1) ++ item))
      ++ indent depth ++ [closing]

/-- A member of an object. -/
def member (key : String) (value : List Char) : List Char :=
  quoted key.toList ++ [':', ' '] ++ value

end SqlLexis.Text.Json
