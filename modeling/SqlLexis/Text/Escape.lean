import SqlLexis.Text.Extender
import SqlLexis.Text.Unprintable

/-!
# Escaped text

How a text is shown inside a message: the usual short escapes for NUL, tab, carriage
return, line feed and backslash, a backslash before the quotes at hand, and the code
point in hexadecimal for what cannot be shown. The three forms differ only in the
quotes they escape and in where a grapheme extender is escaped.
-/

namespace SqlLexis.Text

/-- The code point as `\u`, an opening brace, lower-case digits and a closing brace. -/
def codePointEscape (c : Char) : List Char :=
  ['\\', 'u', '\x7b'] ++ Nat.toDigits 16 c.toNat ++ ['\x7d']

/-- Shows one character. `quotes` are those that get a backslash; `extender` says whether
a grapheme extender is escaped here. -/
def escapeChar (quotes : List Char) (extender : Bool) (c : Char) : List Char :=
  if c = '\x00' then ['\\', '0']
  else if c = '\t' then ['\\', 't']
  else if c = '\r' then ['\\', 'r']
  else if c = '\n' then ['\\', 'n']
  else if c = '\\' then ['\\', '\\']
  else if quotes.contains c then ['\\', c]
  else if extender && isExtender c then codePointEscape c
  else if isPrintable c then [c]
  else codePointEscape c

/-- One character in single quotes; a double quote needs no escape there. -/
def quotedChar (c : Char) : String :=
  String.ofList ('\x27' :: escapeChar ['\x27'] true c ++ ['\x27'])

/-- A text in double quotes; a single quote needs no escape there. -/
def quotedText (cs : List Char) : String :=
  String.ofList ('\x22' :: cs.flatMap (escapeChar ['\x22'] true) ++ ['\x22'])

/-- A text on one line, without quotes of its own: both quotes are escaped, and a grapheme
extender only where it would attach to what stands before the text. -/
def oneLine : List Char → List Char
  | [] => []
  | c :: cs => escapeChar ['\x27', '\x22'] true c ++ cs.flatMap (escapeChar ['\x27', '\x22'] false)

end SqlLexis.Text
