import SqlLexis.Character
import SqlLexis.Toml.Table

/-!
# TOML keys, strings, numbers and dates

Readers for the parts of a TOML document that stand on their own. A reader takes
characters from the front of a text, or fails and leaves the text as it was.
-/

namespace SqlLexis.Toml

abbrev Reader := StateT (List Char) Option

namespace Reader

/-- The next character. -/
def next : Reader Char := do
  match ← get with
  | c :: cs => set cs; return c
  | [] => failure

/-- The next character, which has to be of a class. -/
def one (p : Char → Bool) : Reader Char := do
  let c ← next
  if p c then return c else failure

/-- The given characters. -/
def word (w : List Char) : Reader Unit := do
  let cs ← get
  if w.isPrefixOf cs then set (cs.drop w.length) else failure

/-- The longest run of a class, which may be empty. -/
def many (p : Char → Bool) : Reader (List Char) := do
  let cs ← get
  set (cs.drop (runLength p cs))
  return cs.takeWhile p

/-- Whether the text goes on with the character. -/
def at? (c : Char) : Reader Bool := do
  return (← get).head? == some c

/-- How many characters are left. -/
def left : Reader Nat := do
  return (← get).length

end Reader

open Reader

/-! ## Blanks, comments and line ends -/

/-- Space or tab. -/
def isSpace (c : Char) : Bool := c == ' ' || c == '\t'

def spaces : Reader Unit := do
  let _ ← many isSpace

/-- A line feed, or a carriage return and a line feed. -/
def newline : Reader Unit := word ['\n'] <|> word ['\r', '\n']

/-- Tab and every character that is not a control. -/
def isTextChar (c : Char) : Bool := c == '\t' || (0x20 ≤ c.toNat && c != '\x7f')

/-- A comment up to the end of its line. -/
def comment : Reader Unit := do
  word ['#']
  let _ ← many isTextChar

/-- The end of a line or of the text. -/
def lineEnd : Reader Unit := do
  if (← left) = 0 then return ()
  newline

/-- What may follow on a line: blanks and a comment. -/
def restOfLine : Reader Unit := do
  spaces
  let _ ← optional comment
  lineEnd

/-- Blanks, comments and line ends, as many as there are. -/
def skipLines : Nat → Reader Unit
  | 0 => return ()
  | fuel + 1 => do
    spaces
    match ← optional (comment <|> newline) with
    | some _ => skipLines fuel
    | none => return ()

/-! ## Strings -/

def hexValue (ds : List Char) : Nat :=
  ds.foldl (fun n c => 16 * n + (if isDigit c then c.toNat - '0'.toNat
    else c.toLower.toNat - 'a'.toNat + 10)) 0

/-- A character given by its code point in `n` hexadecimal digits. -/
def codePoint (n : Nat) : Reader Char := do
  let cs ← get
  let ds := cs.take n
  if ds.length = n ∧ ds.all isHexDigit ∧ (hexValue ds).isValidChar then
    set (cs.drop n)
    return Char.ofNat (hexValue ds)
  else failure

/-- What a backslash introduces. -/
def escape : Reader Char := do
  match ← next with
  | 'b' => return '\x08'
  | 't' => return '\t'
  | 'n' => return '\n'
  | 'f' => return '\x0c'
  | 'r' => return '\r'
  | '\x22' => return '\x22'
  | '\\' => return '\\'
  | 'u' => codePoint 4
  | 'U' => codePoint 8
  | _ => failure

/-- The rest of a string in double quotes. -/
def basicBody : Nat → Reader (List Char)
  | 0 => failure
  | fuel + 1 => do
    let c ← one isTextChar
    if c = '\x22' then return []
    let c ← if c = '\\' then escape else pure c
    return c :: (← basicBody fuel)

def basicString : Reader (List Char) := do
  word ['\x22']
  basicBody (← left)

/-- A string in single quotes, in which nothing is escaped. -/
def literalString : Reader (List Char) := do
  word ['\x27']
  let cs ← many fun c => isTextChar c && c != '\x27'
  word ['\x27']
  return cs

/-- A backslash at the end of a line, with the blanks and line ends that follow. -/
def foldedLine : Reader Unit := do
  word ['\\']
  spaces
  newline
  let rec skip : Nat → Reader Unit
    | 0 => return ()
    | fuel + 1 => do
      spaces
      match ← optional newline with
      | some _ => skip fuel
      | none => return ()
  skip (← left)

/-- The rest of a string of several lines. It ends at three quotes, before which one or two
more belong to the text. -/
def multilineBody (quote : Char) (escapes : Bool) : Nat → Reader (List Char)
  | 0 => failure
  | fuel + 1 => do
    let quotes ← many (· == quote)
    if 3 ≤ quotes.length then
      if 6 ≤ quotes.length then failure else return quotes.drop 3
    let cs ← do
      match ← optional newline with
      | some _ => pure ['\n']
      | none =>
        if escapes && (← at? '\\') then
          match ← optional foldedLine with
          | some _ => pure []
          | none => do
            word ['\\']
            let c ← escape
            pure [c]
        else
          let c ← one isTextChar
          pure [c]
    return quotes ++ cs ++ (← multilineBody quote escapes fuel)

/-- A string of several lines; a line end right after the opening quotes is dropped. -/
def multilineString (quote : Char) (escapes : Bool) : Reader (List Char) := do
  word [quote, quote, quote]
  let _ ← optional newline
  multilineBody quote escapes ((← left) + 1)

def string : Reader (List Char) :=
  multilineString '\x22' true <|> basicString <|> multilineString '\x27' false <|> literalString

/-! ## Keys -/

def isBareKeyChar (c : Char) : Bool := isLetter c || isDigit c || c == '-' || c == '_'

/-- One part of a key: bare, or a string on one line. -/
def keyPart : Reader Key := do
  if ← at? '\x22' then basicString
  else if ← at? '\x27' then literalString
  else
    let k ← many isBareKeyChar
    if k.isEmpty then failure else return k

/-- How deep keys and values may be nested. -/
def depthLimit : Nat := 80

/-- The parts of a key after its first one. -/
def keyRest : Nat → Reader (List Key)
  | 0 => return []
  | fuel + 1 => do
    match ← optional (word ['.']) with
    | none => return []
    | some _ => do
      spaces
      let k ← keyPart
      spaces
      return k :: (← keyRest fuel)

/-- A key: the parts before its last one, and the last. -/
def key : Reader (List Key × Key) := do
  spaces
  let first ← keyPart
  spaces
  let parts := first :: (← keyRest (← left))
  if depthLimit ≤ parts.length then failure
  return (parts.dropLast, parts.getLastD first)

/-! ## Numbers and dates -/

/-- A digit and more digits, with single underscores between them. -/
def digits (p : Char → Bool) : Nat → Reader (List Char)
  | 0 => failure
  | fuel + 1 => do
    let d ← one p
    match ← optional (word ['_']) with
    | some _ => return d :: (← digits p fuel)
    | none =>
      match ← get with
      | c :: _ => if p c then return d :: (← digits p fuel) else return [d]
      | [] => return [d]

def digitRun (p : Char → Bool) : Reader (List Char) := do
  digits p (← left)

/-- The value of digits in a base. -/
def valueOf (base : Nat) (ds : List Char) : Nat :=
  ds.foldl (fun n c => base * n + hexValue [c]) 0

/-- A sign; true for a minus. -/
def sign : Reader Bool :=
  (do word ['-']; return true) <|> (do word ['+']; return false) <|> pure false

/-- Digits of a decimal integer: no zero in front of others. -/
def decimalDigits : Reader (List Char) := do
  if ← at? '0' then
    return [← next]
  digitRun isDigit

/-- An integer of 64 bits. -/
def bounded (i : Int) : Reader Int :=
  if -9223372036854775808 ≤ i ∧ i ≤ 9223372036854775807 then return i else failure

def isOctalDigit (c : Char) : Bool := '0' ≤ c && c ≤ '7'

def isBinaryDigit (c : Char) : Bool := c == '0' || c == '1'

/-- An integer in another base, announced by zero and a letter. -/
def based (letter : Char) (base : Nat) (p : Char → Bool) : Reader Int := do
  word ['0', letter]
  bounded (valueOf base (← digitRun p))

def decimalInteger : Reader Int := do
  let minus ← sign
  let n : Int := valueOf 10 (← decimalDigits)
  bounded (if minus then -n else n)

def integer : Reader Int :=
  based 'x' 16 isHexDigit <|> based 'o' 8 isOctalDigit <|> based 'b' 2 isBinaryDigit
    <|> decimalInteger

/-- The decimal `m · 10 ^ e` rounds to no finite number of 64 bits. -/
def overflows (m : Nat) (e : Int) : Bool :=
  let size : Int := (Nat.toDigits 10 m).length + e
  if m = 0 ∨ size < 300 then false
  else if 320 < size then true
  else
    let bound := Nat.pow 2 1024 - Nat.pow 2 970
    if 0 ≤ e then bound ≤ m * Nat.pow 10 e.toNat else bound * Nat.pow 10 (-e).toNat ≤ m

/-- The exponent of a float. -/
def exponent : Reader Int := do
  let _ ← one fun c => c == 'e' || c == 'E'
  let minus ← sign
  let n : Int := valueOf 10 (← digitRun isDigit)
  return if minus then -n else n

/-- A float with a fraction, an exponent or both; it may be too small, but not too large. -/
def float : Reader Unit := do
  let minus ← sign
  let whole ← decimalDigits
  let (fraction, e) ← (do return ([], ← exponent)) <|> (do
    word ['.']
    let ds ← digitRun isDigit
    return (ds, (← optional exponent).getD 0))
  if !minus && overflows (valueOf 10 (whole ++ fraction)) (e - fraction.length) then failure

/-- Infinity and the number that is none. -/
def specialFloat : Reader Unit := do
  let _ ← sign
  word ['i', 'n', 'f'] <|> word ['n', 'a', 'n']

/-- A number of exactly `n` digits between two bounds. -/
def fixed (n low high : Nat) : Reader Nat := do
  let cs ← get
  let ds := cs.take n
  let v := valueOf 10 ds
  if ds.length = n ∧ ds.all isDigit ∧ low ≤ v ∧ v ≤ high then
    set (cs.drop n)
    return v
  else failure

def daysInMonth (year month : Nat) : Nat :=
  if month = 2 then
    if year % 4 = 0 ∧ (year % 100 ≠ 0 ∨ year % 400 = 0) then 29 else 28
  else if month = 4 ∨ month = 6 ∨ month = 9 ∨ month = 11 then 30
  else 31

def calendarDate : Reader Unit := do
  let year ← fixed 4 0 9999
  word ['-']
  let month ← fixed 2 1 12
  word ['-']
  let _ ← fixed 2 1 (daysInMonth year month)

def timeOfDay : Reader Unit := do
  let _ ← fixed 2 0 23
  word [':']
  let _ ← fixed 2 0 59
  word [':']
  let _ ← fixed 2 0 60
  let _ ← optional (do
    word ['.']
    let _ ← one isDigit
    many isDigit)

def zone : Reader Unit := do
  let c ← next
  if c = 'Z' ∨ c = 'z' then return ()
  else if c = '+' ∨ c = '-' then
    let _ ← fixed 2 0 23
    word [':']
    let _ ← fixed 2 0 59
  else failure

/-- A date, a date with a time, or a time. -/
def dateTime : Reader Unit :=
  (do
    calendarDate
    let _ ← optional (do
      let _ ← one fun c => c == 'T' || c == 't' || c == ' '
      timeOfDay
      optional zone)) <|> timeOfDay

/-- A value that starts with a sign or a digit, or is spelled like a number. -/
def numeric : Reader Value :=
  (do dateTime; return .date) <|> (do float; return .float) <|> (do specialFloat; return .float)
    <|> (do return .integer (← integer))

/-- A value that holds no other value. -/
def scalar : Reader Value :=
  (do return .string (← string))
    <|> (do word ['t', 'r', 'u', 'e']; return .boolean true)
    <|> (do word ['f', 'a', 'l', 's', 'e']; return .boolean false)
    <|> numeric

end SqlLexis.Toml
