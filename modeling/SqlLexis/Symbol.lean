import SqlLexis.Character

/-!
# Symbols

Operators and punctuation: a fixed table that every dialect shares. `ofChars?` answers
only for the exact text of a symbol; choosing the longest one is the scanner's job.
-/

namespace SqlLexis

/-- An operator or a punctuation mark. -/
inductive Symbol where
  | leftParen | rightParen | leftBrace | rightBrace | leftBracket | rightBracket | semi
  | comma | dot | doubleDot | plus | sub | star | slash | question | eq | gt | lt | bang
  | tilde | caret | percent | colon | doubleColon | colonEq | ltEq | gtEq | ltEqGt | ltGt
  | bangEq | bangGt | bangLt | amp | bar | doubleAmp | doubleBar | doubleLt | doubleGt
  | doubleEq | pound
  deriving Repr, DecidableEq

namespace Symbol

/-- The characters that write the symbol. -/
def chars : Symbol → List Char
  | .leftParen => ['(']
  | .rightParen => [')']
  | .leftBrace => ['\x7b']
  | .rightBrace => ['\x7d']
  | .leftBracket => ['[']
  | .rightBracket => [']']
  | .semi => [';']
  | .comma => [',']
  | .dot => ['.']
  | .doubleDot => ['.', '.']
  | .plus => ['+']
  | .sub => ['-']
  | .star => ['*']
  | .slash => ['/']
  | .question => ['?']
  | .eq => ['=']
  | .gt => ['>']
  | .lt => ['<']
  | .bang => ['!']
  | .tilde => ['~']
  | .caret => ['^']
  | .percent => ['%']
  | .colon => [':']
  | .doubleColon => [':', ':']
  | .colonEq => [':', '=']
  | .ltEq => ['<', '=']
  | .gtEq => ['>', '=']
  | .ltEqGt => ['<', '=', '>']
  | .ltGt => ['<', '>']
  | .bangEq => ['!', '=']
  | .bangGt => ['!', '>']
  | .bangLt => ['!', '<']
  | .amp => ['&']
  | .bar => ['|']
  | .doubleAmp => ['&', '&']
  | .doubleBar => ['|', '|']
  | .doubleLt => ['<', '<']
  | .doubleGt => ['>', '>']
  | .doubleEq => ['=', '=']
  | .pound => ['#']

/-- The symbol written out. -/
def text (s : Symbol) : String := String.ofList s.chars

/-- The symbol named in words. -/
def name : Symbol → String
  | .leftParen => "LeftParen"
  | .rightParen => "RightParen"
  | .leftBrace => "LeftBrace"
  | .rightBrace => "RightBrace"
  | .leftBracket => "LeftBracket"
  | .rightBracket => "RightBracket"
  | .semi => "Semi"
  | .comma => "Comma"
  | .dot => "Dot"
  | .doubleDot => "DoubleDot"
  | .plus => "Plus"
  | .sub => "Sub"
  | .star => "Star"
  | .slash => "Slash"
  | .question => "Question"
  | .eq => "Eq"
  | .gt => "Gt"
  | .lt => "Lt"
  | .bang => "Bang"
  | .tilde => "Tilde"
  | .caret => "Caret"
  | .percent => "Percent"
  | .colon => "Colon"
  | .doubleColon => "DoubleColon"
  | .colonEq => "ColonEq"
  | .ltEq => "LtEq"
  | .gtEq => "GtEq"
  | .ltEqGt => "LtEqGt"
  | .ltGt => "LtGt"
  | .bangEq => "BangEq"
  | .bangGt => "BangGt"
  | .bangLt => "BangLt"
  | .amp => "Amp"
  | .bar => "Bar"
  | .doubleAmp => "DoubleAmp"
  | .doubleBar => "DoubleBar"
  | .doubleLt => "DoubleLt"
  | .doubleGt => "DoubleGt"
  | .doubleEq => "DoubleEq"
  | .pound => "Pound"

/-- Every symbol, in declaration order. -/
def all : List Symbol :=
  [
    .leftParen, .rightParen, .leftBrace, .rightBrace, .leftBracket, .rightBracket, .semi,
    .comma, .dot, .doubleDot, .plus, .sub, .star, .slash, .question, .eq, .gt, .lt, .bang,
    .tilde, .caret, .percent, .colon, .doubleColon, .colonEq, .ltEq, .gtEq, .ltEqGt, .ltGt,
    .bangEq, .bangGt, .bangLt, .amp, .bar, .doubleAmp, .doubleBar, .doubleLt, .doubleGt,
    .doubleEq, .pound
  ]

/-- The symbol whose text is exactly `cs`. -/
def ofChars? (cs : List Char) : Option Symbol :=
  all.find? fun s => s.chars == cs

end Symbol

end SqlLexis
