/-!
# Reserved words

Every word that some dialect reserves. A constructor is spelled as its word, which is
always upper case; texts are compared with it after raising ASCII letters. Which words
a dialect reserves is said in the module on reserved word lists.
-/

namespace SqlLexis

/-- A reserved word of some dialect, in declaration order. -/
inductive Keyword where
  -- Schema objects
  | SCHEMA | DATABASE | TABLE | COLUMN | VIEW | INDEX | TRIGGER | PROCEDURE | TABLESPACE
  | FUNCTION | SEQUENCE | CURSOR | DOMAIN | ROLE | USER | TEMPORARY | CONSTRAINT | PRIMARY
  | KEY | FOREIGN | REFERENCES | UNIQUE | CHECK | DEFAULT | CASCADE | RESTRICT | ADD | RENAME
  | TO
  -- Statements
  | SELECT | INSERT | UPDATE | DELETE | CREATE | ALTER | DROP | TRUNCATE | GRANT | REVOKE
  | BEGIN | COMMIT | ROLLBACK | SAVEPOINT | TRANSACTION | CALL | EXPLAIN | DESCRIBE | USE
  -- Clauses
  | DISTINCT | FROM | WHERE | GROUP | BY | HAVING | ORDER | ASC | DESC | UNION | ALL | ANY
  | SOME | EXCEPT | INTERSECT | MINUS | INTO | VALUES | SET | WITH | AS | ON | USING | JOIN
  | INNER | OUTER | LEFT | RIGHT | FULL | CROSS | NATURAL | FOR | OF | NOWAIT
  -- Expressions
  | IF | IS | NOT | NULL | TRUE | FALSE | EXISTS | BETWEEN | IN | LIKE | ESCAPE | AND | OR
  | XOR | CASE | WHEN | THEN | ELSE | END | CAST | COLLATE | INTERVAL
  -- Types
  | BOOLEAN | CHAR | CHARACTER | VARCHAR | INTEGER | INT | BIGINT | DECIMAL | NUMERIC | DOUBLE
  | DATE | TIME | TIMESTAMP
  -- Aggregates
  | MAX | MIN | SUM | COUNT | AVG
  -- Paging, locking and windows shared by several dialects
  | LIMIT | OFFSET | FETCH | FIRST | NEXT | LAST | ROW | ROWS | ONLY | NULLS | SHARE | SKIP
  | LOCKED | OVER | PARTITION | RETURNING | MERGE | MATCHED | PIVOT | UNPIVOT | SHOW
  -- MySQL
  | DUAL | VALUE | FORCE | IGNORE | REPLACE | DUPLICATE | HIGH_PRIORITY | LOW_PRIORITY
  | DELAYED | QUICK | STRAIGHT_JOIN | SQL_CALC_FOUND_ROWS | SQL_SMALL_RESULT | SQL_BIG_RESULT
  | SQL_BUFFER_RESULT | SQL_CACHE | SQL_NO_CACHE | DISTINCTROW | ROLLUP | DIV | MOD | REGEXP
  | RLIKE | AUTO_INCREMENT | LOCK | MODE | GLOBAL | SESSION
  -- Oracle
  | CONNECT | START | PRIOR | NOCYCLE | SIBLINGS | ROWNUM | SYSDATE | WAIT | MODEL | KEEP
  | VERSIONS
  -- PostgreSQL
  | ILIKE | SIMILAR | LATERAL | WINDOW | RECURSIVE | CURRENT | DO | NOTHING | CONFLICT
  | ANALYZE | VERBOSE
  -- SQL Server
  | TOP | PERCENT | TIES | OUTPUT | APPLY | NOLOCK | HOLDLOCK | ROWLOCK | TABLOCK | READPAST
  | UPDLOCK | XLOCK | IDENTITY | IDENTITY_INSERT | EXEC | EXECUTE | DECLARE | GO
  deriving Repr, DecidableEq

namespace Keyword

/-- The word itself, in upper case. -/
def text : Keyword → String
  | .SCHEMA => "SCHEMA"
  | .DATABASE => "DATABASE"
  | .TABLE => "TABLE"
  | .COLUMN => "COLUMN"
  | .VIEW => "VIEW"
  | .INDEX => "INDEX"
  | .TRIGGER => "TRIGGER"
  | .PROCEDURE => "PROCEDURE"
  | .TABLESPACE => "TABLESPACE"
  | .FUNCTION => "FUNCTION"
  | .SEQUENCE => "SEQUENCE"
  | .CURSOR => "CURSOR"
  | .DOMAIN => "DOMAIN"
  | .ROLE => "ROLE"
  | .USER => "USER"
  | .TEMPORARY => "TEMPORARY"
  | .CONSTRAINT => "CONSTRAINT"
  | .PRIMARY => "PRIMARY"
  | .KEY => "KEY"
  | .FOREIGN => "FOREIGN"
  | .REFERENCES => "REFERENCES"
  | .UNIQUE => "UNIQUE"
  | .CHECK => "CHECK"
  | .DEFAULT => "DEFAULT"
  | .CASCADE => "CASCADE"
  | .RESTRICT => "RESTRICT"
  | .ADD => "ADD"
  | .RENAME => "RENAME"
  | .TO => "TO"
  | .SELECT => "SELECT"
  | .INSERT => "INSERT"
  | .UPDATE => "UPDATE"
  | .DELETE => "DELETE"
  | .CREATE => "CREATE"
  | .ALTER => "ALTER"
  | .DROP => "DROP"
  | .TRUNCATE => "TRUNCATE"
  | .GRANT => "GRANT"
  | .REVOKE => "REVOKE"
  | .BEGIN => "BEGIN"
  | .COMMIT => "COMMIT"
  | .ROLLBACK => "ROLLBACK"
  | .SAVEPOINT => "SAVEPOINT"
  | .TRANSACTION => "TRANSACTION"
  | .CALL => "CALL"
  | .EXPLAIN => "EXPLAIN"
  | .DESCRIBE => "DESCRIBE"
  | .USE => "USE"
  | .DISTINCT => "DISTINCT"
  | .FROM => "FROM"
  | .WHERE => "WHERE"
  | .GROUP => "GROUP"
  | .BY => "BY"
  | .HAVING => "HAVING"
  | .ORDER => "ORDER"
  | .ASC => "ASC"
  | .DESC => "DESC"
  | .UNION => "UNION"
  | .ALL => "ALL"
  | .ANY => "ANY"
  | .SOME => "SOME"
  | .EXCEPT => "EXCEPT"
  | .INTERSECT => "INTERSECT"
  | .MINUS => "MINUS"
  | .INTO => "INTO"
  | .VALUES => "VALUES"
  | .SET => "SET"
  | .WITH => "WITH"
  | .AS => "AS"
  | .ON => "ON"
  | .USING => "USING"
  | .JOIN => "JOIN"
  | .INNER => "INNER"
  | .OUTER => "OUTER"
  | .LEFT => "LEFT"
  | .RIGHT => "RIGHT"
  | .FULL => "FULL"
  | .CROSS => "CROSS"
  | .NATURAL => "NATURAL"
  | .FOR => "FOR"
  | .OF => "OF"
  | .NOWAIT => "NOWAIT"
  | .IF => "IF"
  | .IS => "IS"
  | .NOT => "NOT"
  | .NULL => "NULL"
  | .TRUE => "TRUE"
  | .FALSE => "FALSE"
  | .EXISTS => "EXISTS"
  | .BETWEEN => "BETWEEN"
  | .IN => "IN"
  | .LIKE => "LIKE"
  | .ESCAPE => "ESCAPE"
  | .AND => "AND"
  | .OR => "OR"
  | .XOR => "XOR"
  | .CASE => "CASE"
  | .WHEN => "WHEN"
  | .THEN => "THEN"
  | .ELSE => "ELSE"
  | .END => "END"
  | .CAST => "CAST"
  | .COLLATE => "COLLATE"
  | .INTERVAL => "INTERVAL"
  | .BOOLEAN => "BOOLEAN"
  | .CHAR => "CHAR"
  | .CHARACTER => "CHARACTER"
  | .VARCHAR => "VARCHAR"
  | .INTEGER => "INTEGER"
  | .INT => "INT"
  | .BIGINT => "BIGINT"
  | .DECIMAL => "DECIMAL"
  | .NUMERIC => "NUMERIC"
  | .DOUBLE => "DOUBLE"
  | .DATE => "DATE"
  | .TIME => "TIME"
  | .TIMESTAMP => "TIMESTAMP"
  | .MAX => "MAX"
  | .MIN => "MIN"
  | .SUM => "SUM"
  | .COUNT => "COUNT"
  | .AVG => "AVG"
  | .LIMIT => "LIMIT"
  | .OFFSET => "OFFSET"
  | .FETCH => "FETCH"
  | .FIRST => "FIRST"
  | .NEXT => "NEXT"
  | .LAST => "LAST"
  | .ROW => "ROW"
  | .ROWS => "ROWS"
  | .ONLY => "ONLY"
  | .NULLS => "NULLS"
  | .SHARE => "SHARE"
  | .SKIP => "SKIP"
  | .LOCKED => "LOCKED"
  | .OVER => "OVER"
  | .PARTITION => "PARTITION"
  | .RETURNING => "RETURNING"
  | .MERGE => "MERGE"
  | .MATCHED => "MATCHED"
  | .PIVOT => "PIVOT"
  | .UNPIVOT => "UNPIVOT"
  | .SHOW => "SHOW"
  | .DUAL => "DUAL"
  | .VALUE => "VALUE"
  | .FORCE => "FORCE"
  | .IGNORE => "IGNORE"
  | .REPLACE => "REPLACE"
  | .DUPLICATE => "DUPLICATE"
  | .HIGH_PRIORITY => "HIGH_PRIORITY"
  | .LOW_PRIORITY => "LOW_PRIORITY"
  | .DELAYED => "DELAYED"
  | .QUICK => "QUICK"
  | .STRAIGHT_JOIN => "STRAIGHT_JOIN"
  | .SQL_CALC_FOUND_ROWS => "SQL_CALC_FOUND_ROWS"
  | .SQL_SMALL_RESULT => "SQL_SMALL_RESULT"
  | .SQL_BIG_RESULT => "SQL_BIG_RESULT"
  | .SQL_BUFFER_RESULT => "SQL_BUFFER_RESULT"
  | .SQL_CACHE => "SQL_CACHE"
  | .SQL_NO_CACHE => "SQL_NO_CACHE"
  | .DISTINCTROW => "DISTINCTROW"
  | .ROLLUP => "ROLLUP"
  | .DIV => "DIV"
  | .MOD => "MOD"
  | .REGEXP => "REGEXP"
  | .RLIKE => "RLIKE"
  | .AUTO_INCREMENT => "AUTO_INCREMENT"
  | .LOCK => "LOCK"
  | .MODE => "MODE"
  | .GLOBAL => "GLOBAL"
  | .SESSION => "SESSION"
  | .CONNECT => "CONNECT"
  | .START => "START"
  | .PRIOR => "PRIOR"
  | .NOCYCLE => "NOCYCLE"
  | .SIBLINGS => "SIBLINGS"
  | .ROWNUM => "ROWNUM"
  | .SYSDATE => "SYSDATE"
  | .WAIT => "WAIT"
  | .MODEL => "MODEL"
  | .KEEP => "KEEP"
  | .VERSIONS => "VERSIONS"
  | .ILIKE => "ILIKE"
  | .SIMILAR => "SIMILAR"
  | .LATERAL => "LATERAL"
  | .WINDOW => "WINDOW"
  | .RECURSIVE => "RECURSIVE"
  | .CURRENT => "CURRENT"
  | .DO => "DO"
  | .NOTHING => "NOTHING"
  | .CONFLICT => "CONFLICT"
  | .ANALYZE => "ANALYZE"
  | .VERBOSE => "VERBOSE"
  | .TOP => "TOP"
  | .PERCENT => "PERCENT"
  | .TIES => "TIES"
  | .OUTPUT => "OUTPUT"
  | .APPLY => "APPLY"
  | .NOLOCK => "NOLOCK"
  | .HOLDLOCK => "HOLDLOCK"
  | .ROWLOCK => "ROWLOCK"
  | .TABLOCK => "TABLOCK"
  | .READPAST => "READPAST"
  | .UPDLOCK => "UPDLOCK"
  | .XLOCK => "XLOCK"
  | .IDENTITY => "IDENTITY"
  | .IDENTITY_INSERT => "IDENTITY_INSERT"
  | .EXEC => "EXEC"
  | .EXECUTE => "EXECUTE"
  | .DECLARE => "DECLARE"
  | .GO => "GO"

/-- Every keyword, in declaration order. -/
def all : List Keyword :=
  [
    .SCHEMA, .DATABASE, .TABLE, .COLUMN, .VIEW, .INDEX, .TRIGGER, .PROCEDURE, .TABLESPACE,
    .FUNCTION, .SEQUENCE, .CURSOR, .DOMAIN, .ROLE, .USER, .TEMPORARY, .CONSTRAINT, .PRIMARY,
    .KEY, .FOREIGN, .REFERENCES, .UNIQUE, .CHECK, .DEFAULT, .CASCADE, .RESTRICT, .ADD, .RENAME,
    .TO, .SELECT, .INSERT, .UPDATE, .DELETE, .CREATE, .ALTER, .DROP, .TRUNCATE, .GRANT,
    .REVOKE, .BEGIN, .COMMIT, .ROLLBACK, .SAVEPOINT, .TRANSACTION, .CALL, .EXPLAIN, .DESCRIBE,
    .USE, .DISTINCT, .FROM, .WHERE, .GROUP, .BY, .HAVING, .ORDER, .ASC, .DESC, .UNION, .ALL,
    .ANY, .SOME, .EXCEPT, .INTERSECT, .MINUS, .INTO, .VALUES, .SET, .WITH, .AS, .ON, .USING,
    .JOIN, .INNER, .OUTER, .LEFT, .RIGHT, .FULL, .CROSS, .NATURAL, .FOR, .OF, .NOWAIT, .IF,
    .IS, .NOT, .NULL, .TRUE, .FALSE, .EXISTS, .BETWEEN, .IN, .LIKE, .ESCAPE, .AND, .OR, .XOR,
    .CASE, .WHEN, .THEN, .ELSE, .END, .CAST, .COLLATE, .INTERVAL, .BOOLEAN, .CHAR, .CHARACTER,
    .VARCHAR, .INTEGER, .INT, .BIGINT, .DECIMAL, .NUMERIC, .DOUBLE, .DATE, .TIME, .TIMESTAMP,
    .MAX, .MIN, .SUM, .COUNT, .AVG, .LIMIT, .OFFSET, .FETCH, .FIRST, .NEXT, .LAST, .ROW, .ROWS,
    .ONLY, .NULLS, .SHARE, .SKIP, .LOCKED, .OVER, .PARTITION, .RETURNING, .MERGE, .MATCHED,
    .PIVOT, .UNPIVOT, .SHOW, .DUAL, .VALUE, .FORCE, .IGNORE, .REPLACE, .DUPLICATE,
    .HIGH_PRIORITY, .LOW_PRIORITY, .DELAYED, .QUICK, .STRAIGHT_JOIN, .SQL_CALC_FOUND_ROWS,
    .SQL_SMALL_RESULT, .SQL_BIG_RESULT, .SQL_BUFFER_RESULT, .SQL_CACHE, .SQL_NO_CACHE,
    .DISTINCTROW, .ROLLUP, .DIV, .MOD, .REGEXP, .RLIKE, .AUTO_INCREMENT, .LOCK, .MODE, .GLOBAL,
    .SESSION, .CONNECT, .START, .PRIOR, .NOCYCLE, .SIBLINGS, .ROWNUM, .SYSDATE, .WAIT, .MODEL,
    .KEEP, .VERSIONS, .ILIKE, .SIMILAR, .LATERAL, .WINDOW, .RECURSIVE, .CURRENT, .DO, .NOTHING,
    .CONFLICT, .ANALYZE, .VERBOSE, .TOP, .PERCENT, .TIES, .OUTPUT, .APPLY, .NOLOCK, .HOLDLOCK,
    .ROWLOCK, .TABLOCK, .READPAST, .UPDLOCK, .XLOCK, .IDENTITY, .IDENTITY_INSERT, .EXEC,
    .EXECUTE, .DECLARE, .GO
  ]

/-- Keywords are ordered as declared. -/
instance : Ord Keyword where
  compare a b := compare a.ctorIdx b.ctorIdx

/-- Two words are the same up to the case of ASCII letters. -/
def sameWord : List Char → List Char → Bool
  | [], [] => true
  | a :: as, b :: bs => a.toLower == b.toLower && sameWord as bs
  | _, _ => false

/-- The keyword that a word spells, whatever the case of its ASCII letters. -/
def ofWord? (word : List Char) : Option Keyword :=
  all.find? fun k => sameWord k.text.toList word

end Keyword

end SqlLexis
