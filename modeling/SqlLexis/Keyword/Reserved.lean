import SqlLexis.Keyword

/-!
# Reserved word lists

The words each dialect reserves: those common to all dialects, and what the dialect
adds. The order is the order in which they are listed to a user.
-/

namespace SqlLexis.Keyword

/-- Words reserved by every dialect. -/
def common : List Keyword :=
  [
    .SCHEMA, .DATABASE, .TABLE, .COLUMN, .VIEW, .INDEX, .TRIGGER, .PROCEDURE, .TABLESPACE,
    .FUNCTION, .SEQUENCE, .CURSOR, .DOMAIN, .ROLE, .USER, .TEMPORARY, .CONSTRAINT, .PRIMARY,
    .KEY, .FOREIGN, .REFERENCES, .UNIQUE, .CHECK, .DEFAULT, .CASCADE, .RESTRICT, .ADD, .RENAME,
    .TO, .SELECT, .INSERT, .UPDATE, .DELETE, .CREATE, .ALTER, .DROP, .TRUNCATE, .GRANT,
    .REVOKE, .BEGIN, .COMMIT, .ROLLBACK, .SAVEPOINT, .TRANSACTION, .CALL, .EXPLAIN, .DESCRIBE,
    .USE, .DISTINCT, .FROM, .WHERE, .GROUP, .BY, .HAVING, .ORDER, .ASC, .DESC, .UNION, .ALL,
    .ANY, .SOME, .EXCEPT, .INTERSECT, .MINUS, .INTO, .VALUES, .SET, .WITH, .AS, .ON, .USING,
    .JOIN, .INNER, .OUTER, .LEFT, .RIGHT, .FULL, .CROSS, .NATURAL, .FOR, .OF, .NOWAIT, .IF,
    .IS, .NOT, .NULL, .TRUE, .FALSE, .EXISTS, .BETWEEN, .IN, .LIKE, .ESCAPE, .AND, .OR, .XOR,
    .CASE, .WHEN, .THEN, .ELSE, .END, .CAST, .COLLATE, .INTERVAL, .BOOLEAN, .CHAR, .CHARACTER,
    .VARCHAR, .INTEGER, .INT, .BIGINT, .DECIMAL, .NUMERIC, .DOUBLE, .DATE, .TIME, .TIMESTAMP,
    .MAX, .MIN, .SUM, .COUNT, .AVG
  ]

/-- Words that MySQL and H2 reserve besides the common ones. -/
def mysqlOnly : List Keyword :=
  [
    .SHOW, .DUAL, .LIMIT, .OFFSET, .VALUE, .FORCE, .IGNORE, .REPLACE, .DUPLICATE,
    .HIGH_PRIORITY, .LOW_PRIORITY, .DELAYED, .QUICK, .STRAIGHT_JOIN, .SQL_CALC_FOUND_ROWS,
    .SQL_SMALL_RESULT, .SQL_BIG_RESULT, .SQL_BUFFER_RESULT, .SQL_CACHE, .SQL_NO_CACHE,
    .DISTINCTROW, .PARTITION, .ROLLUP, .DIV, .MOD, .REGEXP, .RLIKE, .AUTO_INCREMENT, .LOCK,
    .SHARE, .MODE, .GLOBAL, .SESSION
  ]

/-- Words that Oracle reserves besides the common ones. -/
def oracleOnly : List Keyword :=
  [
    .CONNECT, .START, .PRIOR, .NOCYCLE, .SIBLINGS, .ROWNUM, .SYSDATE, .WAIT, .SKIP, .LOCKED,
    .NULLS, .FIRST, .LAST, .FETCH, .NEXT, .ONLY, .ROWS, .ROW, .OFFSET, .MODEL, .PIVOT,
    .UNPIVOT, .KEEP, .VERSIONS, .RETURNING, .MERGE, .MATCHED, .OVER, .PARTITION
  ]

/-- Words that PostgreSQL reserves besides the common ones. -/
def postgresqlOnly : List Keyword :=
  [
    .SHOW, .LIMIT, .OFFSET, .FETCH, .FIRST, .NEXT, .LAST, .ROW, .ROWS, .ONLY, .NULLS,
    .RETURNING, .ILIKE, .SIMILAR, .LATERAL, .WINDOW, .OVER, .PARTITION, .RECURSIVE, .SKIP,
    .LOCKED, .SHARE, .CURRENT, .DO, .NOTHING, .CONFLICT, .ANALYZE, .VERBOSE
  ]

/-- Words that SQL Server reserves besides the common ones. -/
def sqlServerOnly : List Keyword :=
  [
    .TOP, .PERCENT, .TIES, .OUTPUT, .APPLY, .NOLOCK, .HOLDLOCK, .ROWLOCK, .TABLOCK, .READPAST,
    .UPDLOCK, .XLOCK, .OFFSET, .FETCH, .NEXT, .FIRST, .ROWS, .ROW, .ONLY, .MERGE, .MATCHED,
    .OVER, .PARTITION, .PIVOT, .UNPIVOT, .IDENTITY, .IDENTITY_INSERT, .EXEC, .EXECUTE,
    .DECLARE, .GO
  ]

end SqlLexis.Keyword
