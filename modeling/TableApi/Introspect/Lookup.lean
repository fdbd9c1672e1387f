import TableApi.Dialect

/-!
# Questions about a database

The queries by which each dialect tells what tables a database has, which column is a table's
primary key, and which columns it has. The answers are read whatever the case of their column names:
`table_name`, `table_comment`, `column_name`, `column_default`, `is_nullable`, `data_type`,
`character_maximum_length`, `extra`.
-/

namespace TableApi

/-- What fills a placeholder of a query. -/
inductive Bind
  | database
  | table
deriving DecidableEq, Repr, Inhabited

/-- **A query about a database.** -/
structure Lookup where
  sql : String
  /-- What fills its placeholders, in order. -/
  binds : List Bind
deriving DecidableEq, Repr, Inhabited

namespace Dialect

/-- The tables of a database. -/
def listTables : Dialect → Lookup
  | .postgres => ⟨
      "SELECT table_name::text AS table_name, ''::text AS table_comment FROM " ++
      "information_schema.tables WHERE table_schema = $1 ORDER BY table_name",
      [.database]⟩
  | .mysql => ⟨
      "SELECT `TABLE_NAME`, `TABLE_COMMENT` FROM `INFORMATION_SCHEMA`.`TABLES` WHERE " ++
      "`TABLE_SCHEMA` = ?",
      [.database]⟩
  | .mssql => ⟨
      "SELECT [TABLE_NAME], '' AS [TABLE_COMMENT] FROM [INFORMATION_SCHEMA].[TABLES] WHERE " ++
      "[TABLE_CATALOG] = @P1",
      [.database]⟩
  | .sqlite => ⟨
      "SELECT name AS table_name, '' AS table_comment FROM sqlite_master WHERE type IN " ++
      "('table', 'view') AND name NOT LIKE 'sqlite_%' ORDER BY name",
      []⟩
  | .oracle => ⟨
      "SELECT TABLE_NAME, '' AS TABLE_COMMENT FROM ALL_TABLES WHERE OWNER = :1",
      [.database]⟩

/-- The columns of a table's primary key. -/
def reflectKey : Dialect → Lookup
  | .postgres => ⟨
      "SELECT ku.column_name::text AS column_name FROM information_schema.table_constraints tc " ++
      "JOIN information_schema.key_column_usage ku ON tc.constraint_name = ku.constraint_name " ++
      "AND tc.table_schema = ku.table_schema WHERE tc.constraint_type = 'PRIMARY KEY' AND " ++
      "ku.table_name = $1 AND ku.table_schema = $2 ORDER BY ku.ordinal_position",
      [.table, .database]⟩
  | .mysql => ⟨
      "SELECT `COLUMN_NAME` FROM `INFORMATION_SCHEMA`.`COLUMNS` WHERE `COLUMN_KEY` = 'PRI' AND " ++
      "`TABLE_NAME` = ? AND `TABLE_SCHEMA` = ?",
      [.table, .database]⟩
  | .mssql => ⟨
      "SELECT ku.[COLUMN_NAME] FROM [INFORMATION_SCHEMA].[TABLE_CONSTRAINTS] tc, " ++
      "[INFORMATION_SCHEMA].[KEY_COLUMN_USAGE] ku WHERE tc.[CONSTRAINT_TYPE] = 'PRIMARY KEY' " ++
      "AND tc.[CONSTRAINT_NAME] = ku.[CONSTRAINT_NAME] AND ku.[TABLE_NAME] = @P1 AND " ++
      "ku.[TABLE_CATALOG] = @P2",
      [.table, .database]⟩
  | .sqlite => ⟨
      "SELECT name AS column_name FROM pragma_table_info(?) WHERE pk > 0 ORDER BY pk",
      [.table]⟩
  | .oracle => ⟨
      "SELECT cols.COLUMN_NAME FROM ALL_CONSTRAINTS cons, ALL_CONS_COLUMNS cols WHERE " ++
      "cons.CONSTRAINT_TYPE = 'P' AND cons.CONSTRAINT_NAME = cols.CONSTRAINT_NAME AND " ++
      "cons.OWNER = cols.OWNER AND cols.TABLE_NAME = :1 AND cols.OWNER = :2 ORDER BY cols.POSITION",
      [.table, .database]⟩

/-- The columns of a table. -/
def reflectColumns : Dialect → Lookup
  | .postgres => ⟨
      "SELECT column_name::text AS column_name, column_default::text AS column_default, " ++
      "is_nullable::text AS is_nullable, data_type::text AS data_type, " ++
      "character_maximum_length::int8 AS character_maximum_length, ''::text AS extra FROM " ++
      "information_schema.columns WHERE table_name = $1 AND table_schema = $2 ORDER BY " ++
      "ordinal_position",
      [.table, .database]⟩
  | .mysql => ⟨
      "SELECT `COLUMN_NAME`, `COLUMN_DEFAULT`, `IS_NULLABLE`, `DATA_TYPE`, " ++
      "`CHARACTER_MAXIMUM_LENGTH`, `EXTRA` FROM `INFORMATION_SCHEMA`.`COLUMNS` WHERE " ++
      "`TABLE_NAME` = ? AND `TABLE_SCHEMA` = ? ORDER BY `ORDINAL_POSITION`",
      [.table, .database]⟩
  | .mssql => ⟨
      "SELECT [COLUMN_NAME], [COLUMN_DEFAULT], [IS_NULLABLE], [DATA_TYPE], " ++
      "[CHARACTER_MAXIMUM_LENGTH], CASE COLUMNPROPERTY(object_id([TABLE_NAME]), [COLUMN_NAME], " ++
      "'IsIdentity') WHEN 1 THEN 'IsIdentity' ELSE '' END AS [EXTRA] FROM " ++
      "[INFORMATION_SCHEMA].[COLUMNS] WHERE [TABLE_NAME] = @P1 AND [TABLE_CATALOG] = @P2 ORDER " ++
      "BY [ORDINAL_POSITION]",
      [.table, .database]⟩
  | .sqlite => ⟨
      "SELECT name AS column_name, dflt_value AS column_default, CASE WHEN \"notnull\" = 0 THEN " ++
      "'YES' ELSE 'NO' END AS is_nullable, type AS data_type, NULL AS character_maximum_length, " ++
      "CASE WHEN pk > 0 AND lower(type) = 'integer' THEN 'auto_increment' ELSE '' END AS extra " ++
      "FROM pragma_table_info(?) ORDER BY cid",
      [.table]⟩
  | .oracle => ⟨
      "SELECT COLUMN_NAME, DATA_DEFAULT AS COLUMN_DEFAULT, CASE NULLABLE WHEN 'Y' THEN 'YES' " ++
      "ELSE 'NO' END AS IS_NULLABLE, DATA_TYPE, CHAR_LENGTH AS CHARACTER_MAXIMUM_LENGTH, '' AS " ++
      "EXTRA FROM ALL_TAB_COLUMNS WHERE TABLE_NAME = :1 AND OWNER = :2 ORDER BY COLUMN_ID",
      [.table, .database]⟩

end Dialect

end TableApi
