import BoundSql.Error

/-!
# SQL dialects

What differs between databases in the text of a statement: the characters around an identifier, the
character in front of a placeholder's name, the schema of a table that names none, and how many
values one `in` test may take. The five built-in dialects are constants; a custom dialect is one of
them with other settings.
-/

namespace BoundSql

inductive DatabaseKind
  | sqlServer
  | mySql
  | sqlite
  | postgreSql
  | oracle
deriving DecidableEq, Repr, Inhabited

namespace DatabaseKind

def all : List DatabaseKind :=
  [.sqlServer, .mySql, .sqlite, .postgreSql, .oracle]

def displayName : DatabaseKind → String
  | .sqlServer => "SqlServer"
  | .mySql => "MySql"
  | .sqlite => "Sqlite"
  | .postgreSql => "PostgreSql"
  | .oracle => "Oracle"

def configName : DatabaseKind → String
  | .sqlServer => "sqlserver"
  | .mySql => "mysql"
  | .sqlite => "sqlite"
  | .postgreSql => "postgresql"
  | .oracle => "oracle"

def ofConfigName? (name : String) : Option DatabaseKind :=
  all.find? fun kind => kind.configName == name

theorem ofConfigName?_configName (kind : DatabaseKind) :
    ofConfigName? kind.configName = some kind := by
  cases kind <;> rfl

end DatabaseKind

structure Brackets where
  opening : Char
  closing : Char
deriving DecidableEq, Repr, Inhabited

/-- The writing conventions of one database. -/
structure Dialect where
  kind : DatabaseKind
  /-- Stands in front of a placeholder's name. -/
  bindPrefix : Char
  brackets : Brackets
  /-- How many values one `in` test may take. -/
  listLimit : UInt64
  /-- The schema of a table that names none. -/
  defaultSchema : Option String
deriving DecidableEq, Repr, Inhabited

namespace Dialect

/-- SQL Server: `[dbo].[Table]`, `@p1`. -/
def sqlServer : Dialect := ⟨.sqlServer, '@', ⟨'[', ']'⟩, 1000, some "dbo"⟩

/-- MySQL: an identifier stands between grave accents, `@p1`. -/
def mySql : Dialect := ⟨.mySql, '@', ⟨'\x60', '\x60'⟩, 1000, none⟩

/-- SQLite: an identifier stands between double quotes, `@p1`. -/
def sqlite : Dialect := ⟨.sqlite, '@', ⟨'"', '"'⟩, 1000, none⟩

/-- PostgreSQL: an identifier stands between double quotes, `:p1`. -/
def postgreSql : Dialect := ⟨.postgreSql, ':', ⟨'"', '"'⟩, 1000, none⟩

/-- Oracle: an identifier stands between double quotes, `:p1`. -/
def oracle : Dialect := ⟨.oracle, ':', ⟨'"', '"'⟩, 1000, none⟩

def ofKind : DatabaseKind → Dialect
  | .sqlServer => sqlServer
  | .mySql => mySql
  | .sqlite => sqlite
  | .postgreSql => postgreSql
  | .oracle => oracle

def builtIn : List Dialect :=
  [sqlServer, mySql, sqlite, postgreSql, oracle]

/-- The dialect itself, if an `in` test may take a value at all. -/
def validate (d : Dialect) : Except StatementError Dialect :=
  if d.listLimit = 0 then
    .error (.invalidDialect (d.kind.displayName ++ ": in_clause_max_size must be at least 1"))
  else .ok d

/-- An identifier between the dialect's brackets. The identifier is taken as it is. -/
def identifier (d : Dialect) (name : String) : String :=
  (d.brackets.opening.toString ++ name).push d.brackets.closing

def placeholder (d : Dialect) (name : String) : String :=
  d.bindPrefix.toString ++ name

/-- How many values one `in` test takes: the limit, and at least one. -/
def chunkSize (d : Dialect) : Nat :=
  max d.listLimit.toNat 1

theorem chunkSize_pos (d : Dialect) : 0 < d.chunkSize := by
  unfold chunkSize
  omega

end Dialect

end BoundSql
