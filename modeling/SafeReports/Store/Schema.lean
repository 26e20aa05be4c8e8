import SafeReports.Store.Database

/-!
# The schema of a database

The columns of each table, and which tables may be dropped: the two of the
reports, but none of those that the database keeps for itself.
-/

namespace SafeReports.Store

structure Column where
  name : String
  type : String
  notNull : Bool
  primaryKey : Bool
  deriving DecidableEq, Repr

def TableName.columns : TableName → List Column
  | .reports => [
    ⟨"report_id", "INTEGER", false, true⟩, ⟨"report_name", "TEXT", true, false⟩,
    ⟨"query_definition", "TEXT", true, false⟩, ⟨"created_at", "TEXT", true, false⟩,
    ⟨"updated_at", "TEXT", true, false⟩]
  | .audit => [
    ⟨"id", "INTEGER", false, true⟩, ⟨"action", "TEXT", true, false⟩,
    ⟨"created_at", "TEXT", true, false⟩, ⟨"details", "TEXT", false, false⟩]

/-- Why a table is not dropped. -/
inductive DropFault
  | noSuchTable (name : String)
  | ownTable (name : String)
  deriving DecidableEq, Repr

def DropFault.message : DropFault → String
  | noSuchTable name => "no such table: " ++ name
  | ownTable name => "table " ++ name ++ " may not be dropped"

namespace Database

/-- The tables that a database has. -/
def tables (db : Database) : List TableName :=
  [TableName.audit, .reports].filter db.has

/-- The table of this name among those that a database keeps for itself. -/
def ownTable? (db : Database) (name : String) : Option String :=
  if name = "sqlite_sequence" then if db.numbered then some name else none
  else if name = "sqlite_master" ∨ name = "sqlite_schema" then some "sqlite_master"
  else if name = "sqlite_temp_master" ∨ name = "sqlite_temp_schema" then some "sqlite_temp_master"
  else none

/-- Without a table; letter case does not count in its name. -/
def drop (db : Database) (name : String) : Except DropFault Database :=
  match db.ownTable? name.toLower with
  | some own => .error (.ownTable own)
  | none =>
    match db.tables.find? fun t => t.text == name.toLower with
    | some .reports => .ok { db with reports := none }
    | some .audit => .ok { db with audit := none }
    | none => .error (.noSuchTable name)

end Database

end SafeReports.Store
