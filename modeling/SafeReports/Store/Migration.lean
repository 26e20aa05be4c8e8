import SafeReports.Store.Database

/-!
# Migrations

Migrations are numbered from one. A database carries the number of the last one
it has seen, and applying them runs those above it in order.
-/

namespace SafeReports.Store

abbrev Migration := Database → Database

/-- Makes the tables that are not there yet. -/
def createTables : Migration := fun db =>
  { db with reports := some (db.reports.getD {}), audit := some (db.audit.getD {}),
            numbered := true }

def migrations : List Migration := [createTables]

/-- The migrations with their numbers that a database of version `current` lacks. -/
def pending (ms : List Migration) (current : Int) : List (Migration × Nat) :=
  (ms.zipIdx 1).filter fun (_, number) => current < number

/-- Runs a migration and leaves its number behind. -/
def runMigration (db : Database) (m : Migration × Nat) : Database :=
  { m.1 db with version := m.2 }

/-- Runs the migrations that a database lacks, in order. -/
def migrate (ms : List Migration) (db : Database) : Database :=
  (pending ms db.version).foldl runMigration db

end SafeReports.Store
