import SafeReports.Store.Basic
import SafeReports.Store.Connection
import SafeReports.Store.Migration
import SafeReports.Store.Schema

/-!
# Databases on disk

Databases in files and in memory with the connections to them. A file of at most
one byte is an empty database, and every other text is none. An action that fails
leaves what it did before it failed.
-/

namespace SafeReports.Store

inductive FileContent
  | database (db : Database)
  | text (text : String)

inductive DiskError
  | path (error : PathError)
  | cannotOpen
  | notDatabase
  | unknownConnection
  /-- Another transaction is in the way. -/
  | locked
  | drop (fault : DropFault)
  | store (failure : Failure)

def DiskError.message : DiskError → String
  | .cannotOpen => "unable to open database file"
  | .notDatabase => "file is not a database"
  | .locked => "database is locked"
  | .drop f => f.message
  | .store f => f.message
  | .path _ | .unknownConnection => ""

structure Disk where
  tree : FileTree FileContent := {}
  /-- The databases in memory. -/
  memory : List Database := []
  /-- The open connections by number. -/
  connections : List (Nat × Connection) := []
  /-- How many connections have been opened. -/
  opened : Nat := 0
  names : List (String × Nat) := []

abbrev DiskM := ExceptT DiskError (StateM Disk)

namespace DiskM

/-- The result of an action and the disk after it. -/
def run {α : Type} (action : DiskM α) (disk : Disk) : Except DiskError α × Disk :=
  StateT.run (ExceptT.run action) disk

theorem run_pure {α : Type} (a : α) (disk : Disk) :
    run (pure a) disk = (.ok a, disk) := rfl

theorem run_throw {α : Type} (e : DiskError) (disk : Disk) :
    run (throw e : DiskM α) disk = (.error e, disk) := rfl

theorem run_bind {α β : Type} (action : DiskM α) (f : α → DiskM β) (disk : Disk) :
    run (action >>= f) disk =
      match run action disk with
      | (.ok a, next) => run (f a) next
      | (.error e, next) => (.error e, next) := by
  unfold run ExceptT.run StateT.run
  simp only [bind, ExceptT.bind, ExceptT.mk, StateT.bind, ExceptT.bindCont]
  cases action disk with
  | mk result next => cases result <;> rfl

theorem run_get (disk : Disk) : run (getThe Disk) disk = (.ok disk, disk) := rfl

theorem run_tryCatch {α : Type} (action : DiskM α) (handler : DiskError → DiskM α) (disk : Disk) :
    run (tryCatch action handler) disk =
      match run action disk with
      | (.ok a, next) => (.ok a, next)
      | (.error e, next) => run (handler e) next := by
  unfold run ExceptT.run StateT.run
  simp only [tryCatch, tryCatchThe, MonadExceptOf.tryCatch, ExceptT.tryCatch, ExceptT.mk, bind,
    StateT.bind]
  cases action disk with
  | mk result next => cases result <;> rfl

end DiskM

namespace Disk

/-! ## Connections -/

/-- Takes up a connection under a new number. -/
def add (c : Connection) : DiskM Nat := do
  let disk ← getThe Disk
  set { disk with connections := (disk.opened, c) :: disk.connections, opened := disk.opened + 1 }
  return disk.opened

def connection (n : Nat) : DiskM Connection := do
  match (← getThe Disk).connections.lookup n with
  | some c => return c
  | none => throw .unknownConnection

/-- Closes a connection; what it has not committed is gone. -/
def close (n : Nat) : DiskM Unit :=
  modify fun disk => { disk with connections := disk.connections.filter (·.1 != n) }

def setConnection (n : Nat) (c : Connection) : DiskM Unit := do
  close n
  modify fun disk => { disk with connections := (n, c) :: disk.connections }

/-- The number of the connection with a name. -/
def named (name : String) : DiskM Nat := do
  match (← getThe Disk).names.lookup name with
  | some n => return n
  | none => throw .unknownConnection

/-- Closes the connection with a name and frees the name. -/
def disconnect (name : String) : DiskM Unit := do
  close (← named name)
  modify fun disk => { disk with names := disk.names.filter (·.1 != name) }

/-- Gives a connection a name; one that had it is closed. -/
def setName (name : String) (n : Nat) : DiskM Unit := do
  if ((← getThe Disk).names.lookup name).isSome then disconnect name
  modify fun disk => { disk with names := (name, n) :: disk.names }

/-- Whether another connection to the same database is in a state. -/
def anyOther (n : Nat) (state : Connection → Bool) : DiskM Bool := do
  let c ← connection n
  return (← getThe Disk).connections.any fun (m, other) =>
    m != n && other.place == c.place && state other

/-! ## Contents -/

/-- Whether a file counts as an empty database. -/
def isEmptyFile (disk : Disk) : Place → Bool
  | .memory _ => false
  | .file f _ =>
    match disk.tree.content? f with
    | some (.text text) => text.utf8ByteSize ≤ 1
    | _ => false

/-- The database at a place, as committed. -/
def committed (disk : Disk) (place : Place) : Except DiskError Database :=
  match place with
  | .memory m => .ok (disk.memory[m]?.getD {})
  | .file f _ =>
    match disk.tree.content? f with
    | some (.database db) => .ok db
    | some (.text _) => if disk.isEmptyFile place then .ok {} else .error .notDatabase
    | none => .ok {}

def setCommitted (disk : Disk) (db : Database) : Place → Disk
  | .memory m => { disk with memory := disk.memory.set m db }
  | .file f _ => { disk with tree := disk.tree.setContent f (.database db) }

/-- The database as a connection sees it. -/
def view (n : Nat) : DiskM Database := do
  let c ← connection n
  match c.working? with
  | some db => return db
  | none => ofExcept ((← getThe Disk).committed c.place)

/-! ## Transactions -/

/-- Reads the database, unless a transaction waits for its readers to end. -/
def read (n : Nat) : DiskM Database := do
  let c ← connection n
  if !c.isReading && (← anyOther n Connection.isWaiting) then throw .locked
  let db ← view n
  setConnection n c.read
  return db

/-- Goes on with `db`, unless another transaction writes. -/
def write (n : Nat) (db : Database) (changed : Bool) : DiskM Unit := do
  if ← anyOther n Connection.isWriting then throw .locked
  setConnection n ((← connection n).write db changed)

/-- Ends a transaction and drops its changes. -/
def rollback (n : Nat) : DiskM Unit := do
  setConnection n (← connection n).endTransaction

/-- Ends a transaction and keeps its changes; with changes it has to wait while
another one reads. -/
def commit (n : Nat) : DiskM Unit := do
  let c ← connection n
  if c.isChanged then
    if ← anyOther n Connection.isReading then
      setConnection n c.wait
      throw .locked
    modify fun disk => (c.working?.map fun db => disk.setCommitted db c.place).getD disk
  setConnection n c.endTransaction

/-- Changes the database in the transaction of a connection, or else for good. -/
def change (n : Nat) (f : Database → Except DiskError Database) : DiskM Unit := do
  let alone := (← connection n).transaction.isNone
  let db ← ofExcept (f (← view n))
  write n db true
  if alone then
    try commit n
    catch e =>
      rollback n
      throw e

/-! ## Versions and tables -/

/-- A version number is one of 32 bits; any other counts as zero. -/
def versionOf (n : Int) : Int := if -2147483648 ≤ n ∧ n < 2147483648 then n else 0

def setVersion (n : Nat) (version : Int) : DiskM Unit :=
  change n fun db => .ok { db with version := versionOf version }

def dropTable (n : Nat) (table : String) : DiskM Unit :=
  change n fun db => (db.drop table).mapError .drop

/-- Runs a migration, which commits what the connection has changed, and then sets its
number. -/
def applyMigration (n : Nat) (m : Migration × Nat) : DiskM Unit := do
  change n fun db => .ok (m.1 db)
  commit n
  setVersion n m.2
  commit n

/-- Applies those of the migrations that a database lacks. -/
def migrateWith (ms : List Migration) (n : Nat) : DiskM Unit := do
  for m in pending ms (← read n).version do
    applyMigration n m

def migrate (n : Nat) : DiskM Unit := migrateWith migrations n

end Disk

end SafeReports.Store
