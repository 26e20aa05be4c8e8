import SafeReports.FileTree
import SafeReports.Store.Database

/-!
# Connections

A connection leads to one database. Statements that write rows run in a
transaction, whose changes other connections do not see before it is committed.
Of one database any number of transactions may read and only one may write; it is
committed when no other one reads.
-/

namespace SafeReports.Store

/-- Where a database is. -/
inductive Place
  | file (number : Nat) (path : FilePath)
  | memory (number : Nat)
  deriving DecidableEq, Repr

/-- The statements that write rows. -/
inductive Statement
  | insertReport
  | updateReport
  | insertAudit
  deriving DecidableEq, Repr

def Statement.table : Statement → TableName
  | .insertReport | .updateReport => .reports
  | .insertAudit => .audit

/-- What a transaction has come to do. -/
inductive Transaction
  /-- Nothing yet. -/
  | begun
  /-- To read, which it may do until it ends. -/
  | reading
  /-- To write: the database as it has it, whether that is changed, and whether it
  waits for the readers to end before it is committed. -/
  | writing (db : Database) (changed waiting : Bool)

structure Connection where
  place : Place
  /-- The statements that have been prepared; they need not be again. -/
  prepared : List Statement := []
  transaction : Option Transaction := none

namespace Connection

/-- The database of a transaction that writes. -/
def working? (c : Connection) : Option Database :=
  match c.transaction with
  | some (.writing db _ _) => some db
  | _ => none

def isWriting (c : Connection) : Bool := c.working?.isSome

def isReading (c : Connection) : Bool :=
  match c.transaction with
  | some .reading | some (.writing ..) => true
  | _ => false

def isWaiting (c : Connection) : Bool :=
  match c.transaction with
  | some (.writing _ _ waiting) => waiting
  | _ => false

def isChanged (c : Connection) : Bool :=
  match c.transaction with
  | some (.writing _ changed _) => changed
  | _ => false

/-- With a statement prepared. -/
def prepare (c : Connection) (s : Statement) : Connection :=
  { c with prepared := s :: c.prepared }

/-- With a transaction, the one there is or a new one. -/
def beginTransaction (c : Connection) : Connection :=
  { c with transaction := some (c.transaction.getD .begun) }

def endTransaction (c : Connection) : Connection := { c with transaction := none }

/-- After reading; a transaction goes on to do so. -/
def read (c : Connection) : Connection :=
  match c.transaction with
  | some .begun => { c with transaction := some .reading }
  | _ => c

/-- After writing, in a transaction that goes on with `db`. -/
def write (c : Connection) (db : Database) (changed : Bool) : Connection :=
  { c with transaction := some (.writing db (c.isChanged || changed) c.isWaiting) }

/-- After a commit that readers did not let pass. -/
def wait (c : Connection) : Connection :=
  match c.transaction with
  | some (.writing db changed _) => { c with transaction := some (.writing db changed true) }
  | _ => c

/-- The name of the journal that there is of changes to a file. -/
def journal? (c : Connection) : Option String :=
  match c.place with
  | .file _ path => if c.isChanged then some (FilePath.text path ++ "-journal") else none
  | .memory _ => none

end Connection

end SafeReports.Store
