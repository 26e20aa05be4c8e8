import SafeReports.Store.Disk

/-!
# Reports on disk

A report is saved over a connection by two statements, committed one after the
other: one for the report and one for the audit trail. A refused report leaves its
row in the audit trail only.
-/

namespace SafeReports.Store.Disk

/-- Prepares a statement; its table must be there when that is done for the first
time. -/
def prepare (n : Nat) (s : Statement) : DiskM Unit := do
  let c ← connection n
  unless c.prepared.contains s do
    if !(← view n).has s.table then throw (.store (.noSuchTable s.table))
    setConnection n (c.prepare s)

/-- Runs a statement, of which one parameter may be unfit, and gives what it
computes from the database. The transaction that it begins goes on in any case. -/
def execute {α : Type} (n : Nat) (s : Statement) (unfit : Option BindFault)
    (f : Database → Database × α) : DiskM α := do
  prepare n s
  let c ← connection n
  setConnection n c.beginTransaction
  if let some fault := unfit then throw (.store (.unbindable fault))
  let db ← view n
  if !db.has s.table then
    write n db ((← getThe Disk).isEmptyFile c.place)
    throw (.store (.noSuchTable s.table))
  let (db, a) := f db
  write n db true
  return a

/-- A store over a database, as it is without a configuration. -/
def storeOf (db : Database) (clock : Nat → Timestamp) : Store :=
  Store.create db {} none none (.ofScript []) clock

/-- Saves the row that a save adds to the audit trail. -/
def record (n : Nat) (save : Database → Saved) : DiskM Saved := do
  let saved ← execute n .insertAudit none fun db =>
    ({ db with audit := (save db).store.database.audit }, save db)
  commit n
  return saved

/-- Why an id cannot be the parameter of a statement, if it cannot. -/
def unfit? (id : Json) : Option BindFault :=
  match keyOf 4 id with
  | .error fault => some fault
  | .ok _ => none

/-- Saves a report and gives the draft as it is then. An unknown id takes back
what the connection had not committed. -/
def saveReport (n : Nat) (r : Report) (clock : Nat → Timestamp) : DiskM Draft := do
  let draft := Draft.ofReport r
  let save := fun db => (storeOf db clock).save draft
  match (save (Store.migrate migrations {})).result with
  | .error (.tooLarge _) | .error (.rejected _) =>
    let saved ← record n save
    ofExcept (saved.result.mapError .store)
    return saved.draft
  | _ =>
    let statement := if r.id.isNone then .insertReport else .updateReport
    let saved ← execute n statement (unfit? draft.id) fun db =>
      ({ db with reports := (save db).store.database.reports }, save db)
    if let .error (.unknownId id) := saved.result then
      rollback n
      throw (.store (.unknownId id))
    commit n
    discard (record n fun _ => saved)
    return saved.draft

/-- The names of the reports behind a connection. -/
def reportNames (n : Nat) (clock : Nat → Timestamp) : DiskM (List String) := do
  let reports ← ofExcept ((storeOf (← read n) clock).list.mapError .store)
  return reports.map (·.name)

end SafeReports.Store.Disk
