import SafeReports.Json.Printer
import SafeReports.Report.Definition

/-!
# The database

Reports are kept in ascending order of their ids, which count up from one and
are never used again; their times are kept in ISO form. The audit trail only
grows. Either table may be missing until migrations have made it.
-/

namespace SafeReports.Store

structure ReportRow where
  id : Int
  name : String
  query : String
  createdAt : String
  updatedAt : String
  deriving DecidableEq, Repr

structure ReportTable where
  rows : List ReportRow := []
  nextId : Int := 1

namespace ReportTable

def find? (t : ReportTable) (id : Int) : Option ReportRow := t.rows.find? (·.id == id)

def has (t : ReportTable) (id : Int) : Bool := t.rows.any (·.id == id)

/-- Adds a report under the next id. -/
def insert (t : ReportTable) (name query : String) (now : Timestamp) : ReportTable :=
  ⟨t.rows ++ [⟨t.nextId, name, query, now.text, now.text⟩], t.nextId + 1⟩

/-- Replaces name, query and time of change of one report. -/
def update (t : ReportTable) (id : Int) (name query : String) (now : Timestamp) : ReportTable :=
  { t with rows := t.rows.map fun r =>
      if r.id = id then { r with name := name, query := query, updatedAt := now.text } else r }

def erase (t : ReportTable) (id : Int) : ReportTable :=
  { t with rows := t.rows.filter (·.id != id) }

end ReportTable

/-- What the audit trail records. Ids and names are as their owner gave them. -/
inductive AuditEvent
  | saved (id name : Json)
  | deleted (id : Json)
  | rejected (name : Json) (reason : String) (message : Option String)

namespace AuditEvent

def action : AuditEvent → String
  | saved .. => "report_saved"
  | deleted _ => "report_deleted"
  | rejected .. => "report_rejected"

def details : AuditEvent → Json.Members
  | saved id name => [("report_id", id), ("report_name", name)]
  | deleted id => [("report_id", id)]
  | rejected name reason message =>
    [("report_name", name), ("reason", .str reason)] ++
      (message.map fun m => ("message", Json.str m)).toList

def detailsText (e : AuditEvent) : String := Json.write (.obj e.details)

end AuditEvent

structure AuditRow where
  id : Int
  event : AuditEvent
  createdAt : Timestamp

structure AuditTable where
  rows : List AuditRow := []
  nextId : Int := 1

def AuditTable.append (t : AuditTable) (event : AuditEvent) (now : Timestamp) : AuditTable :=
  ⟨t.rows ++ [⟨t.nextId, event, now⟩], t.nextId + 1⟩

inductive TableName
  | reports
  | audit
  deriving DecidableEq, Repr

def TableName.text : TableName → String
  | .reports => "report_definitions"
  | .audit => "audit"

structure Database where
  version : Int := 0
  reports : Option ReportTable := none
  audit : Option AuditTable := none
  /-- Whether the table of the ids that were used last is there; it comes with the
  first table and stays. -/
  numbered : Bool := false

def Database.has (db : Database) : TableName → Bool
  | .reports => db.reports.isSome
  | .audit => db.audit.isSome

end SafeReports.Store
