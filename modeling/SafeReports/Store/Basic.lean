import SafeReports.Engine.Executor
import SafeReports.Store.Database
import SafeReports.Store.Key

/-!
# The report store

Saving checks a draft step by step: reports must be switched on, the query short
enough, accepted by the guard and, where there is an executor, taken by the
engine. The stored query is the trimmed one. Refusals, saves and deletions leave
a row in the audit trail.
-/

namespace SafeReports

open Engine (Executor Session)
open Sql (Guard Violation)
open Store (AuditEvent AuditTable BindFault Database ReportRow ReportTable TableName)

namespace Store

inductive Failure
  | disabled
  | tooLarge (ceiling : Json)
  | rejected (violation : Violation)
  /-- The trial run did not succeed. -/
  | trial (failure : Engine.Failure)
  | unknownId (id : Json)
  /-- The query has no length, or the ceiling is no number. -/
  | notComparable
  | unbindable (fault : BindFault)
  | nullName
  /-- A stored time is not in ISO form. -/
  | unreadableTime (text : String)
  /-- A stored report is not a valid one. -/
  | invalid (errors : List FieldError)
  | noSuchTable (table : TableName)

/-- The settings that a store obeys; the ceiling may be any value. -/
structure Policy where
  enabled : Bool
  ceiling : Json
  trial : Bool

namespace Policy

def ofConfig (c : Config) : Policy :=
  ⟨c.reportsEnabled, .int c.maxQueryLength, c.checkExecutionOnSave⟩

/-- Changes a setting; those a store does not obey change nothing. -/
def set (p : Policy) (field : String) (value : Json) : Policy :=
  if field = "reports_enabled" then { p with enabled := value.truthy }
  else if field = "max_query_length" then { p with ceiling := value }
  else if field = "check_execution_on_save" then { p with trial := value.truthy }
  else p

/-- Whether a length lies above the ceiling, if that is a number. -/
def exceeds? (p : Policy) (length : Nat) : Option Bool :=
  match p.ceiling with
  | .int n => some (n < length)
  | .bool b => some ((if b then 1 else 0) < length)
  | .float x => some (x.belowInt length)
  | _ => none

end Policy

end Store

structure Store where
  database : Database
  policy : Store.Policy
  guard : Guard
  executor : Option Executor
  session : Session
  /-- The time that each look at the clock shows. -/
  clock : Nat → Timestamp
  /-- How often the clock has been looked at. -/
  ticks : Nat

namespace Store

def logger : String := "modules.reports.store"

/-- A store that obeys a configuration; a guard of its own replaces the one of
the configured preview length. -/
def create (database : Database) (config : Config) (guard : Option Guard)
    (executor : Option Executor) (session : Session) (clock : Nat → Timestamp) : Store :=
  ⟨database, .ofConfig config, guard.getD ⟨some config.previewLength⟩, executor, session, clock, 0⟩

/-- The time now, and the store after the look at its clock. -/
def now (st : Store) : Timestamp × Store := (st.clock st.ticks, { st with ticks := st.ticks + 1 })

def withReports (st : Store) (t : ReportTable) : Store :=
  { st with database := { st.database with reports := some t } }

/-- Appends to the audit trail. -/
def record (st : Store) (event : AuditEvent) : Except Failure Unit × Store :=
  let (time, st) := st.now
  match st.database.audit with
  | none => (.error (.noSuchTable .audit), st)
  | some t =>
    (.ok (), { st with database := { st.database with audit := some (t.append event time) } })

/-! ## Saving -/

/-- Records a refusal and fails with its cause. -/
def refuse {α : Type} (st : Store) (event : AuditEvent) (cause : Failure) :
    Except Failure α × Store :=
  match st.record event with
  | (.error e, st) => (.error e, st)
  | (.ok _, st) => (.error cause, st)

/-- Runs the query on trial, if the store is to do so. -/
def tryOut (st : Store) (name : Json) (query : String) :
    Except Failure String × Store × List LogRecord :=
  match st.executor with
  | none => (.ok query, st, [])
  | some e =>
    if st.policy.trial then
      let o := e.check (some query) st.session
      let st := { st with session := o.session }
      match o.result with
      | .ok _ => (.ok query, st, o.log)
      | .error (.execution m) =>
        let (result, st) :=
          st.refuse (.rejected name "execution" (some m)) (.trial (.execution m))
        (result, st, o.log)
      | .error f => (.error (.trial f), st, o.log)
    else (.ok query, st, [])

/-- Whether a query may be saved; if so, its text. A query that is not a text
counts as an empty one. -/
def accept (st : Store) (name query : Json) : Except Failure String × Store × List LogRecord :=
  if st.policy.enabled then
    match query.length?.bind st.policy.exceeds? with
    | none => (.error .notComparable, st, [])
    | some true =>
      let (result, st) :=
        st.refuse (.rejected name "too_large" none) (.tooLarge st.policy.ceiling)
      (result, st, [])
    | some false =>
      let text :=
        match query with
        | .str s => some s
        | _ => none
      match st.guard.validate text with
      | (some v, log) =>
        let (result, st) :=
          st.refuse (.rejected name v.kind.name (some v.message)) (.rejected v)
        (result, st, log)
      | (none, log) =>
        let (result, st, more) := st.tryOut name (text.getD "")
        (result, st, log ++ more)
  else (.error .disabled, st, [])

def bound {α : Type} : Except BindFault α → Except Failure α
  | .ok a => .ok a
  | .error f => .error (.unbindable f)

/-- The report table with a new report, and its id. -/
def insertInto (t : ReportTable) (name : Json) (query : String) (time : Timestamp) :
    Except Failure (ReportTable × Int) := do
  match ← bound (columnText 1 name) with
  | none => throw .nullName
  | some n => return (t.insert n query time, t.nextId)

/-- The report table with a changed report. -/
def updateIn (t : ReportTable) (id name : Json) (query : String) (time : Timestamp) :
    Except Failure ReportTable := do
  let text ← bound (columnText 1 name)
  match ← bound (keyOf 4 id) with
  | none => throw (.unknownId id)
  | some key =>
    if t.has key then
      match text with
      | none => throw .nullName
      | some n => return t.update key n query time
    else throw (.unknownId id)

/-- Writes a draft into the report table: under a new id if it has none, else
over the report of its id. The draft then shows what was written. -/
def persist (st : Store) (d : Draft) (query : String) (time : Timestamp) :
    Except Failure (Draft × Store) :=
  match st.database.reports with
  | none => .error (.noSuchTable .reports)
  | some t =>
    match d.id with
    | .null =>
      match insertInto t d.name query time with
      | .error e => .error e
      | .ok (t, id) =>
        .ok ({ d with id := .int id, createdAt := .moment time, updatedAt := .moment time },
          st.withReports t)
    | _ =>
      match updateIn t d.id d.name query time with
      | .error e => .error e
      | .ok t => .ok ({ d with updatedAt := .moment time }, st.withReports t)

/-- What saving leaves: the draft as it is then, the result, the store and the
log. -/
structure Saved where
  draft : Draft
  result : Except Failure Unit
  store : Store
  log : List LogRecord

def savedRecord (d : Draft) : LogRecord :=
  .info logger ("Saved report " ++ d.id.display ++ " (" ++ d.name.display ++ ")")

def save (st : Store) (d : Draft) : Saved :=
  match st.accept d.name d.query with
  | (.error e, st, log) => ⟨d, .error e, st, log⟩
  | (.ok text, st, log) =>
    let query := String.ofList (Sql.stored text.toList)
    let d := { d with query := .str query }
    let (time, st) := st.now
    match st.persist d query time with
    | .error e => ⟨d, .error e, st, log⟩
    | .ok (d, st) =>
      match st.record (.saved d.id d.name) with
      | (.error e, st) => ⟨d, .error e, st, log⟩
      | (.ok _, st) => ⟨d, .ok (), st, log ++ [savedRecord d]⟩

/-! ## Reading and deleting -/

def readTime (text : String) : Except Failure Timestamp :=
  match Timestamp.ofText? text with
  | some t => .ok t
  | none => .error (.unreadableTime text)

/-- A row as a report; its name is trimmed and must not be blank. -/
def load (r : ReportRow) : Except Failure Report := do
  let createdAt ← readTime r.createdAt
  let updatedAt ← readTime r.updatedAt
  let name := Report.trimName r.name
  if name = "" then throw (.invalid [⟨"report_name", .blankName⟩])
  return ⟨some r.id, name, r.query, some createdAt, some updatedAt⟩

def reportTable (st : Store) : Except Failure ReportTable :=
  match st.database.reports with
  | none => .error (.noSuchTable .reports)
  | some t => .ok t

def get (st : Store) (id : Json) : Except Failure Report := do
  let t ← st.reportTable
  match (← bound (keyOf 1 id)).bind t.find? with
  | none => throw (.unknownId id)
  | some row => load row

/-- All reports in ascending order of their ids. -/
def list (st : Store) : Except Failure (List Report) := do
  let t ← st.reportTable
  t.rows.mapM load

def delete (st : Store) (id : Json) : Except Failure Unit × Store :=
  match st.reportTable with
  | .error e => (.error e, st)
  | .ok t =>
    match keyOf 1 id with
    | .error f => (.error (.unbindable f), st)
    | .ok key =>
      match key.bind fun k => if t.has k then some k else none with
      | none => (.error (.unknownId id), st)
      | some k => (st.withReports (t.erase k)).record (.deleted id)

/-- The audit trail in order of its ids. -/
def auditTrail (st : Store) : List AuditRow :=
  match st.database.audit with
  | none => []
  | some t => t.rows

/-! ## Messages -/

def Failure.message : Failure → String
  | .disabled => "Custom reports are disabled"
  | .tooLarge ceiling =>
    "SQL query exceeds the maximum length of " ++ ceiling.display ++ " characters."
  | .rejected v => v.message
  | .unknownId id => "Report with id \"" ++ id.display ++ "\" does not exist."
  | .nullName => "NOT NULL constraint failed: report_definitions.report_name"
  | .unreadableTime text => "Invalid isoformat string: " ++ Text.quotedString text
  | .noSuchTable t => "no such table: " ++ t.text
  | .trial f => f.message
  | .unbindable f => f.message
  | .notComparable | .invalid _ => ""

end Store

end SafeReports
