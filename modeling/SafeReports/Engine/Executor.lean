import SafeReports.Engine.Session
import SafeReports.Settings.Config
import SafeReports.Sql.Derived
import SafeReports.Sql.Guard

/-!
# Running stored queries

A query is checked again, wrapped as a derived table and run on a session. Rows
come as a stream that runs nothing before its first row is asked for, or as a
whole table. Errors of the engine become failed executions with a readable
message; the cursor of a trial or a stream is closed in the end, and an error in
closing takes the place of the one before it.
-/

namespace SafeReports.Engine

open Sql (Arrangement Guard Limit Violation WrapError)

inductive Failure
  | rejected (violation : Violation)
  | unwrappable (error : WrapError)
  /-- The engine refused the query. -/
  | execution (message : String)
  /-- An error that passes as it is. -/
  | raw (error : Error)
  /-- The result has no description. -/
  | noDescription
  /-- The rows of a table are not as wide as it has columns. -/
  | widthMismatch

def Failure.message : Failure → String
  | .rejected v => v.message
  | .unwrappable e => e.message
  | .execution m => m
  | .raw e => e.complaint.message
  | .noDescription => ""
  | .widthMismatch => "len(columns) must match len(arrays)"

structure Executor where
  guard : Guard := Guard.standard
  revalidate : Bool := true
  defaultLimit : Option Limit := none

/-- What a call on a session leaves: its result, the session, and the records
it logged. -/
structure Outcome (α : Type) where
  result : Except Failure α
  session : Session
  log : List LogRecord

namespace Executor

def logger : String := "modules.reports.executor"

/-- The executor with the row limit and preview length of a configuration. -/
def ofConfig (config : Config) (revalidate : Bool) : Executor :=
  ⟨⟨some config.previewLength⟩, revalidate, some (.rows config.defaultRowLimit)⟩

/-- The text to run for a query, or why it cannot be run. -/
def prepare (e : Executor) (query : Option String) (a : Arrangement) :
    Except Failure String × List LogRecord :=
  let (violation, log) := if e.revalidate then e.guard.validate query else (none, [])
  match violation with
  | some v => (.error (.rejected v), log)
  | none =>
    match Sql.wrap query { a with limit := a.limit.or e.defaultLimit } with
    | .error w => (.error (.unwrappable w), log)
    | .ok sql => (.ok sql, log)

/-- An error as the caller of a report sees it. -/
def failureOf (e : Error) : Failure :=
  if e.kind.isRefusal then .execution e.complaint.readable else .raw e

/-- Closes a cursor after a result; an error in closing replaces it. -/
def closeAfter {α : Type} (c : Cursor) (result : Except Failure α) (s : Session) :
    Except Failure α × Session :=
  match c.close s with
  | (.error e, s') => (.error (.raw e), s')
  | (.ok _, s') => (result, s')

/-! ## Trial -/

/-- Executes a text and fetches everything. -/
def runAll (c : Cursor) (sql : String) (s : Session) : Except Error (List Tuple) × Session :=
  match c.execute sql s with
  | (.error e, s') => (.error e, s')
  | (.ok _, s') => c.fetchAll s'

def trialRecord (e : Error) : List LogRecord :=
  if e.kind.isRefusal then
    [.info logger ("Report query failed trial execution: " ++ e.complaint.message)]
  else []

/-- Runs a query for one row, to see whether the engine takes it. -/
def check (e : Executor) (query : Option String) (s : Session) : Outcome Unit :=
  match e.prepare query ⟨some (.rows 1), none, some "DESC"⟩ with
  | (.error f, log) => ⟨.error f, s, log⟩
  | (.ok sql, log) =>
    match s.cursor with
    | (.error err, s) => ⟨.error (.raw err), s, log⟩
    | (.ok c, s) =>
      match runAll c sql s with
      | (.error err, s) =>
        let (result, s) := closeAfter c (.error (failureOf err)) s
        ⟨result, s, log ++ trialRecord err⟩
      | (.ok _, s) =>
        let (result, s) := closeAfter c (.ok ()) s
        ⟨result, s, log⟩

/-! ## Streams -/

/-- A stream of rows: not begun, between two rows, or over. -/
inductive Stream
  | fresh (query : Option String) (arrangement : Arrangement) (batch : Int)
  | reading (cursor : Cursor) (columns : List String) (pending : List Tuple) (batch : Int)
  | over

/-- A row by column name; of columns with one name the last value counts, at
the place of the first. -/
def rowOf (columns : List String) (values : Tuple) : Json.Members :=
  (columns.zip values).foldl (fun row (name, value) => Json.put name value row) []

/-- An outcome and the stream after it. -/
abbrev Pulled := Outcome (Option Json.Members) × Stream

/-- Ends a stream with a result, closing its cursor. -/
def finish (c : Cursor) (result : Except Failure (Option Json.Members)) (s : Session)
    (log : List LogRecord) : Pulled :=
  let (result, s) := closeAfter c result s
  (⟨result, s, log⟩, .over)

/-- The next row of a stream whose query has been executed. -/
def pull (c : Cursor) (columns : List String) (pending : List Tuple) (batch : Int) (s : Session)
    (log : List LogRecord) : Pulled :=
  match pending with
  | values :: rest =>
    (⟨.ok (some (rowOf columns values)), s, log⟩, .reading c columns rest batch)
  | [] =>
    match c.fetchMany batch s with
    | (.error err, s) => finish c (.error (.raw err)) s log
    | (.ok ([], c), s) => finish c (.ok none) s log
    | (.ok (values :: rest, c), s) =>
      (⟨.ok (some (rowOf columns values)), s, log⟩, .reading c columns rest batch)

/-- The next row of a stream, or `none` at its end. -/
def next (e : Executor) (stream : Stream) (s : Session) : Pulled :=
  match stream with
  | .over => (⟨.ok none, s, []⟩, .over)
  | .reading c columns pending batch => pull c columns pending batch s []
  | .fresh query a batch =>
    match e.prepare query a with
    | (.error f, log) => (⟨.error f, s, log⟩, .over)
    | (.ok sql, log) =>
      match s.cursor with
      | (.error err, s) => (⟨.error (.raw err), s, log⟩, .over)
      | (.ok c, s) =>
        match c.execute sql s with
        | (.error err, s) => finish c (.error (failureOf err)) s log
        | (.ok _, s) => pull c (c.reply.columns.getD []) [] batch s log

/-- Gives a stream up; one that is not between two rows has nothing to close. -/
def abandon (stream : Stream) (s : Session) : Outcome Unit × Stream :=
  match stream with
  | .reading c _ _ _ =>
    let (result, s) := closeAfter c (.ok ()) s
    (⟨result, s, []⟩, .over)
  | _ => (⟨.ok (), s, []⟩, .over)

/-- All rows of a stream up to its end or an error, `fuel` of them at most. -/
def drain (e : Executor) :
    Nat → Stream → Session → List Json.Members × Outcome Unit
  | 0, _, s => ([], ⟨.ok (), s, []⟩)
  | fuel + 1, stream, s =>
    match e.next stream s with
    | (⟨.error f, s, log⟩, _) => ([], ⟨.error f, s, log⟩)
    | (⟨.ok none, s, log⟩, _) => ([], ⟨.ok (), s, log⟩)
    | (⟨.ok (some row), s, log⟩, stream) =>
      let (rows, rest) := e.drain fuel stream s
      (row :: rows, { rest with log := log ++ rest.log })

/-- All rows of a query; the next reply of the session bounds their number. -/
def rows (e : Executor) (query : Option String) (a : Arrangement) (batch : Int) (s : Session) :
    List Json.Members × Outcome Unit :=
  e.drain ((s.script.headD {}).rows.length + 1) (.fresh query a batch) s

end Executor

end SafeReports.Engine
