import SafeReports.Engine.Table

/-!
# Streams side by side

Several streams share one session, each under a name. A stream that is begun
under a name in use takes its place, and the one before it is given up.
-/

namespace SafeReports.Engine

open Sql (Arrangement)

structure Workbench where
  session : Session
  streams : List (String × Executor.Stream) := []

/-- What can be asked of an executor. -/
inductive Request
  | check (query : Option String)
  | rows (query : Option String) (arrangement : Arrangement) (batch : Int)
  | start (name : String) (query : Option String) (arrangement : Arrangement) (batch : Int)
  | next (name : String)
  | close (name : String)
  | table (query : Option String) (arrangement : Arrangement)

inductive Answer
  | done (result : Except Failure Unit)
  /-- The rows before the end or an error. -/
  | rows (rows : List Json.Members) (result : Except Failure Unit)
  | row (result : Except Failure (Option Json.Members))
  | table (result : Except Failure Table)
  /-- There is no stream of this name. -/
  | unknown

namespace Workbench

def ofScript (script : List Reply) : Workbench := ⟨.ofScript script, []⟩

def stream? (w : Workbench) (name : String) : Option Executor.Stream := w.streams.lookup name

def put (w : Workbench) (name : String) (stream : Executor.Stream) (s : Session) : Workbench :=
  ⟨s, (name, stream) :: w.streams.filter (·.1 != name)⟩

/-- Answers a request, with the records logged on the way. -/
def handle (w : Workbench) (e : Executor) : Request → Answer × List LogRecord × Workbench
  | .check query =>
    let o := e.check query w.session
    (.done o.result, o.log, { w with session := o.session })
  | .rows query a batch =>
    let (rows, o) := e.rows query a batch w.session
    (.rows rows o.result, o.log, { w with session := o.session })
  | .start name query a batch =>
    let session :=
      match w.stream? name with
      | some old => (Executor.abandon old w.session).1.session
      | none => w.session
    (.done (.ok ()), [], w.put name (.fresh query a batch) session)
  | .next name =>
    match w.stream? name with
    | none => (.unknown, [], w)
    | some stream =>
      let (o, stream) := e.next stream w.session
      (.row o.result, o.log, w.put name stream o.session)
  | .close name =>
    match w.stream? name with
    | none => (.unknown, [], w)
    | some stream =>
      let (o, stream) := Executor.abandon stream w.session
      (.done o.result, o.log, w.put name stream o.session)
  | .table query a =>
    let o := e.table query a w.session
    (.table o.result, o.log, { w with session := o.session })

/-- The workbench after a list of requests. -/
def run (w : Workbench) (e : Executor) (requests : List Request) : Workbench :=
  requests.foldl (fun w r => (w.handle e r).2.2) w

end Workbench

end SafeReports.Engine
