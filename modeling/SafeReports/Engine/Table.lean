import SafeReports.Engine.Executor

/-!
# Whole tables

The result of a query as a table. A column of integers becomes one of floating
point numbers when it also holds such numbers or nulls, unless one kind of 64-bit
word does not hold all of its integers; every other column keeps its values. The
reader rolls back after a failed execution and reports the text it ran.
-/

namespace SafeReports.Engine

structure Table where
  columns : List String
  rows : List Tuple

namespace Table

def isNumber : Json → Bool
  | .int _ | .float _ => true
  | _ => false

def isInteger : Json → Bool
  | .int _ => true
  | _ => false

def isNull : Json → Bool
  | .null => true
  | _ => false

/-- The integers of a column. -/
def integers (values : List Json) : List Int :=
  values.filterMap fun
    | .int n => some n
    | _ => none

/-- Whether integers fit into signed or into unsigned words of 64 bits. -/
def shareWord (ns : List Int) : Bool :=
  ns.all Decimal.fitsWord || ns.all fun n => 0 ≤ n && n < Decimal.twoTo 64

def widen : Json → Json
  | .int n => .float (.ofInt n)
  | j => j

/-- A value as a table shows it: a NaN is none. -/
def shown : Json → Json
  | .float .nan => .null
  | j => j

/-- The values of one column, of one kind of number if they are numbers. -/
def column (values : List Json) : List Json :=
  if values.all (fun v => isNumber v || isNull v) && !values.all isInteger &&
      shareWord (integers values) then
    values.map (shown ∘ widen)
  else values.map shown

/-- The columns of rows with `width` values each, missing ones null. -/
def transpose (rows : List Tuple) : Nat → List (List Json)
  | 0 => []
  | width + 1 =>
    (rows.map fun r => r.headD .null) :: transpose (rows.map List.tail) width

/-- The rows of columns with `height` values each. -/
def untranspose (columns : List (List Json)) : Nat → List Tuple
  | 0 => []
  | height + 1 =>
    (columns.map fun c => c.headD .null) :: untranspose (columns.map List.tail) height

def width (rows : List Tuple) : Nat := rows.foldl (fun n r => max n r.length) 0

/-- The table of these rows, which must be as wide as there are columns; missing
values at the end of a row are null. Without values there are no rows. -/
def ofRows (columns : List String) (rows : List Tuple) : Except Failure Table :=
  if width rows = 0 then .ok ⟨columns, []⟩
  else if width rows = columns.length then
    .ok ⟨columns, untranspose ((transpose rows columns.length).map column) rows.length⟩
  else .error .widthMismatch

end Table

namespace Executor

/-- The error of the table reader after a failed execution, and the session
rolled back; errors that are not the engine's pass without a rollback. -/
def refuse (sql : String) (e : Error) (s : Session) : Error × Session :=
  if e.kind.isEngine then
    match s.rollback with
    | (.ok _, s) =>
      (⟨.tableReader, ⟨"Execution failed on sql '" ++ sql ++ "': " ++ e.complaint.message,
        some e.complaint.message, none⟩⟩, s)
    | (.error r, s) =>
      if r.kind.isEngine then
        (⟨.tableReader, ⟨"Execution failed on sql: " ++ sql ++ "\n" ++ e.complaint.message ++
          "\nunable to rollback", some r.complaint.message, none⟩⟩, s)
      else (⟨r.kind, { r.complaint with context := some e.complaint.message }⟩, s)
  else (e, s)

/-- Reads the table of an executed text. -/
def readTable (c : Cursor) (s : Session) : Except Failure Table × Session :=
  match c.reply.columns with
  | none => (.error .noDescription, s)
  | some columns =>
    match c.fetchAll s with
    | (.error e, s) => (.error (failureOf e), s)
    | (.ok rows, s) =>
      match c.close s with
      | (.error e, s) => (.error (failureOf e), s)
      | (.ok _, s) => (Table.ofRows columns rows, s)

def table (e : Executor) (query : Option String) (a : Sql.Arrangement) (s : Session) :
    Outcome Table :=
  match e.prepare query a with
  | (.error f, log) => ⟨.error f, s, log⟩
  | (.ok sql, log) =>
    match s.cursor with
    | (.error err, s) => ⟨.error (failureOf err), s, log⟩
    | (.ok c, s) =>
      match c.execute sql s with
      | (.error err, s) =>
        let (err, s) := refuse sql err s
        ⟨.error (failureOf err), s, log⟩
      | (.ok _, s) =>
        let (result, s) := readTable c s
        ⟨result, s, log⟩

end Executor

end SafeReports.Engine
