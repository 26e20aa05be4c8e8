import SafeReports.Json.Basic
import SafeReports.Sql.Stored
import SafeReports.Text.Upper

/-!
# Derived tables

A query is never run as it is: it becomes a derived table, so that the outer
query decides on order and number of rows. The closing parenthesis stands on a
line of its own, out of reach of a line comment at the end of the query.
-/

namespace SafeReports.Sql

open Text (Writable numeral trim upper)

/-- An identifier without the backticks around it. -/
def bareIdentifier (identifier : List Char) : List Char := trim (· == '\x60') identifier

/-- Between backticks, with each inner one doubled. -/
def quoteIdentifier (identifier : List Char) : List Char :=
  '\x60' :: (bareIdentifier identifier).flatMap (fun c => if c = '\x60' then [c, c] else [c]) ++
    ['\x60']

/-- A row limit as it was given: a count, or something else. -/
inductive Limit
  | rows (count : Int)
  | unusable (given : Json)

namespace Limit

/-- The limit that a value stands for; null is none. -/
def ofJson? : Json → Option Limit
  | .null => none
  | .int n => some (.rows n)
  | j => some (.unusable j)

def toJson : Limit → Json
  | rows n => .int n
  | unusable j => j

end Limit

/-- How the outer query orders and limits the rows. A direction that is not a
text is `none`. -/
structure Arrangement where
  limit : Option Limit
  orderBy : Option String
  direction : Option String

inductive WrapError
  | badDirection
  | badLimit
  /-- The limit has more digits than are written. -/
  | longLimit
  /-- The query or the direction is not a text. -/
  | notText
  deriving DecidableEq, Repr

def WrapError.message : WrapError → String
  | badDirection => "direction must be 'ASC' or 'DESC'"
  | badLimit => "limit must be a positive integer"
  | longLimit => "Exceeds the limit (4300 digits) for integer string conversion; " ++
      "use sys.set_int_max_str_digits() to increase the limit"
  | notText => ""

/-- The outer direction, in capitals. -/
def checkDirection (direction : Option String) : Except WrapError (List Char) :=
  match direction with
  | none => .error .notText
  | some d =>
    let up := upper d.toList
    if up = "ASC".toList ∨ up = "DESC".toList then .ok up else .error .badDirection

def checkLimit : Option Limit → Except WrapError (Option Nat)
  | none => .ok none
  | some (.rows (.ofNat (n + 1))) => .ok (some (n + 1))
  | some _ => .error .badLimit

/-- The digits of a limit. -/
def writeLimit : Option Nat → Except WrapError (Option (List Char))
  | none => .ok none
  | some n => if Writable n then .ok (some (numeral n)) else .error .longLimit

/-- The outer query around a stored query. -/
def derived (query direction : List Char) (limit : Option (List Char))
    (orderBy : Option String) : List Char :=
  let order :=
    match orderBy with
    | none => []
    | some o =>
      if o = "" then []
      else " ORDER BY ".toList ++ quoteIdentifier o.toList ++ ' ' :: direction
  let bound :=
    match limit with
    | none => []
    | some digits => " LIMIT ".toList ++ digits
  "SELECT `t`.* FROM (".toList ++ query ++ "\n) AS `t`".toList ++ order ++ bound

def wrap (query : Option String) (a : Arrangement) : Except WrapError String := do
  let direction ← checkDirection a.direction
  let limit ← checkLimit a.limit
  match query with
  | none => throw .notText
  | some q =>
    -- the limit is written last, when everything else is there
    let digits ← writeLimit limit
    return String.ofList (derived (stored q.toList) direction digits a.orderBy)

end SafeReports.Sql
