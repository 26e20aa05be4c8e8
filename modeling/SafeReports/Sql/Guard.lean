import SafeReports.Log
import SafeReports.Sql.Normal
import SafeReports.Sql.Rule
import SafeReports.Sql.Separator
import SafeReports.Text.Quoted

/-!
# The guard

A query passes when it is not blank and its normal form holds no forbidden
phrase, begins with an allowed word, has no suspicious shape and no comment
marker left, and the query itself has at most one separator. The checks run in a
fixed order and the first that fails is the violation; each rejection is logged
once.
-/

namespace SafeReports.Sql

inductive ViolationKind
  | emptyQuery
  | forbiddenKeyword
  | mustStartWithSelectOrWith
  | suspiciousPattern
  | multipleStatements
  | residualComment
  deriving DecidableEq, Repr

namespace ViolationKind

def all : List ViolationKind :=
  [emptyQuery, forbiddenKeyword, mustStartWithSelectOrWith, suspiciousPattern,
    multipleStatements, residualComment]

def name : ViolationKind → String
  | emptyQuery => "EmptyQuery"
  | forbiddenKeyword => "ForbiddenKeyword"
  | mustStartWithSelectOrWith => "MustStartWithSelectOrWith"
  | suspiciousPattern => "SuspiciousPattern"
  | multipleStatements => "MultipleStatements"
  | residualComment => "ResidualComment"

end ViolationKind

/-- A comment marker that the normal form still holds. -/
inductive Marker
  | blockOpen
  | blockClose
  | line
  deriving DecidableEq, Repr

def Marker.text : Marker → String
  | .blockOpen => "/*"
  | .blockClose => "*/"
  | .line => "--"

/-- The leftmost comment marker. -/
def firstMarker? : List Char → Option Marker
  | [] => none
  | '/' :: '*' :: _ => some .blockOpen
  | '*' :: '/' :: _ => some .blockClose
  | '-' :: '-' :: _ => some .line
  | _ :: r => firstMarker? r

/-- Why a query is rejected. -/
inductive Violation
  | blank
  | forbidden (phrase : String)
  | leading
  | suspicious (source message : String)
  | statements (separators : Nat)
  | marker (found : Marker)
  deriving DecidableEq, Repr

namespace Violation

def kind : Violation → ViolationKind
  | blank => .emptyQuery
  | forbidden _ => .forbiddenKeyword
  | leading => .mustStartWithSelectOrWith
  | suspicious .. => .suspiciousPattern
  | statements _ => .multipleStatements
  | marker _ => .residualComment

def message : Violation → String
  | blank => "SQL query cannot be empty."
  | forbidden phrase =>
    "SQL query contains prohibited operation: " ++ phrase ++ ". Only SELECT queries are allowed."
  | leading => "SQL query must start with SELECT or WITH. Only read-only queries are allowed."
  | suspicious _ message => "SQL query contains suspicious pattern: " ++ message
  | statements _ => "Multiple SQL statements detected. Only single SELECT queries are allowed."
  | marker _ => "SQL query contains prohibited comment patterns."

def detail : Violation → Option String
  | blank => none
  | forbidden phrase => some phrase
  | leading => none
  | suspicious source _ => some source
  | statements separators => some (toString separators)
  | marker found => some found.text

/-- What the log says of a rejection, with the beginning of the normal form. -/
def report (preview : String) : Violation → String
  | blank => "Rejected SQL query: " ++ blank.message
  | forbidden phrase =>
    "Blocked dangerous SQL keyword " ++ Text.quotedString phrase ++ ": " ++ preview
  | leading => "SQL query does not start with an allowed keyword: " ++ preview
  | suspicious source message =>
    "Suspicious SQL pattern " ++ Text.quotedString source ++ " (" ++ message ++ "): " ++ preview
  | statements separators =>
    "Multiple SQL statements detected (" ++ toString separators ++ " separators)"
  | marker found =>
    "Comment marker " ++ Text.quotedString found.text ++ " left after normalization: " ++ preview

end Violation

def checkPhrases (normal : List Char) : Option Violation :=
  (forbiddenPhrases.find? fun p => hasPhrase p.toList false normal).map .forbidden

def checkLeading (normal : List Char) : Option Violation :=
  if startsAllowed normal then none else some .leading

def checkShapes (normal : List Char) : Option Violation :=
  (suspiciousRules.find? fun r => r.shape.occursIn normal).map fun r =>
    .suspicious r.source r.message

def checkSeparators (query : List Char) : Option Violation :=
  if countSeparators query ≤ 1 then none else some (.statements (countSeparators query))

def checkMarkers (normal : List Char) : Option Violation := (firstMarker? normal).map .marker

/-- The first violation of a text, if any. -/
def violation? (query : List Char) : Option Violation :=
  if Text.isBlankText query then some .blank
  else
    let normal := normalize query
    checkPhrases normal
      |>.or (checkLeading normal)
      |>.or (checkShapes normal)
      |>.or (checkSeparators query)
      |>.or (checkMarkers normal)

/-- The beginning of a text: so many characters, all but so many when negative,
everything without a length. -/
def preview (length : Option Int) (s : List Char) : List Char :=
  match length with
  | none => s
  | some (.ofNat n) => s.take n
  | some (.negSucc n) => s.take (s.length - (n + 1))

/-- The guard; the preview length bounds what the log shows of a query. -/
structure Guard where
  previewLength : Option Int
  deriving DecidableEq, Repr

namespace Guard

/-- The guard that shows a hundred characters. -/
def standard : Guard := ⟨some 100⟩

def logger : String := "modules.security.sql_guard"

/-- The verdict on a query, and what is logged; a query that is not a text
counts as an empty one. -/
def validate (g : Guard) (query : Option String) : Option Violation × List LogRecord :=
  let text := (query.getD "").toList
  match violation? text with
  | none => (none, [])
  | some v =>
    let shown := String.ofList (preview g.previewLength (normalize text))
    (some v, [.warning logger (v.report shown)])

end Guard

end SafeReports.Sql
