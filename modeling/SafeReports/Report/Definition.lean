import SafeReports.Field

/-!
# Report definitions

A stored query with a name. The name is trimmed and must not be blank. A draft
is a report in the hands of its owner, who may put anything into its fields
before it is saved.
-/

namespace SafeReports

@[ext]
structure Report where
  id : Option Int
  name : String
  query : String
  createdAt : Option Timestamp
  updatedAt : Option Timestamp
  deriving DecidableEq, Repr

namespace Report

def trimName (name : String) : String := String.ofList (Text.strip name.toList)

def readName (conv : Conversions) (v : FieldValue) : Reading String := do
  let name := trimName (← conv.text v)
  if name = "" then throw .blankName
  return name

/-- The report of what is given under the names of its fields, or all faults in the
order of the fields. -/
def build (conv : Conversions) (given : String → Option FieldValue) :
    Except (List FieldError) Report :=
  let id := Reading.optional (given "report_id") none (Reading.nullable conv.integer)
  let name := Reading.required (given "report_name") (readName conv)
  let query := Reading.required (given "query_definition") conv.text
  let createdAt := Reading.optional (given "created_at") none (Reading.nullable conv.moment)
  let updatedAt := Reading.optional (given "updated_at") none (Reading.nullable conv.moment)
  match id, name, query, createdAt, updatedAt with
  | .ok i, .ok n, .ok q, .ok c, .ok u => .ok ⟨i, n, q, c, u⟩
  | _, _, _, _, _ =>
    .error (id.errors "report_id" ++ name.errors "report_name" ++
      query.errors "query_definition" ++ createdAt.errors "created_at" ++
      updatedAt.errors "updated_at")

/-- The report of members that are read by the lax conversions. -/
def ofMembers (members : Json.Members) : Except (List FieldError) Report :=
  build .lax fun name => (Json.find? name members).map .given

end Report

structure Draft where
  id : Json
  name : Json
  query : Json
  createdAt : FieldValue
  updatedAt : FieldValue

namespace Draft

def ofReport (r : Report) : Draft where
  id := (r.id.map Json.int).getD .null
  name := .str r.name
  query := .str r.query
  createdAt := .ofMoment r.createdAt
  updatedAt := .ofMoment r.updatedAt

/-- Puts a value into a field; `none` for a field that reports do not have. -/
def set? (d : Draft) (field : String) (value : Json) : Option Draft :=
  if field = "report_id" then some { d with id := value }
  else if field = "report_name" then some { d with name := value }
  else if field = "query_definition" then some { d with query := value }
  else if field = "created_at" then some { d with createdAt := .given value }
  else if field = "updated_at" then some { d with updatedAt := .given value }
  else none

def members (d : Draft) : Json.Members :=
  [("report_id", d.id), ("report_name", d.name), ("query_definition", d.query),
    ("created_at", d.createdAt.toJson), ("updated_at", d.updatedAt.toJson)]

/-- What is in the fields, by their names. -/
def given (d : Draft) (name : String) : Option FieldValue :=
  List.lookup name [("report_id", .given d.id), ("report_name", .given d.name),
    ("query_definition", .given d.query), ("created_at", d.createdAt),
    ("updated_at", d.updatedAt)]

end Draft

end SafeReports
