import SafeReports.Field

/-!
# Configuration

Seven settings with defaults, three of which have to be positive. Every other
member is kept as it is.
-/

namespace SafeReports

@[ext]
structure Config where
  appName : String := "custom-report-suite"
  version : String := "0.1.0"
  reportsEnabled : Bool := true
  maxQueryLength : Int := 65536
  previewLength : Int := 100
  defaultRowLimit : Int := 1000
  checkExecutionOnSave : Bool := true
  extras : Json.Members := []

namespace Config

def fieldNames : List String :=
  ["app_name", "version", "reports_enabled", "max_query_length", "preview_length",
    "default_row_limit", "check_execution_on_save"]

def isExtra (member : String × Json) : Bool := !fieldNames.contains member.1

/-- The configuration of these members, or all faults in the order of the
settings. -/
def build (conv : Conversions) (members : Json.Members) : Except (List FieldError) Config :=
  let d : Config := {}
  let given (name : String) := (Json.find? name members).map FieldValue.given
  let appName := Reading.optional (given "app_name") d.appName conv.text
  let version := Reading.optional (given "version") d.version conv.text
  let reportsEnabled :=
    Reading.optional (given "reports_enabled") d.reportsEnabled conv.truthValue
  let maxQueryLength :=
    Reading.optional (given "max_query_length") d.maxQueryLength (Reading.positive conv)
  let previewLength :=
    Reading.optional (given "preview_length") d.previewLength (Reading.positive conv)
  let defaultRowLimit :=
    Reading.optional (given "default_row_limit") d.defaultRowLimit (Reading.positive conv)
  let checkExecutionOnSave :=
    Reading.optional (given "check_execution_on_save") d.checkExecutionOnSave conv.truthValue
  match appName, version, reportsEnabled, maxQueryLength, previewLength, defaultRowLimit,
      checkExecutionOnSave with
  | .ok a, .ok v, .ok r, .ok m, .ok p, .ok l, .ok c =>
    .ok ⟨a, v, r, m, p, l, c, members.filter isExtra⟩
  | _, _, _, _, _, _, _ =>
    .error (appName.errors "app_name" ++ version.errors "version" ++
      reportsEnabled.errors "reports_enabled" ++ maxQueryLength.errors "max_query_length" ++
      previewLength.errors "preview_length" ++ defaultRowLimit.errors "default_row_limit" ++
      checkExecutionOnSave.errors "check_execution_on_save")

/-- The configuration of members that are read by the lax conversions. -/
def ofMembers : Json.Members → Except (List FieldError) Config := build .lax

/-- All settings as members, extras last. -/
def members (c : Config) : Json.Members :=
  [("app_name", .str c.appName), ("version", .str c.version),
    ("reports_enabled", .bool c.reportsEnabled), ("max_query_length", .int c.maxQueryLength),
    ("preview_length", .int c.previewLength), ("default_row_limit", .int c.defaultRowLimit),
    ("check_execution_on_save", .bool c.checkExecutionOnSave)] ++ c.extras

end Config

end SafeReports
