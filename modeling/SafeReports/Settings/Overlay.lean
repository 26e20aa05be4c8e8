import SafeReports.Json.Parser
import SafeReports.Json.Printer
import SafeReports.Settings.Config

/-!
# Default and user settings

The default file has to exist; a user file is laid over it name by name. Both
are read before anything is merged, and only the merged settings are checked. In
place of an object the user file may hold a list of pairs.
-/

namespace SafeReports.Settings

open Json (Members)

/-- The default file as it comes: every setting at its default. -/
def shipped : String := Json.write (.obj ({} : Config).members)

inductive LoadError
  | defaultMissing (path : String)
  /-- A file cannot be read as JSON. -/
  | malformed {fault : Json.Fault}
  /-- User settings were to be laid over a default that is no object. -/
  | defaultNotObject
  /-- The settings are no object, or a name is no text. -/
  | notSettings
  /-- The user file cannot be taken as pairs of a name and a value. -/
  | notPairs
  /-- An item of the user file does not have exactly two parts. -/
  | notTwo
  | invalid (errors : List FieldError)

/-- A list item as a pair: two items, two characters, or the names of two
members. -/
def pair? : Json → Except LoadError (Json × Json)
  | .arr [k, v] => .ok (k, v)
  | .obj [(k, _), (v, _)] => .ok (.str k, .str v)
  | .str s =>
    match s.toList with
    | [k, v] => .ok (.str k.toString, .str v.toString)
    | _ => .error .notTwo
  | .arr _ => .error .notTwo
  | .obj _ => .error .notTwo
  | _ => .error .notPairs

/-- Lays pairs over members. A name that is another scalar is no fault yet: the
second result tells whether there was one. -/
def putPairs (members : Members) (named : Bool) : List Json → Except LoadError (Members × Bool)
  | [] => .ok (members, named)
  | item :: rest => do
    let (k, v) ← pair? item
    match k with
    | .str name => putPairs (Json.put name v members) named rest
    | .arr _ => throw .notPairs
    | .obj _ => throw .notPairs
    | _ => putPairs members false rest

def overlay (members : Members) : Json → Except LoadError (Members × Bool)
  | .obj extra => .ok (Json.putAll members extra, true)
  | .arr items => putPairs members true items
  | .str s => if s = "" then .ok (members, true) else .error .notTwo
  | _ => .error .notPairs

def parseFile (depth : Nat) (text : String) : Except LoadError Json :=
  match Json.read depth text with
  | .ok j => .ok j
  | .error fault => .error (@LoadError.malformed fault)

/-- The members of both files together. -/
def merge (base : Json) : Option Json → Except LoadError Members
  | none =>
    match base with
    | .obj members => .ok members
    | _ => .error .notSettings
  | some user =>
    match base with
    | .obj members => do
      let (merged, named) ← overlay members user
      if named then return merged else throw .notSettings
    | _ => .error .defaultNotObject

/-- The configuration of a default file and a user file, each a text if it exists.
Containers are read up to a depth, and the merged members are built by `build`. -/
def loadWith (build : Members → Except (List FieldError) Config) (depth : Nat) (path : String)
    (base user : Option String) : Except LoadError Config := do
  match base with
  | none => throw (.defaultMissing path)
  | some text =>
    let baseValue ← parseFile depth text
    let userValue ←
      match user with
      | none => pure none
      | some userText => some <$> parseFile depth userText
    let members ← merge baseValue userValue
    match build members with
    | .ok config => return config
    | .error errors => throw (.invalid errors)

def load : String → Option String → Option String → Except LoadError Config :=
  loadWith Config.ofMembers Json.maxDepth

def LoadError.message : LoadError → String
  | .defaultMissing path => "Default configuration file not found: " ++ path
  | _ => ""

end SafeReports.Settings
