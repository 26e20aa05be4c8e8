import SafeReports.Decimal.Binary64

/-!
# JSON values

Integers are unbounded and apart from floating point numbers; an object keeps
its members in the order in which their names first came.
-/

namespace SafeReports

open Decimal (Binary64)

inductive Json
  | null
  | bool (value : Bool)
  | int (value : Int)
  | float (value : Binary64)
  | str (value : String)
  | arr (items : List Json)
  | obj (members : List (String × Json))
  deriving Inhabited

namespace Json

abbrev Members := List (String × Json)

/-- Puts a member in place of the one of its name, or at the end. -/
def put (key : String) (value : Json) : Members → Members
  | [] => [(key, value)]
  | (k, v) :: rest => if k = key then (key, value) :: rest else (k, v) :: put key value rest

def find? (key : String) (members : Members) : Option Json := members.lookup key

/-- Puts every member of the second list, in order, into the first. -/
def putAll (members extra : Members) : Members :=
  extra.foldl (fun acc kv => put kv.1 kv.2 acc) members

/-- The member of an object; `none` for everything else. -/
def get? (key : String) : Json → Option Json
  | .obj members => find? key members
  | _ => none

/-- Empty, zero and null values count as false. -/
def truthy : Json → Bool
  | .null => false
  | .bool b => b
  | .int n => n != 0
  | .float x => !x.isZero
  | .str s => s != ""
  | .arr items => !items.isEmpty
  | .obj members => !members.isEmpty

/-- The number of characters, items or members. -/
def length? : Json → Option Nat
  | .str s => some s.length
  | .arr items => some items.length
  | .obj members => some members.length
  | _ => none

end Json

end SafeReports
