import SafeReports.Json.Basic
import SafeReports.Text.Integer
import SafeReports.Timestamp.Instant

/-!
# Fields of a model

A field is given a value and reads it by the conversion of its kind. The lax
conversions take a value of the field's own kind or one that stands for it without
loss: a number in a text, a truth value as a number, a time in ISO form. All faulty
fields of a model are reported, in the order of the model.
-/

namespace SafeReports

open Decimal (Binary64)

/-- Why a field cannot be read. -/
inductive FieldFault
  | missing
  | notText
  | notInteger
  | fractional
  | notFinite
  | tooLarge
  | unreadableInteger
  | notTruthValue
  | unreadableTruthValue
  | notMoment
  | unreadableMoment
  | unreadableInstant
  | notPositive
  | blankName
  deriving DecidableEq, Repr

namespace FieldFault

def code : FieldFault → String
  | missing => "missing"
  | notText => "string_type"
  | notInteger => "int_type"
  | fractional => "int_from_float"
  | notFinite => "finite_number"
  | tooLarge => "int_parsing_size"
  | unreadableInteger => "int_parsing"
  | notTruthValue => "bool_type"
  | unreadableTruthValue => "bool_parsing"
  | notMoment => "datetime_type"
  | unreadableMoment => "datetime_from_date_parsing"
  | unreadableInstant => "datetime_parsing"
  | notPositive => "value_error"
  | blankName => "value_error"

/-- The text that goes with a value which was read but is not allowed. -/
def message : FieldFault → Option String
  | notPositive => some "Value error, value must be positive"
  | blankName => some "Value error, report_name must not be blank"
  | _ => none

end FieldFault

structure FieldError where
  field : String
  fault : FieldFault
  deriving DecidableEq, Repr

/-- What a field is given: a JSON value, or a moment as it is. -/
inductive FieldValue
  | given (value : Json)
  | moment (t : Timestamp)

namespace FieldValue

def ofMoment : Option Timestamp → FieldValue
  | some t => .moment t
  | none => .given .null

def toJson : FieldValue → Json
  | given j => j
  | moment t => .str t.text

end FieldValue

/-- What a field was read as. -/
abbrev Reading (α : Type) := Except FieldFault α

/-- How the values that fields are given are read, by the kind of the field. -/
structure Conversions where
  text : FieldValue → Reading String
  integer : FieldValue → Reading Int
  truthValue : FieldValue → Reading Bool
  moment : FieldValue → Reading Timestamp

namespace Reading

/-- The errors of one field: none or one. -/
def errors (field : String) {α : Type} : Reading α → List FieldError
  | .ok _ => []
  | .error fault => [⟨field, fault⟩]

/-- The value of a field, or the model's own where the field is absent. -/
def optional {α : Type} (given : Option FieldValue) (absent : α) (read : FieldValue → Reading α) :
    Reading α :=
  given.elim (.ok absent) read

/-- The value of a field that has to be there. -/
def required {α : Type} (given : Option FieldValue) (read : FieldValue → Reading α) : Reading α :=
  given.elim (.error .missing) read

/-- Reads null as nothing. -/
def nullable {α : Type} (read : FieldValue → Reading α) : FieldValue → Reading (Option α)
  | .given .null => .ok none
  | v => (read v).map some

/-- Only a positive number is allowed. -/
def positive (conv : Conversions) (v : FieldValue) : Reading Int := do
  let n ← conv.integer v
  if n ≤ 0 then throw .notPositive
  return n

def text : Json → Reading String
  | .str s => .ok s
  | _ => .error .notText

/-! ## Integers -/

def integer : Json → Reading Int
  | .int n => .ok n
  | .bool b => .ok (if b then 1 else 0)
  | .float x =>
    if x.isFinite then
      match x.toInt? with
      | none => .error .fractional
      | some n => if Binary64.withinWord n then .ok n else .error .tooLarge
    else .error .notFinite
  | .str s =>
    match Text.readInteger s.toList with
    | .ok n => .ok n
    | .error .malformed => .error .unreadableInteger
    | .error .tooLong => .error .tooLarge
  | _ => .error .notInteger

/-! ## Truth values -/

def trueWords : List String := ["1", "on", "t", "true", "y", "yes"]

def falseWords : List String := ["0", "off", "f", "false", "n", "no"]

/-- A number as a truth value; one that has no place in 64 bits is of no kind
that stands for one. -/
def truthOfNumber (n : Int) (fits : Bool) : Reading Bool :=
  if n = 1 then .ok true
  else if n = 0 then .ok false
  else if fits then .error .unreadableTruthValue
  else .error .notTruthValue

def truthValue : Json → Reading Bool
  | .bool b => .ok b
  | .int n => truthOfNumber n (Decimal.fitsWord n)
  | .float x =>
    match x.toInt? with
    | some n => truthOfNumber n (Binary64.withinWord n)
    | none => .error .notTruthValue
  | .str s =>
    if trueWords.contains s.toLower then .ok true
    else if falseWords.contains s.toLower then .ok false
    else .error .unreadableTruthValue
  | _ => .error .notTruthValue

/-! ## Moments -/

/-- The timestamp of an instant, and for an instant of none the fault; the year
zero has one of its own. -/
def instant (fault : FieldFault) (micros : Int) : Reading Timestamp :=
  match Timestamp.ofEpochMicros? micros with
  | some t => .ok t
  | none => .error (if Timestamp.inYearZero micros then .unreadableInstant else fault)

/-- A timestamp in ISO form, or a number in a text. -/
def momentOfText (s : List Char) : Reading Timestamp :=
  match Timestamp.ofChars? s with
  | some t => .ok t
  | none =>
    if Timestamp.isYearZero s then .error .unreadableInstant
    else
      match Timestamp.microsOfNumeral? s with
      | some micros => instant .unreadableMoment micros
      | none => .error .unreadableMoment

def moment : Json → Reading Timestamp
  | .str s => momentOfText s.toList
  | .int n =>
    if (Binary64.ofInt n).isFinite then instant .unreadableInstant (Timestamp.microsOfInt n)
    else .error .notMoment
  | .float x =>
    match Timestamp.microsOfFloat? x with
    | some micros => instant .unreadableInstant micros
    | none => .error .unreadableInstant
  | _ => .error .notMoment

end Reading

/-- The conversions that also take values of other kinds. -/
def Conversions.lax : Conversions where
  text
    | .given j => Reading.text j
    | .moment _ => .error .notText
  integer
    | .given j => Reading.integer j
    | .moment _ => .error .notInteger
  truthValue
    | .given j => Reading.truthValue j
    | .moment _ => .error .notTruthValue
  moment
    | .given j => Reading.moment j
    | .moment t => .ok t

end SafeReports
