import SafeReports.Decimal.Column
import SafeReports.Json.Parser

/-!
# Values as keys and as text

What is compared with an integer key may be any scalar: a number in a text or
without a fraction stands for the integer, truth values for one and zero, and
everything else for no key at all. A text column keeps a number as its text.
-/

namespace SafeReports.Store

open Decimal (Binary64 Extended fitsWord)

/-- Why a value cannot be handed to the database. -/
inductive BindFault
  /-- An integer outside 64 bits. -/
  | outOfRange
  /-- A list or an object as the parameter of this number. -/
  | notScalar (parameter : Nat) (type : String)
  deriving DecidableEq, Repr

def BindFault.message : BindFault → String
  | outOfRange => ""
  | notScalar parameter type =>
    "Error binding parameter " ++ toString parameter ++ ": type '" ++ type ++ "' is not supported"

/-- The key a number without a fraction stands for. -/
def keyOfFloat? (x : Binary64) : Option Int :=
  match x.toInt? with
  | some n => if Binary64.withinWord n then some n else none
  | none => none

def isPadding (c : Char) : Bool := c == ' ' || (9 ≤ c.toNat && c.toNat ≤ 13)

/-- Digits, a point and more digits, of which there is at least one: all digits,
and how many follow the point if it is there. -/
def mantissa? (s : List Char) : Option (List Char × Option Nat × List Char) :=
  let (whole, rest) := s.span Char.isDigit
  let (places, rest) :=
    match rest with
    | '.' :: r => ((some (r.takeWhile Char.isDigit)), r.dropWhile Char.isDigit)
    | r => (none, r)
  let digits := whole ++ places.getD []
  if digits.isEmpty then none else some (digits, places.map List.length, rest)

/-- As many digits as keep the significand below the bounds of 64 bits, after
those that make `s`, and the digits that are left. -/
def significand (s : Nat) : List Char → Nat × List Char
  | [] => (s, [])
  | d :: ds =>
    if s < 922337203685477579 then significand (s * 10 + Text.digitValue d) ds else (s, d :: ds)

/-- The key that `± digits · 10 ^ exponent` stands for: the quotient of its
significand is taken in extended precision. -/
def keyOfDecimal? (negative : Bool) (digits : List Char) (exponent : Int) : Option Int :=
  let (s, rest) := significand 0 digits
  let e := exponent + rest.length
  if s = 0 ∨ e < -400 then some 0
  else if 20 < e then none
  else
    let r := Decimal.shiftTen s 1 (-e)
    keyOfFloat? ((Extended.ofRatio r.1 r.2).toBinary64 negative)

/-- The key that a numeric text without padding and sign stands for. -/
def magnitudeKey? (negative : Bool) (s : List Char) : Option Int := do
  let (digits, places, rest) ← mantissa? s
  let (power, rest) := Json.exponent rest
  let whole := Text.signed negative (Text.numberOf digits)
  if rest ≠ [] then none
  else if places.isNone ∧ power.isNone ∧ fitsWord whole then some whole
  else keyOfDecimal? negative digits (power.getD 0 - places.getD 0)

def keyOfText? (s : String) : Option Int :=
  match ((s.toList.dropWhile isPadding).reverse.dropWhile isPadding).reverse with
  | '-' :: r => magnitudeKey? true r
  | '+' :: r => magnitudeKey? false r
  | r => magnitudeKey? false r

/-- The key that a value stands for, if it stands for one. -/
def keyOf (parameter : Nat) : Json → Except BindFault (Option Int)
  | .null => .ok none
  | .bool b => .ok (some (if b then 1 else 0))
  | .int n => if fitsWord n then .ok (some n) else .error .outOfRange
  | .float x => .ok (keyOfFloat? x)
  | .str s => .ok (keyOfText? s)
  | .arr _ => .error (.notScalar parameter "list")
  | .obj _ => .error (.notScalar parameter "dict")

/-- What a text column keeps of a value; `none` for null. -/
def columnText (parameter : Nat) : Json → Except BindFault (Option String)
  | .null => .ok none
  | .bool b => .ok (some (if b then "1" else "0"))
  | .int n => if fitsWord n then .ok (some (toString n)) else .error .outOfRange
  | .float x => .ok (x.columnText.map String.ofList)
  | .str s => .ok (some s)
  | .arr _ => .error (.notScalar parameter "list")
  | .obj _ => .error (.notScalar parameter "dict")

end SafeReports.Store
