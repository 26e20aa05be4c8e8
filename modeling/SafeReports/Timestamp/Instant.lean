import SafeReports.Decimal.Binary64
import SafeReports.Timestamp

/-!
# Numbers as instants

A number counts the seconds since 1970 began in UTC, and a large one the
milliseconds. Seconds with a fraction are taken apart in floating point
arithmetic and the fraction rounded to microseconds, a half upwards.
-/

namespace SafeReports.Timestamp

open Decimal (Binary64)
open Text (numberOf signed)

/-- Numbers above this one count milliseconds instead of seconds. -/
def maxSeconds : Nat := 20000000000

def microsOfInt (n : Int) : Int :=
  if maxSeconds < n.natAbs then n * 1000 else n * 1000000

/-- Whole seconds and the fraction that is left of them. -/
def microsOfSeconds? (x : Binary64) : Option Int := do
  let (n, d) ← x.ratio?
  let whole := n / d
  let (m, e) ← ((Binary64.ofRatio false (n - whole * d).toNat d).scale 1000000 1).ratio?
  some (whole * 1000000 + (2 * m + e) / (2 * e))

def microsOfFloat? (x : Binary64) : Option Int := do
  let (n, d) ← x.ratio?
  microsOfSeconds? (if maxSeconds * d < n.natAbs then x.scale 1 1000 else x)

/-- The microseconds of a numeral: a sign, digits below the bounds of 64 bits,
and a point with further digits, of which only the digits before it must be. -/
def microsOfNumeral? (s : List Char) : Option Int :=
  let negative := s.head? == some '-'
  let magnitude := if negative || s.head? == some '+' then s.drop 1 else s
  let whole := magnitude.takeWhile Char.isDigit
  if whole.isEmpty || !Binary64.withinWord (numberOf whole) then none
  else
    match magnitude.dropWhile Char.isDigit with
    | [] => some (microsOfInt (signed negative (numberOf whole)))
    | point :: places =>
      if point = '.' ∧ places.all Char.isDigit then
        microsOfFloat? (.ofScientific negative (numberOf (whole ++ places)) (-places.length))
      else none

/-- Whether an instant lies in the year before the first one. -/
def inYearZero (micros : Int) : Bool :=
  (dayNumber 0 1 1 - epochDay) * 86400000000 ≤ micros &&
    micros < (dayNumber 1 1 1 - epochDay) * 86400000000

/-- Whether a text is a timestamp but for its year, which is zero; the calendar
of that year is the one of 400. -/
def isYearZero (s : List Char) : Bool :=
  s.take 4 == ['0', '0', '0', '0'] && (ofChars? ('0' :: '4' :: '0' :: '0' :: s.drop 4)).isSome

end SafeReports.Timestamp
