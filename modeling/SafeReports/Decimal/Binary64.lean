import SafeReports.Text.Numeral

/-!
# Binary floating point

The values of the 64-bit binary format, kept exactly: a finite one is
`± significand · 2 ^ exponent`, with 53 bits of significand and exponents from
-1074 to 971. A quotient of naturals rounds to the nearest value, a tie to the
even significand.
-/

namespace SafeReports.Decimal

open Text (numeral signed)

inductive Binary64
  | finite (negative : Bool) (significand : Nat) (exponent : Int)
  | infinite (negative : Bool)
  | nan
  deriving DecidableEq, Repr, Inhabited

/-- The quotient rounded to the nearest natural, a tie to the even one. -/
def divRound (a b : Nat) : Nat :=
  if 2 * (a % b) < b then a / b
  else if b < 2 * (a % b) then a / b + 1
  else a / b + a / b % 2

/-- Two to the power `n`. -/
def twoTo (n : Nat) : Nat := Nat.pow 2 n

/-- Ten to the power `n`. -/
def tenTo (n : Nat) : Nat := Nat.pow 10 n

theorem twoTo_pos (n : Nat) : 0 < twoTo n := Nat.pow_pos (by decide)

theorem tenTo_pos (n : Nat) : 0 < tenTo n := Nat.pow_pos (by decide)

/-- Whether an integer has a place in 64 bits. -/
def fitsWord (n : Int) : Bool := -(twoTo 63 : Int) ≤ n && n < twoTo 63

namespace Binary64

def minExponent : Int := -1074

def maxExponent : Int := 971

/-- Numerator and denominator of `num / den / 2 ^ e`. -/
def shiftRatio (num den : Nat) (e : Int) : Nat × Nat :=
  if 0 ≤ e then (num, den * twoTo e.toNat) else (num * twoTo (-e).toNat, den)

/-- The exponent at which the quotient has 53 bits, or the least one. -/
def exponentOf (num den : Nat) : Int :=
  let guess : Int := (num.log2 : Int) - den.log2 - 52
  let scaled := shiftRatio num den guess
  max minExponent (if scaled.1 < twoTo 52 * scaled.2 then guess - 1 else guess)

/-- A rounded significand, carried when it has reached 54 bits. -/
def assemble (negative : Bool) (significand : Nat) (e : Int) : Binary64 :=
  if significand < twoTo 53 then
    if e ≤ maxExponent then .finite negative significand e else .infinite negative
  else if e < maxExponent then .finite negative (significand / 2) (e + 1)
  else .infinite negative

/-- The value nearest to `± num / den`. -/
def ofRatio (negative : Bool) (num den : Nat) : Binary64 :=
  if num = 0 then .finite negative 0 minExponent
  else
    let e := exponentOf num den
    let scaled := shiftRatio num den e
    assemble negative (divRound scaled.1 scaled.2) e

/-- The value nearest to `± digits · 10 ^ exponent`. Exponents far outside the
range are settled without computing the power. -/
def ofScientific (negative : Bool) (digits : Nat) (exponent : Int) : Binary64 :=
  let magnitude : Int := (numeral digits).length + exponent
  if digits = 0 ∨ magnitude < -330 then .finite negative 0 minExponent
  else if 310 < magnitude then .infinite negative
  else if 0 ≤ exponent then ofRatio negative (digits * tenTo exponent.toNat) 1
  else ofRatio negative digits (tenTo (-exponent).toNat)

def ofInt (n : Int) : Binary64 := ofRatio (n < 0) n.natAbs 1

/-- Numerator and denominator of a finite value. -/
def ratio? : Binary64 → Option (Int × Nat)
  | .finite negative m e =>
    let r := shiftRatio m 1 (-e)
    some (signed negative r.1, r.2)
  | _ => none

/-- The value nearest to `x * num / den`; what is not finite stays as it is. -/
def scale (x : Binary64) (num den : Nat) : Binary64 :=
  match x with
  | .finite negative m e =>
    let r := shiftRatio m 1 (-e)
    ofRatio negative (r.1 * num) (r.2 * den)
  | _ => x

/-- The integer that a value without a fraction is. -/
def toInt? : Binary64 → Option Int
  | .finite negative m e =>
    if 0 ≤ e then some (signed negative (m * twoTo e.toNat))
    else if m % twoTo (-e).toNat = 0 then some (signed negative (m / twoTo (-e).toNat))
    else none
  | _ => none

/-- Whether an integer lies strictly between the bounds of 64 bits. -/
def withinWord (n : Int) : Bool := n.natAbs < twoTo 63

def isFinite : Binary64 → Bool
  | .finite .. => true
  | _ => false

def isZero : Binary64 → Bool
  | .finite _ m _ => m == 0
  | _ => false

/-- Whether the integer lies strictly above the value; nothing is above a NaN. -/
def belowInt (x : Binary64) (n : Int) : Bool :=
  match x with
  | .finite negative m e =>
    if 0 ≤ e then signed negative (m * twoTo e.toNat) < n
    else signed negative m < n * twoTo (-e).toNat
  | .infinite negative => negative
  | .nan => false

end Binary64

end SafeReports.Decimal
