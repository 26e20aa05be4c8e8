import SafeReports.Decimal.Binary64

/-!
# Extended precision

Values of 64 bits of significand and any exponent, without a sign. Each
operation gives the value nearest to the exact result, a tie to the even
significand.
-/

namespace SafeReports.Decimal

/-- The value `significand · 2 ^ exponent`. -/
structure Extended where
  significand : Nat
  exponent : Int
  deriving DecidableEq, Repr

namespace Extended

open Binary64 (shiftRatio)

/-- The exponent at which the quotient has 64 bits. -/
def exponentOf (num den : Nat) : Int :=
  let guess : Int := (num.log2 : Int) - den.log2 - 63
  let scaled := shiftRatio num den guess
  if scaled.1 < twoTo 63 * scaled.2 then guess - 1 else guess

/-- The value nearest to `num / den`. -/
def ofRatio (num den : Nat) : Extended :=
  if num = 0 then ⟨0, 0⟩
  else
    let e := exponentOf num den
    let scaled := shiftRatio num den e
    ⟨divRound scaled.1 scaled.2, e⟩

/-- The magnitude of a finite value of 64 bits; of any other, zero. -/
def ofBinary64 : Binary64 → Extended
  | .finite _ m e => ⟨m, e⟩
  | _ => ⟨0, 0⟩

/-- The value of 64 bits that is nearest to `digits · 10 ^ exponent`. -/
def constant (digits : Nat) (exponent : Int) : Extended :=
  ofBinary64 (.ofScientific false digits exponent)

/-- Numerator and denominator. -/
def ratio (x : Extended) : Nat × Nat := shiftRatio x.significand 1 (-x.exponent)

/-- The value of 64 bits that is nearest. -/
def toBinary64 (x : Extended) (negative : Bool) : Binary64 :=
  .ofRatio negative x.ratio.1 x.ratio.2

def mul (x y : Extended) : Extended :=
  ofRatio (x.ratio.1 * y.ratio.1) (x.ratio.2 * y.ratio.2)

def div (x y : Extended) : Extended :=
  ofRatio (x.ratio.1 * y.ratio.2) (x.ratio.2 * y.ratio.1)

def add (x y : Extended) : Extended :=
  ofRatio (x.ratio.1 * y.ratio.2 + y.ratio.1 * x.ratio.2) (x.ratio.2 * y.ratio.2)

/-- The difference, zero where it is below zero. -/
def sub (x y : Extended) : Extended :=
  ofRatio (x.ratio.1 * y.ratio.2 - y.ratio.1 * x.ratio.2) (x.ratio.2 * y.ratio.2)

def less (x y : Extended) : Bool := x.ratio.1 * y.ratio.2 < y.ratio.1 * x.ratio.2

def floor (x : Extended) : Nat := x.ratio.1 / x.ratio.2

end Extended

end SafeReports.Decimal
