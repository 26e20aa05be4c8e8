import SafeReports.Decimal.Extended
import SafeReports.Decimal.Shortest

/-!
# Numbers in text columns

A text column keeps a floating point value as fifteen digits. A value is brought
between one and ten, half a unit of the last digit is added, and the digits are
taken off one by one, all in extended precision: near a tie, and for values far
from one, the last digit need not be the nearest.
-/

namespace SafeReports.Decimal

open Text (signChars)

namespace Extended

/-- Multiplies a scale by `step`, which is ten to the `power`, up to `fuel` times
as long as it does not exceed the value. -/
def raise (x step : Extended) (power : Int) : Nat → Extended × Int → Extended × Int
  | 0, s => s
  | fuel + 1, (scale, e) =>
    let next := scale.mul step
    if x.less next then (scale, e) else x.raise step power fuel (next, e + power)

/-- Multiplies a value by `step`, which is ten to the `power`, up to `fuel` times
as long as it is below the bound. -/
def lift (step bound : Extended) (power : Int) : Nat → Extended × Int → Extended × Int
  | 0, s => s
  | fuel + 1, (x, e) =>
    if x.less bound then lift step bound power fuel (x.mul step, e - power) else (x, e)

/-- The value between one and ten, and the power of ten taken from it. -/
def normalize (x : Extended) : Extended × Int :=
  let (scale, e) := x.raise (constant 1 100) 100 4 (constant 1 0, 0)
  let (scale, e) := x.raise (constant 1 10) 10 10 (scale, e)
  let (scale, e) := x.raise (constant 1 1) 1 10 (scale, e)
  let s := lift (constant 1 8) (constant 1 (-8)) 8 41 (x.div scale, e)
  lift (constant 1 1) (constant 1 0) 1 8 s

/-- Half a unit of the fifteenth digit: `5e-5` times `1e-10`, in 64 bits. -/
def halfUnit : Extended :=
  let r := (constant 1 (-10)).ratio
  ofBinary64 ((Binary64.ofScientific false 5 (-5)).scale r.1 r.2)

/-- The value with half a unit added, below ten again. -/
def roundUp (x : Extended) (e : Int) : Extended × Int :=
  let y := x.add halfUnit
  if y.less (constant 10 0) then (y, e) else (y.mul (constant 1 (-1)), e + 1)

/-- Takes `count` digits off a value, after those taken so far. -/
def takeDigits (x : Extended) (taken : Nat) : Nat → Nat
  | 0 => taken
  | count + 1 =>
    let rest := (x.sub (ofRatio x.floor 1)).mul (constant 10 0)
    rest.takeDigits (taken * 10 + x.floor) count

/-- The fifteen digits of a value above zero. -/
def fifteenDigits (x : Extended) : Point :=
  let (y, e) := x.normalize
  let (y, e) := y.roundUp e
  Point.trimZeros 20 ⟨y.takeDigits 0 15, e - 14⟩

end Extended

/-- The text of a value in a text column: positional for exponents from -4 to
14, always with a fraction, and none for a NaN. -/
def Binary64.columnText : Binary64 → Option (List Char)
  | .nan => none
  | .infinite negative => some (signChars negative ++ ['I', 'n', 'f'])
  | .finite negative m e =>
    if m = 0 then some ['0', '.', '0']
    else
      let p := Extended.fifteenDigits ⟨m, e⟩
      some (signChars negative ++
        if -4 ≤ p.leading ∧ p.leading < 15 then p.positional else p.scientific true)

end SafeReports.Decimal
