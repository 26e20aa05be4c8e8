import SafeReports.Decimal.Binary64

/-!
# Decimal text of floating point values

The shortest text takes the coarsest decimal grid that has a point which reads
back as the value, and on it the point nearest to the value, a tie to the even
digit. It is positional for exponents from -4 to 15 and always has a fraction or
an exponent.
-/

namespace SafeReports.Decimal

open Text (numeral padded signChars)

/-- `digits · 10 ^ exponent`. -/
structure Point where
  digits : Nat
  exponent : Int
  deriving DecidableEq, Repr

/-- The same point without trailing zeros, of which at most `fuel` go. -/
def Point.trimZeros : Nat → Point → Point
  | 0, p => p
  | fuel + 1, p =>
    if p.digits ≠ 0 ∧ p.digits % 10 = 0 then
      Point.trimZeros fuel ⟨p.digits / 10, p.exponent + 1⟩
    else p

/-- Numerator and denominator of `num / den / 10 ^ k`. -/
def shiftTen (num den : Nat) (k : Int) : Nat × Nat :=
  if 0 ≤ k then (num, den * tenTo k.toNat) else (num * tenTo (-k).toNat, den)

/-- The `p` with `10 ^ p ≤ num / den < 10 ^ (p + 1)`, one off at most before the
two corrections for the magnitudes of this format. -/
def decimalExponent (num den : Nat) : Int :=
  let guess := Int.fdiv (((num.log2 : Int) - den.log2) * 1233) 4096
  let low := shiftTen num den guess
  let high := shiftTen num den (guess + 1)
  if low.1 < low.2 then guess - 1 else if high.2 ≤ high.1 then guess + 1 else guess

/-- The reals that round to `m · 2 ^ e`, in quarters of the last place around
`4 · m`; the ends belong to them when the significand is even. -/
structure Cell where
  value : Nat
  lower : Nat
  upper : Nat
  closed : Bool

def Cell.ofSignificand (m : Nat) (e : Int) : Cell where
  value := 4 * m
  lower := if m = twoTo 52 ∧ Binary64.minExponent < e then 4 * m - 1 else 4 * m - 2
  upper := 4 * m + 2
  closed := m % 2 == 0

/-- Whether the point `d / scale`, in the cell's unit, rounds to its value. -/
def Cell.has (c : Cell) (d scale : Nat) : Bool :=
  if c.closed then c.lower * scale ≤ d && d ≤ c.upper * scale
  else c.lower * scale < d && d < c.upper * scale

/-- The nearer of the value's two neighbours `d · 10 ^ k` and `(d + 1) · 10 ^ k`
among those that read back. -/
def Cell.onGrid? (c : Cell) (e k : Int) : Option Point :=
  let unit := Binary64.shiftRatio 1 1 (2 - e)
  let step := shiftTen unit.1 unit.2 k
  -- the value is `c.value * step.1 / step.2` steps of the grid
  let d := c.value * step.1 / step.2
  let down := c.has (d * step.2) step.1
  let up := c.has ((d + 1) * step.2) step.1
  let below := c.value * step.1 - d * step.2
  let above := (d + 1) * step.2 - c.value * step.1
  if down && up then
    if below < above || (below == above && d % 2 == 0) then some ⟨d, k⟩ else some ⟨d + 1, k⟩
  else if down then some ⟨d, k⟩
  else if up then some ⟨d + 1, k⟩
  else none

/-- Tries `count` digits, then one more, up to `fuel` times. -/
def Cell.shortest (c : Cell) (e top : Int) : Nat → Nat → Point
  | 0, count => ⟨c.value, top - count + 1⟩
  | fuel + 1, count =>
    (c.onGrid? e (top - count + 1)).getD (c.shortest e top fuel (count + 1))

def shortestPoint (m : Nat) (e : Int) : Point :=
  let ratio := Binary64.shiftRatio m 1 (-e)
  let top := decimalExponent ratio.1 ratio.2
  Point.trimZeros 20 ((Cell.ofSignificand m e).shortest e top 17 1)

/-- A point in positional notation, with at least one digit on each side. -/
def Point.positional (p : Point) : List Char :=
  let ds := numeral p.digits
  let whole : Int := ds.length + p.exponent
  if whole ≤ 0 then '0' :: '.' :: List.replicate (-whole).toNat '0' ++ ds
  else if (ds.length : Int) ≤ whole then
    ds ++ List.replicate (whole - ds.length).toNat '0' ++ ['.', '0']
  else ds.take whole.toNat ++ '.' :: ds.drop whole.toNat

/-- A point in scientific notation, with two digits of exponent at least;
`point` tells whether a lone digit gets a fraction. -/
def Point.scientific (point : Bool) (p : Point) : List Char :=
  let ds := numeral p.digits
  let e : Int := ds.length + p.exponent - 1
  let fraction := ds.drop 1
  ds.take 1 ++
    (if fraction.isEmpty then (if point then ['.', '0'] else []) else '.' :: fraction) ++
    'e' :: (if e < 0 then '-' else '+') :: padded 2 e.natAbs

/-- The exponent of the leading digit. -/
def Point.leading (p : Point) : Int := (numeral p.digits).length + p.exponent - 1

namespace Binary64

/-- The shortest text that reads back as the value. -/
def text : Binary64 → List Char
  | .nan => ['n', 'a', 'n']
  | .infinite negative => signChars negative ++ ['i', 'n', 'f']
  | .finite negative m e =>
    if m = 0 then signChars negative ++ ['0', '.', '0']
    else
      let p := shortestPoint m e
      signChars negative ++
        if -4 ≤ p.leading ∧ p.leading < 16 then p.positional else p.scientific false

end Binary64

end SafeReports.Decimal
