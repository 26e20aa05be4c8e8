import SafeReports.Text.Blank
import SafeReports.Text.Numeral

/-!
# Integers in texts

A text stands for an integer when nothing but digits, perhaps after a minus sign,
is left of it without the padding around it, a plus sign, leading zeros, a
fraction of zeros only and single underscores. Sign and digits together are not
longer than a limit.
-/

namespace SafeReports.Text

/-- Why a text stands for no integer. -/
inductive IntegerFault
  | malformed
  | tooLong
  deriving DecidableEq, Repr

/-- The blanks that may stand around a number in a text; the information
separators are not among them. -/
def isPadding (c : Char) : Bool := isBlank c && !(0x1C ≤ c.toNat && c.toNat ≤ 0x1F)

/-- Without a plus sign, which no minus sign may follow. -/
def withoutPlus? : List Char → Option (List Char)
  | '+' :: '-' :: _ => none
  | '+' :: r => some r
  | s => some s

/-- The text after a zero and the zeros and underscores that follow it; the last
of these, `last`, stays before a point or the end. -/
def afterZeros? (last : Char) : List Char → Option (List Char)
  | [] => some [last]
  | c :: r =>
    if c = '0' ∨ c = '_' then afterZeros? c r
    else if c = '.' then some (last :: c :: r)
    else if c = '-' ∨ c.isDigit then some (c :: r)
    else none

/-- Without leading zeros; the text begins with a digit or a minus sign. -/
def withoutZeros? : List Char → Option (List Char)
  | [] => none
  | c :: r =>
    if c = '0' then afterZeros? c r
    else if c = '-' ∨ c.isDigit then some (c :: r)
    else none

/-- Without a fraction that has only zeros. -/
def withoutFraction (s : List Char) : List Char :=
  match s.dropWhile (· != '.') with
  | _ :: places =>
    if !places.isEmpty && places.all (· == '0') then s.takeWhile (· != '.') else s
  | [] => s

/-- Whether every underscore has another character on either side; `inside` tells
whether there is such a character before the text. -/
def separated (inside : Bool) : List Char → Bool
  | [] => inside
  | c :: r => if c = '_' then inside && separated false r else separated true r

def withoutUnderscores (s : List Char) : List Char :=
  if separated false s then s.filter (· != '_') else s

/-- The number of characters that an integer may have, its sign included. -/
def maxIntegerLength : Nat := 4300

/-- Digits, perhaps after a minus sign; zeros may stand before other digits. -/
def plainInteger (s : List Char) : Except IntegerFault Int :=
  let negative := s.head? == some '-'
  let magnitude := if negative then s.drop 1 else s
  let digits := magnitude.takeWhile Char.isDigit
  if digits.isEmpty then .error .malformed
  else if maxIntegerLength < s.length - magnitude.length + digits.length then .error .tooLong
  else if digits.length < magnitude.length then .error .malformed
  else .ok (signed negative (numberOf digits))

def readInteger (s : List Char) : Except IntegerFault Int :=
  match (withoutPlus? (trim isPadding s)).bind withoutZeros? with
  | none => .error .malformed
  | some r => plainInteger (withoutUnderscores (withoutFraction r))

end SafeReports.Text
