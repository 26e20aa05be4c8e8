import SafeReports.Text.Numeral

/-!
# Timestamps

A date and a time of day to the microsecond, with an offset from UTC or without.
Read and written in ISO form: a written fraction has six digits and is left out
when zero.
-/

namespace SafeReports

open Text (lastDigits numberOf)

namespace Timestamp

def isLeap (year : Nat) : Bool := year % 4 == 0 && (year % 100 != 0 || year % 400 == 0)

def daysInMonth (year month : Nat) : Nat :=
  if month = 2 then (if isLeap year then 29 else 28)
  else if month = 4 ∨ month = 6 ∨ month = 9 ∨ month = 11 then 30 else 31

/-- Whether numbers make up a date, a time of day, and an offset of whole
minutes below one day. -/
def Valid (year month day hour minute second micro : Nat) (offset : Option Int) : Prop :=
  1 ≤ year ∧ year ≤ 9999 ∧ 1 ≤ month ∧ month ≤ 12 ∧ 1 ≤ day ∧ day ≤ daysInMonth year month ∧
    hour < 24 ∧ minute < 60 ∧ second < 60 ∧ micro < 1000000 ∧
    ∀ o ∈ offset, o.natAbs < 86400 ∧ o % 60 = 0

instance (year month day hour minute second micro : Nat) (offset : Option Int) :
    Decidable (Valid year month day hour minute second micro offset) := by
  unfold Valid
  infer_instance

end Timestamp

structure Timestamp where
  year : Nat
  month : Nat
  day : Nat
  hour : Nat
  minute : Nat
  second : Nat
  micro : Nat
  /-- Seconds east of UTC. -/
  offset : Option Int
  valid : Timestamp.Valid year month day hour minute second micro offset
  deriving DecidableEq, Repr

namespace Timestamp

/-- The beginning of 1970 in UTC. -/
def epoch : Timestamp := ⟨1970, 1, 1, 0, 0, 0, 0, some 0, by decide⟩

instance : Inhabited Timestamp := ⟨epoch⟩

/-- The timestamp that numbers make up, if they do. -/
def of? (year month day hour minute second micro : Nat) (offset : Option Int) :
    Option Timestamp :=
  if h : Valid year month day hour minute second micro offset then
    some ⟨year, month, day, hour, minute, second, micro, offset, h⟩
  else none

/-! ## Writing -/

def offsetText (o : Int) : List Char :=
  let minutes := o.natAbs / 60
  (if o < 0 then '-' else '+') ::
    (lastDigits 2 (minutes / 60) ++ ':' :: lastDigits 2 (minutes % 60))

def fractionText (micro : Nat) : List Char :=
  if micro = 0 then [] else '.' :: lastDigits 6 micro

def chars (t : Timestamp) : List Char :=
  lastDigits 4 t.year ++ '-' :: (lastDigits 2 t.month ++ '-' :: (lastDigits 2 t.day ++
    'T' :: (lastDigits 2 t.hour ++ ':' :: (lastDigits 2 t.minute ++ ':' :: (lastDigits 2 t.second ++
      (fractionText t.micro ++ (t.offset.map offsetText).getD []))))))

def text (t : Timestamp) : String := String.ofList t.chars

/-! ## Reading -/

/-- A number of exactly `width` digits at the start of the text. -/
def number? (width : Nat) (s : List Char) : Option (Nat × List Char) :=
  let ds := s.take width
  if ds.length = width ∧ ds.all Char.isDigit then some (numberOf ds, s.drop width) else none

def char? (expected : Char) : List Char → Option (List Char)
  | c :: s => if c = expected then some s else none
  | [] => none

/-- The microseconds of the digits after the point or comma; digits past the sixth do not
count. -/
def microOfDigits (ds : List Char) : Nat :=
  numberOf (ds.take 6 ++ List.replicate (6 - ds.length) '0')

/-- Seconds and a fraction, both of which may be missing. -/
def seconds? (s : List Char) : Option (Nat × Nat × List Char) :=
  match s with
  | ':' :: rest => do
    let (second, rest) ← number? 2 rest
    match rest with
    | c :: r =>
      if c = '.' ∨ c = ',' then
        let ds := r.takeWhile Char.isDigit
        if ds.isEmpty then none else some (second, microOfDigits ds, r.dropWhile Char.isDigit)
      else some (second, 0, rest)
    | [] => some (second, 0, [])
  | _ => some (0, 0, s)

/-- Hours and minutes, with a colon between or without, in seconds. -/
def offsetSeconds? (s : List Char) : Option Nat := do
  let (hours, rest) ← number? 2 s
  let (minutes, rest) ← number? 2 ((char? ':' rest).getD rest)
  if rest = [] ∧ hours < 24 ∧ minutes < 60 then some ((hours * 60 + minutes) * 60) else none

def offset? (s : List Char) : Option (Option Int) :=
  match s with
  | [] => some none
  | ['Z'] | ['z'] => some (some 0)
  | '+' :: rest => (offsetSeconds? rest).map fun n => some (n : Int)
  | '-' :: rest | '−' :: rest => (offsetSeconds? rest).map fun n => some (-(n : Int))
  | _ => none

/-- Whether a character may stand between a date and a time of day. -/
def separates (c : Char) : Bool := c == 'T' || c == 't' || c == ' ' || c == '_'

/-- A date with the time of day and the offset that follow. -/
def onDate? (year month day : Nat) (s : List Char) : Option Timestamp := do
  let (hour, rest) ← number? 2 s
  let rest ← char? ':' rest
  let (minute, rest) ← number? 2 rest
  let (second, micro, rest) ← seconds? rest
  let offset ← offset? rest
  of? year month day hour minute second micro offset

def ofChars? (s : List Char) : Option Timestamp := do
  let (year, rest) ← number? 4 s
  let rest ← char? '-' rest
  let (month, rest) ← number? 2 rest
  let rest ← char? '-' rest
  let (day, rest) ← number? 2 rest
  match rest with
  | [] => of? year month day 0 0 0 0 none
  | c :: rest => if separates c then onDate? year month day rest else none

def ofText? (s : String) : Option Timestamp := ofChars? s.toList

/-! ## Instants -/

/-- Days from 0000-03-01 of the proleptic calendar to a date. -/
def dayNumber (year month day : Nat) : Int :=
  let y : Int := if month ≤ 2 then (year : Int) - 1 else year
  let m : Int := if month ≤ 2 then (month : Int) + 9 else (month : Int) - 3
  365 * y + y / 4 - y / 100 + y / 400 + (153 * m + 2) / 5 + day - 1

/-- The date of a day number: year, month, day. -/
def dateOfDay (n : Nat) : Nat × Nat × Nat :=
  let era := n / 146097
  let doe := n % 146097
  let yoe := (doe - doe / 1460 + doe / 36524 - doe / 146096) / 365
  let doy := doe - (365 * yoe + yoe / 4 - yoe / 100)
  let m := (5 * doy + 2) / 153
  let day := doy - (153 * m + 2) / 5 + 1
  let month := if m < 10 then m + 3 else m - 9
  let year := era * 400 + yoe
  (if month ≤ 2 then year + 1 else year, month, day)

/-- The day number of 1970-01-01. -/
def epochDay : Int := 719468

/-- The UTC timestamp so many microseconds after 1970 began, within the years of
timestamps. -/
def ofEpochMicros? (micros : Int) : Option Timestamp :=
  let seconds := micros / 1000000
  let (year, month, day) := dateOfDay (seconds / 86400 + epochDay).toNat
  let inDay := (seconds % 86400).toNat
  of? year month day (inDay / 3600) (inDay / 60 % 60) (inDay % 60) (micros % 1000000).toNat
    (some 0)

/-- Microseconds since 1970 began; without an offset, as if in UTC. -/
def epochMicros (t : Timestamp) : Int :=
  (((dayNumber t.year t.month t.day - epochDay) * 86400 + t.hour * 3600 + t.minute * 60 +
    t.second) - t.offset.getD 0) * 1000000 + t.micro

end Timestamp

end SafeReports
