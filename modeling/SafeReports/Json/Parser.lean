import SafeReports.Json.Basic
import SafeReports.Text.Match
import SafeReports.Text.Numeral

/-!
# Reading JSON

Space, tab, line feed and carriage return may stand between tokens. `NaN`,
`Infinity` and `-Infinity` are numbers; of members with one name the last counts,
at the place of the first. Refused are control characters inside texts, leading
zeros, comments, trailing commas, a byte order mark and an empty text, and also
integers of too many digits and containers too deep in one another. A text is read
from left to right, and the first fault counts.
-/

namespace SafeReports.Json

open Decimal (Binary64)
open Text (after? maxDigits numberOf signed)

/-- Why a text cannot be read. -/
inductive Fault
  /-- It is not JSON. -/
  | malformed
  | tooManyDigits
  | tooDeep
  /-- Half of a pair of UTF-16 units, which no text holds by itself. -/
  | loneSurrogate
  deriving DecidableEq, Repr

def isSpace (c : Char) : Bool := c == ' ' || c == '\t' || c == '\n' || c == '\r'

def skipSpace (s : List Char) : List Char := s.dropWhile isSpace

def hexValue? (c : Char) : Option Nat :=
  if '0' ≤ c ∧ c ≤ '9' then some (c.toNat - 48)
  else if 'a' ≤ c ∧ c ≤ 'f' then some (c.toNat - 87)
  else if 'A' ≤ c ∧ c ≤ 'F' then some (c.toNat - 55)
  else none

/-- Four hexadecimal digits. -/
def unit? : List Char → Option (Nat × List Char)
  | a :: b :: c :: d :: s => do
    let a ← hexValue? a
    let b ← hexValue? b
    let c ← hexValue? c
    let d ← hexValue? d
    some (((a * 16 + b) * 16 + c) * 16 + d, s)
  | _ => none

def IsHighSurrogate (unit : Nat) : Prop := 0xD800 ≤ unit ∧ unit < 0xDC00

def IsLowSurrogate (unit : Nat) : Prop := 0xDC00 ≤ unit ∧ unit < 0xE000

instance (unit : Nat) : Decidable (IsHighSurrogate unit) := inferInstanceAs (Decidable (_ ∧ _))

instance (unit : Nat) : Decidable (IsLowSurrogate unit) := inferInstanceAs (Decidable (_ ∧ _))

/-- The low half of a pair, after the high one. -/
def lowHalf : List Char → Except Fault (Nat × List Char)
  | '\\' :: 'u' :: s =>
    match unit? s with
    | none => .error .malformed
    | some (low, rest) =>
      if IsLowSurrogate low then .ok (low, rest) else .error .loneSurrogate
  | _ => .error .loneSurrogate

/-- The character of an escape by units, the low half of a pair included. -/
def unicodeEscape (s : List Char) : Except Fault (Char × List Char) :=
  match unit? s with
  | none => .error .malformed
  | some (high, rest) =>
    if IsHighSurrogate high then
      (lowHalf rest).map fun (low, rest) =>
        (Char.ofNat (0x10000 + (high - 0xD800) * 0x400 + (low - 0xDC00)), rest)
    else if IsLowSurrogate high then .error .loneSurrogate
    else .ok (Char.ofNat high, rest)

def simpleEscape? : Char → Option Char
  | '"' => some '"'
  | '\\' => some '\\'
  | '/' => some '/'
  | 'b' => some '\x08'
  | 'f' => some '\x0c'
  | 'n' => some '\n'
  | 'r' => some '\r'
  | 't' => some '\t'
  | _ => none

/-- The characters up to the closing quote, in reverse on `acc`, and the rest. -/
def chars : Nat → List Char → List Char → Except Fault (List Char × List Char)
  | 0, _, _ => .error .malformed
  | fuel + 1, acc, s =>
    match s with
    | [] => .error .malformed
    | '"' :: rest => .ok (acc.reverse, rest)
    | '\\' :: 'u' :: rest =>
      match unicodeEscape rest with
      | .ok (c, rest') => chars fuel (c :: acc) rest'
      | .error fault => .error fault
    | '\\' :: e :: rest =>
      match simpleEscape? e with
      | some c => chars fuel (c :: acc) rest
      | none => .error .malformed
    | c :: rest =>
      if c.toNat < 0x20 ∨ c = '\\' then .error .malformed else chars fuel (c :: acc) rest

def digits (s : List Char) : List Char × List Char := s.span Char.isDigit

/-- The digits after a point, if there are any. -/
def fraction (s : List Char) : Option (List Char) × List Char :=
  match s with
  | '.' :: rest =>
    match digits rest with
    | ([], _) => (none, s)
    | (ds, rest') => (some ds, rest')
  | _ => (none, s)

/-- The exponent after its letter, if it has digits. -/
def exponent (s : List Char) : Option Int × List Char :=
  match s with
  | c :: rest =>
    if c = 'e' ∨ c = 'E' then
      let (negative, rest') :=
        match rest with
        | '-' :: r => (true, r)
        | '+' :: r => (false, r)
        | r => (false, r)
      match digits rest' with
      | ([], _) => (none, s)
      | (ds, rest'') => (some (signed negative (numberOf ds)), rest'')
    else (none, s)
  | [] => (none, s)

/-- A number without its sign: an integer unless it has a fraction or an exponent. -/
def magnitude (negative : Bool) (s : List Char) : Except Fault (Json × List Char) :=
  let (whole, rest) :=
    match s with
    | '0' :: r => (['0'], r)
    | _ => digits s
  if whole.isEmpty then .error .malformed
  else
    let (places, rest) := fraction rest
    let (power, rest) := exponent rest
    match places, power with
    | none, none =>
      if maxDigits < whole.length then .error .tooManyDigits
      else .ok (.int (signed negative (numberOf whole)), rest)
    | _, _ =>
      let ds := places.getD []
      let shift := power.getD 0 - ds.length
      .ok (.float (Binary64.ofScientific negative (numberOf (whole ++ ds)) shift), rest)

def number : List Char → Except Fault (Json × List Char)
  | '-' :: s =>
    match after? "Infinity".toList s with
    | some rest => .ok (.float (.infinite true), rest)
    | none => magnitude true s
  | s => magnitude false s

/-- A word that stands for a value. -/
def word? (s : List Char) : Option (Json × List Char) :=
  [("null", Json.null), ("true", .bool true), ("false", .bool false),
    ("NaN", .float .nan), ("Infinity", .float (.infinite false))].findSome? fun (word, value) =>
      (after? word.toList s).map (value, ·)

def scalar (s : List Char) : Except Fault (Json × List Char) :=
  match word? s with
  | some v => .ok v
  | none => number s

mutual

/-- A value, with blanks before it, of containers of which `depth` may be open at once. -/
def value : Nat → Nat → List Char → Except Fault (Json × List Char)
  | 0, _, _ => .error .malformed
  | fuel + 1, depth, s =>
    match skipSpace s with
    | '"' :: rest => (chars fuel [] rest).map fun (cs, r) => (.str (String.ofList cs), r)
    | '[' :: rest =>
      match depth with
      | 0 => .error .tooDeep
      | depth + 1 =>
        match skipSpace rest with
        | ']' :: r => .ok (.arr [], r)
        | _ => (items fuel depth [] rest).map fun (xs, r) => (.arr xs, r)
    | '\x7b' :: rest =>
      match depth with
      | 0 => .error .tooDeep
      | depth + 1 =>
        match skipSpace rest with
        | '\x7d' :: r => .ok (.obj [], r)
        | _ => (members fuel depth [] rest).map fun (ms, r) => (.obj ms, r)
    | s' => scalar s'

/-- Items up to the closing bracket, put in reverse on `acc`. -/
def items : Nat → Nat → List Json → List Char → Except Fault (List Json × List Char)
  | 0, _, _, _ => .error .malformed
  | fuel + 1, depth, acc, s =>
    match value fuel depth s with
    | .error fault => .error fault
    | .ok (x, rest) =>
      match skipSpace rest with
      | ',' :: r => items fuel depth (x :: acc) r
      | ']' :: r => .ok ((x :: acc).reverse, r)
      | _ => .error .malformed

/-- Members up to the closing brace, put into `acc`. -/
def members : Nat → Nat → Members → List Char → Except Fault (Members × List Char)
  | 0, _, _, _ => .error .malformed
  | fuel + 1, depth, acc, s =>
    match skipSpace s with
    | '"' :: rest =>
      match chars fuel [] rest with
      | .error fault => .error fault
      | .ok (key, rest) =>
        match skipSpace rest with
        | ':' :: rest =>
          match value fuel depth rest with
          | .error fault => .error fault
          | .ok (x, rest) =>
            let acc := put (String.ofList key) x acc
            match skipSpace rest with
            | ',' :: r => members fuel depth acc r
            | '\x7d' :: r => .ok (acc, r)
            | _ => .error .malformed
        | _ => .error .malformed
    | _ => .error .malformed

end

/-- The one value of a text, blanks around it apart. -/
def read (depth : Nat) (s : String) : Except Fault Json :=
  let cs := s.toList
  match value (2 * cs.length + 1) depth cs with
  | .error fault => .error fault
  | .ok (j, rest) => if (skipSpace rest).isEmpty then .ok j else .error .malformed

/-- The number of open containers for which there is room on the call stack when the
settings are loaded by nobody further up. -/
def maxDepth : Nat := 993

/-- The value of a text, if it can be read. -/
def parse (s : String) : Option Json := (read maxDepth s).toOption

end SafeReports.Json
