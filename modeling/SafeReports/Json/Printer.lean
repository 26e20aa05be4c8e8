import SafeReports.Json.Basic
import SafeReports.Decimal.Shortest
import SafeReports.Text.Quoted

/-!
# Texts of JSON values

Written JSON is printable ASCII: all else is escaped by UTF-16 units. It comes
with a blank after each comma and colon, or without. The display text is the one
that messages show: a text stands for itself, and inside a list or an object it
is quoted.
-/

namespace SafeReports.Json

open Text (hex quoted signChars)

/-- A code point in UTF-16 units. -/
def utf16Units (n : Nat) : List Nat :=
  if n < 0x10000 then [n]
  else [0xD800 + (n - 0x10000) / 0x400, 0xDC00 + (n - 0x10000) % 0x400]

def escapedChar (c : Char) : List Char :=
  match c with
  | '"' => ['\\', '"']
  | '\\' => ['\\', '\\']
  | '\n' => ['\\', 'n']
  | '\r' => ['\\', 'r']
  | '\t' => ['\\', 't']
  | '\x08' => ['\\', 'b']
  | '\x0c' => ['\\', 'f']
  | c =>
    if 0x20 ≤ c.toNat ∧ c.toNat < 0x7F then [c]
    else (utf16Units c.toNat).flatMap fun u => '\\' :: 'u' :: hex 4 u

def writeString (s : String) : List Char := '"' :: s.toList.flatMap escapedChar ++ ['"']

def writeInt (n : Int) : List Char := (toString n).toList

def writeFloat : Decimal.Binary64 → List Char
  | .nan => "NaN".toList
  | .infinite negative => signChars negative ++ "Infinity".toList
  | x => x.text

/-- What stands between items, and between a name and its value. -/
structure Spacing where
  comma : List Char
  colon : List Char

def Spacing.compact : Spacing := ⟨[','], [':']⟩

def Spacing.airy : Spacing := ⟨[',', ' '], [':', ' ']⟩

mutual

def writeWith (s : Spacing) : Json → List Char
  | .null => "null".toList
  | .bool true => "true".toList
  | .bool false => "false".toList
  | .int n => writeInt n
  | .float x => writeFloat x
  | .str t => writeString t
  | .arr items => '[' :: writeItems s items ++ [']']
  | .obj members => '\x7b' :: writeMembers s members ++ ['\x7d']

def writeItems (s : Spacing) : List Json → List Char
  | [] => []
  | [x] => writeWith s x
  | x :: rest => writeWith s x ++ s.comma ++ writeItems s rest

def writeMembers (s : Spacing) : Members → List Char
  | [] => []
  | [(k, v)] => writeString k ++ s.colon ++ writeWith s v
  | (k, v) :: rest =>
    writeString k ++ s.colon ++ writeWith s v ++ s.comma ++ writeMembers s rest

end

/-- JSON text with a blank after each comma and colon. -/
def write (j : Json) : String := String.ofList (writeWith .airy j)

/-- JSON text without blanks. -/
def writeCompact (j : Json) : String := String.ofList (writeWith .compact j)

mutual

/-- A value as it stands inside a list, an object or a tuple. -/
def literal : Json → List Char
  | .null => "None".toList
  | .bool true => "True".toList
  | .bool false => "False".toList
  | .int n => writeInt n
  | .float x => x.text
  | .str t => quoted t.toList
  | .arr items => '[' :: literals items ++ [']']
  | .obj members => '\x7b' :: literalMembers members ++ ['\x7d']

def literals : List Json → List Char
  | [] => []
  | [x] => literal x
  | x :: rest => literal x ++ ',' :: ' ' :: literals rest

def literalMembers : Members → List Char
  | [] => []
  | [(k, v)] => quoted k.toList ++ ':' :: ' ' :: literal v
  | (k, v) :: rest =>
    quoted k.toList ++ ':' :: ' ' :: literal v ++ ',' :: ' ' :: literalMembers rest

end

/-- A value as a message shows it. -/
def display : Json → String
  | .str s => s
  | j => String.ofList (literal j)

/-- The text of an error raised with these arguments. -/
def displayArguments : List Json → String
  | [] => ""
  | [x] => x.display
  | xs => String.ofList ('(' :: literals xs ++ [')'])

end SafeReports.Json
