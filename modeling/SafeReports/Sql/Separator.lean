/-!
# Statement separators

Single quotes, double quotes and backticks open a span; the same character
closes it unless a backslash stands directly before it. A semicolon separates
statements when it stands outside every span.
-/

namespace SafeReports.Sql

/-- Where a scan stands: the quote of the open span, and whether the character
just read was a backslash. -/
structure Scan where
  quote : Option Char
  afterBackslash : Bool
  deriving DecidableEq, Repr

namespace Scan

def start : Scan := ⟨none, false⟩

def isQuote (c : Char) : Bool := c == '\'' || c == '"' || c == '\x60'

def quoteAfter (s : Scan) (c : Char) : Option Char :=
  match s.quote with
  | none => if isQuote c then some c else none
  | some q => if c = q ∧ s.afterBackslash = false then none else some q

def step (s : Scan) (c : Char) : Scan := ⟨s.quoteAfter c, c == '\\'⟩

def run (s : Scan) (text : List Char) : Scan := text.foldl step s

/-- Whether a character read in this state separates statements. -/
def separates (s : Scan) (c : Char) : Bool := s.quote.isNone && c == ';'

def count (s : Scan) : List Char → Nat
  | [] => 0
  | c :: r => (if s.separates c then 1 else 0) + (s.step c).count r

theorem run_append (s : Scan) (t u : List Char) : s.run (t ++ u) = (s.run t).run u :=
  List.foldl_append

theorem count_append (s : Scan) (t u : List Char) :
    s.count (t ++ u) = s.count t + (s.run t).count u := by
  induction t generalizing s with
  | nil => simp [count, run]
  | cons c r ih => simp [count, run, ih, Nat.add_assoc]

end Scan

/-- The number of separators in a text. -/
def countSeparators (s : List Char) : Nat := Scan.start.count s

end SafeReports.Sql
