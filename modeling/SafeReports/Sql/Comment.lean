/-!
# Comments

A line comment runs from `--` to the end of its line, a block comment from `/*`
to the first `*/` after it. The two kinds are taken out in two passes, lines
first. A block that is never closed stays.
-/

namespace SafeReports.Sql

/-- The text outside line comments; the flag tells whether one is open. -/
def outsideLines : Bool → List Char → List Char
  | _, [] => []
  | true, c :: r => if c = '\n' then c :: outsideLines false r else outsideLines true r
  | false, '-' :: '-' :: r => outsideLines true r
  | false, c :: r => c :: outsideLines false r

/-- What follows the first `*/`. -/
def afterBlock? : List Char → Option (List Char)
  | [] => none
  | '*' :: '/' :: r => some r
  | _ :: r => afterBlock? r

/-- The text outside block comments; the flag tells whether one is open, and
only a block that closes is opened. -/
def outsideBlocks : Bool → List Char → List Char
  | _, [] => []
  | true, '*' :: '/' :: r => outsideBlocks false r
  | true, _ :: r => outsideBlocks true r
  | false, '/' :: '*' :: r =>
    if (afterBlock? r).isSome then outsideBlocks true r else '/' :: outsideBlocks false ('*' :: r)
  | false, c :: r => c :: outsideBlocks false r

def dropLineComments (s : List Char) : List Char := outsideLines false s

def dropBlockComments (s : List Char) : List Char := outsideBlocks false s

end SafeReports.Sql
