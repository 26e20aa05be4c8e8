import SafeReports.Sql.Separator
import SafeReports.Text.Blank

/-!
# The stored form of a query

White space and separators go from both ends, and so does a separator that only
one closing comment follows; the comment stays. A separator inside a quoted span
is left alone.
-/

namespace SafeReports.Sql

open Text (isBlank isBlankText strip trim trimEnd)

/-- The text through the first `*/` that only white space follows. -/
def blockToEnd? : List Char → Option (List Char)
  | [] => none
  | '*' :: '/' :: r =>
    if isBlankText r then some ['*', '/'] else (blockToEnd? ('/' :: r)).map ('*' :: ·)
  | c :: r => (blockToEnd? r).map (c :: ·)

/-- A text that is one comment, with white space after it: the comment. -/
def comment? : List Char → Option (List Char)
  | '-' :: '-' :: r =>
    if isBlankText (r.dropWhile (· != '\n')) then
      some ('-' :: '-' :: r.takeWhile (· != '\n'))
    else none
  | '/' :: '*' :: r => (blockToEnd? r).map fun b => '/' :: '*' :: b
  | _ => none

/-- White space, then one comment, then white space to the end: all but the
last of these. -/
def closing? (s : List Char) : Option (List Char) :=
  (comment? (s.dropWhile isBlank)).map (s.takeWhile isBlank ++ ·)

/-- The text before the first run of separators that only a closing comment
follows, and that comment with the white space before it. -/
def splitTrailing? : List Char → Option (List Char × List Char)
  | [] => none
  | c :: r =>
    match if c = ';' then closing? (r.dropWhile (· == ';')) else none with
    | some tail => some ([], tail)
    | none => (splitTrailing? r).map fun (before, tail) => (c :: before, tail)

/-- Without white space and separators at the ends. -/
def trimSeparators (s : List Char) : List Char := strip (trim (· == ';') (strip s))

def stored (query : List Char) : List Char :=
  let s := trimSeparators query
  match splitTrailing? s with
  | some (before, tail) =>
    if countSeparators before < countSeparators (before ++ [';']) then
      trimEnd isBlank (before ++ tail)
    else s
  | none => s

end SafeReports.Sql
