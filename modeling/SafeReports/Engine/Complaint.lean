import SafeReports.Text.Blank
import SafeReports.Text.Digit
import SafeReports.Text.Match

/-!
# Complaints of a database engine

An engine complains in a text that may carry a state in brackets or an error
code, and, after `query was:`, the query. For the reader of a report the state
goes and the query is cut short; a query that the complaint does not show is
looked for in the complaint behind it.
-/

namespace SafeReports.Engine

open Text (after? findAfter? isBlank isDigit strip)

/-- A complaint, the one it was raised from, and the one that was being handled
when it arose. -/
structure Complaint where
  message : String
  cause : Option String
  context : Option String
  deriving DecidableEq, Repr

/-- What follows `SQLSTATE[`, a code and `]:` at the start of the text. -/
def afterState? (s : List Char) : Option (List Char) := do
  let rest ← after? "SQLSTATE[".toList s
  if (rest.takeWhile (· != ']')).isEmpty then none
  else after? "]:".toList (rest.dropWhile (· != ']'))

/-- What follows the first state with anything after it. -/
def findState? : List Char → Option (List Char)
  | [] => none
  | c :: r =>
    match afterState? (c :: r) with
    | some (d :: rest) => some (d :: rest)
    | _ => findState? r

/-- White space, an error code and more white space at the start of a text: the
code with that space, and what follows. A code that ends the text needs two
characters of space after it. -/
def code? (s : List Char) : Option (List Char × List Char) :=
  let s := s.dropWhile isBlank
  let digits := s.takeWhile isDigit
  let rest := s.dropWhile isDigit
  let space := rest.takeWhile isBlank
  let text := rest.dropWhile isBlank
  if digits.isEmpty || space.isEmpty || (text.isEmpty && space.length < 2) then none
  else some (digits ++ space, text)

/-- The first colon with an error code after it. -/
def findCode? : List Char → Option (List Char × List Char)
  | [] => none
  | c :: r => (if c = ':' then code? r else none).or (findCode? r)

/-- What follows a comma, white space and `query was:` at the start of a text. -/
def afterQueryWas? : List Char → Option (List Char)
  | ',' :: r => after? "query was:".toList (r.dropWhile isBlank)
  | _ => none

/-- The text before the first mention of a query with anything after it, and
that query. -/
def splitQuery : List Char → List Char × Option (List Char)
  | [] => ([], none)
  | c :: r =>
    match afterQueryWas? (c :: r) with
    | some (d :: query) => ([], some (d :: query))
    | _ => (c :: (splitQuery r).1, (splitQuery r).2)

/-- As `splitQuery`, but the first character is no mention. -/
def splitQueryAfterFirst : List Char → List Char × Option (List Char)
  | [] => ([], none)
  | c :: r => (c :: (splitQuery r).1, (splitQuery r).2)

/-- The text before the first mention of a query. -/
def beforeQuery : List Char → List Char
  | [] => []
  | c :: r => if (afterQueryWas? (c :: r)).isSome then [] else c :: beforeQuery r

def maxQueryLength : Nat := 200

/-- The message with a query, cut short, unless that is empty. -/
def withQuery (message query : List Char) : List Char :=
  if query.isEmpty then message
  else
    let shown :=
      if maxQueryLength < query.length then query.take maxQueryLength ++ ['.', '.', '.'] else query
    message ++ ", query was: ".toList ++ shown

/-- The query of the complaint behind this one; a cause hides the context. -/
def Complaint.previousQuery (c : Complaint) : List Char :=
  match c.cause.or c.context with
  | none => []
  | some previous => strip ((findAfter? "query was:".toList previous.toList).getD [])

/-- The message of a complaint that has a state or an error code. -/
def Complaint.parsed (c : Complaint) (text : List Char × Option (List Char)) : List Char :=
  let own := strip (text.2.getD [])
  withQuery (strip text.1) (if own.isEmpty then c.previousQuery else own)

/-- Without the state at the start, and the white space after it. -/
def dropState (s : List Char) : List Char :=
  match afterState? s with
  | some rest => rest.dropWhile isBlank
  | none => s

/-- The complaint as the reader of a report sees it. -/
def Complaint.readable (c : Complaint) : String :=
  let s := c.message.toList
  String.ofList <|
    match findState? s with
    | some rest => c.parsed (splitQueryAfterFirst (rest.dropWhile isBlank))
    | none =>
      match findCode? s with
      | some (code, rest) =>
        let (text, query) := splitQueryAfterFirst rest
        c.parsed (code ++ text, query)
      | none => dropState (strip (beforeQuery s))

end SafeReports.Engine
