import SafeReports.Text.Blank
import SafeReports.Text.Word

/-!
# Rules of the guard

Forbidden phrases are matched as whole words, suspicious shapes anywhere. Letter
case does not matter in either, and three capitals have further variants above
ASCII. Both tables are searched in order: the first rule that matches counts.
-/

namespace SafeReports.Sql

open Text (isBlank isWord)

/-- Whether a character of a text stands for a capital letter or another ASCII
character of a rule. -/
def sameLetter (rule c : Char) : Bool :=
  c.toUpper == rule || (rule == 'I' && (c == 'İ' || c == 'ı')) || (rule == 'K' && c == '\u212A') ||
    (rule == 'S' && c == 'ſ')

/-- What follows `word` at the start of the text, in any letter case. -/
def afterWord? : List Char → List Char → Option (List Char)
  | [], s => some s
  | w :: ws, c :: s => if sameLetter w c then afterWord? ws s else none
  | _ :: _, [] => none

def startsWord (s : List Char) : Bool :=
  match s with
  | [] => false
  | c :: _ => isWord c

/-- Whether `phrase` stands in the text as whole words; `inWord` tells whether
the character before the text is a word character. -/
def hasPhrase (phrase : List Char) (inWord : Bool) : List Char → Bool
  | [] => false
  | c :: r =>
    (!inWord && match afterWord? phrase (c :: r) with
      | some rest => !startsWord rest
      | none => false) ||
      hasPhrase phrase (isWord c) r

/-- A part of a suspicious shape. -/
inductive Piece
  /-- These characters, in any letter case. -/
  | word (text : String)
  /-- White space, at least one character. -/
  | gap
  /-- White space or nothing. -/
  | blanks
  /-- One of these words. -/
  | oneOf (texts : List String)

/-- What follows a piece at the start of the text. No piece after white space
begins with white space, so all of it belongs to the piece. -/
def Piece.after? (p : Piece) (s : List Char) : Option (List Char) :=
  match p, s with
  | .word text, s => afterWord? text.toList s
  | .gap, c :: r => if isBlank c then some (r.dropWhile isBlank) else none
  | .gap, [] => none
  | .blanks, s => some (s.dropWhile isBlank)
  | .oneOf texts, s => texts.findSome? fun t => afterWord? t.toList s

abbrev Shape := List Piece

def Shape.startsIn : Shape → List Char → Bool
  | [], _ => true
  | p :: rest, s =>
    match p.after? s with
    | some s' => Shape.startsIn rest s'
    | none => false

def Shape.occursIn (shape : Shape) : List Char → Bool
  | [] => shape.startsIn []
  | c :: r => shape.startsIn (c :: r) || shape.occursIn r

structure SuspiciousRule where
  /-- The rule as reports of a violation name it. -/
  source : String
  shape : Shape
  message : String

/-- Phrases no query may hold, in the order in which they are looked for. -/
def forbiddenPhrases : List String := [
  "ALTER TABLE", "ALTER DATABASE", "ALTER VIEW", "ALTER FUNCTION", "ALTER PROCEDURE",
  "ALTER TRIGGER", "CREATE TABLE", "CREATE DATABASE", "CREATE INDEX", "CREATE VIEW",
  "CREATE FUNCTION", "CREATE PROCEDURE", "CREATE TRIGGER", "CREATE USER", "DROP TABLE",
  "DROP DATABASE", "DROP INDEX", "DROP VIEW", "DROP FUNCTION", "DROP PROCEDURE", "DROP TRIGGER",
  "DROP USER", "TRUNCATE TABLE", "TRUNCATE", "RENAME TABLE",
  "DELETE FROM", "UPDATE", "INSERT INTO", "REPLACE INTO",
  "GRANT", "REVOKE", "FLUSH",
  "COMMIT", "ROLLBACK", "LOCK TABLE", "UNLOCK TABLE",
  "SHOW PROCESSLIST", "KILL", "EXEC", "EXECUTE", "CALL",
  "LOAD DATA", "LOAD FILE", "INTO OUTFILE", "INTO DUMPFILE",
  "SET PASSWORD", "SET GLOBAL", "SET SESSION"]

/-- Words one of which a query begins with. -/
def leadingWords : List String := ["SELECT", "WITH"]

def suspiciousRules : List SuspiciousRule := [
  { source := ";\\s*(DROP|DELETE|UPDATE|INSERT|ALTER|CREATE|TRUNCATE)"
    shape := [.word ";", .blanks,
      .oneOf ["DROP", "DELETE", "UPDATE", "INSERT", "ALTER", "CREATE", "TRUNCATE"]]
    message := "Multiple statements detected" },
  { source := "WHERE\\s+1\\s*=\\s*1"
    shape := [.word "WHERE", .gap, .word "1", .blanks, .word "=", .blanks, .word "1"]
    message := "Suspicious WHERE clause detected" },
  { source := "WHERE\\s+'1'\\s*=\\s*'1'"
    shape := [.word "WHERE", .gap, .word "'1'", .blanks, .word "=", .blanks, .word "'1'"]
    message := "Suspicious WHERE clause detected" },
  { source := "OR\\s+1\\s*=\\s*1"
    shape := [.word "OR", .gap, .word "1", .blanks, .word "=", .blanks, .word "1"]
    message := "SQL injection pattern detected" },
  { source := "INFORMATION_SCHEMA"
    shape := [.word "INFORMATION_SCHEMA"]
    message := "Access to INFORMATION_SCHEMA is not allowed" },
  { source := "FROM\\s+MYSQL\\."
    shape := [.word "FROM", .gap, .word "MYSQL."]
    message := "Access to MySQL system tables is not allowed" },
  { source := "FROM\\s+PERFORMANCE_SCHEMA\\."
    shape := [.word "FROM", .gap, .word "PERFORMANCE_SCHEMA."]
    message := "Access to performance schema is not allowed" }]

/-- A phrase as a pattern: its words with an escaped space between, bounded. -/
def phraseSource (phrase : String) : String :=
  "\\b" ++ String.ofList (phrase.toList.flatMap fun c => if c = ' ' then ['\\', ' '] else [c]) ++
    "\\b"

/-- Whether a normalised text begins with one of the leading words, as a whole
word and in capitals. -/
def startsAllowed (s : List Char) : Bool :=
  leadingWords.any fun w =>
    w.toList.isPrefixOf s && !startsWord (s.drop w.length)

end SafeReports.Sql
