import SafeReports.FileTree
import SafeReports.Log

/-!
# Rotating log files

A handler appends lines to a file. When the bytes of the file and the characters
of the next line reach the limit together, the file moves to the first of five
backup names, each backup moves one further, and a new file is begun. A handler
goes on with the file it has open, whatever that file is called by then.
-/

namespace SafeReports.Logging

/-- The number of characters of the time that begins each line. -/
def timeWidth : Nat := 23

/-- Lines of a log file, without their times and line ends, newest first, and
the size in bytes. -/
structure LogText where
  lines : List String := []
  bytes : Nat := 0

def LogText.add (t : LogText) (line : String) : LogText :=
  ⟨line :: t.lines, t.bytes + timeWidth + line.utf8ByteSize + 1⟩

/-- The text after the time. -/
def lineOf (r : LogRecord) : String :=
  " - " ++ LogRecord.levelName r.level ++ " - " ++ r.logger ++ " - " ++ r.message

structure Handler where
  /-- The path of the log, without `..`. -/
  path : FilePath
  /-- The file that is open. -/
  file : Nat
  deriving DecidableEq, Repr

def maxBytes : Nat := 1000000

def backupCount : Nat := 5

def encoding : String := "utf-8"

/-- The path of a backup. -/
def backup (path : FilePath) (n : Nat) : FilePath :=
  path.dropLast ++ (path.getLast?.map fun name => name ++ "." ++ toString n).toList

/-- Moves backup `n` one further, then those below it. -/
def shiftBackups (path : FilePath) : Nat → FileTree LogText → FileTree LogText
  | 0, t => t
  | n + 1, t => shiftBackups path n (t.rename (backup path (n + 1)) (backup path (n + 2)))

/-- Moves the log aside and begins a new one. -/
def Handler.rotate (h : Handler) (t : FileTree LogText) : Handler × FileTree LogText :=
  let t := (shiftBackups h.path (backupCount - 1) t).rename h.path (backup h.path 1)
  let (file, t) := t.create h.path {}
  ({ h with file := file }, t)

/-- Whether the log has to rotate before a line. -/
def Handler.isFull (h : Handler) (line : String) (t : FileTree LogText) : Bool :=
  maxBytes ≤ ((t.content? h.file).getD {}).bytes + (timeWidth + line.length + 1)

def Handler.write (h : Handler) (line : String) (t : FileTree LogText) :
    Handler × FileTree LogText :=
  let (h, t) := if h.isFull line t then h.rotate t else (h, t)
  (h, t.setContent h.file (((t.content? h.file).getD {}).add line))

end SafeReports.Logging
