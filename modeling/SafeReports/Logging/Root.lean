import SafeReports.Logging.Rotation

/-!
# The root of all loggers

One level decides which records are kept, and every handler writes each of them.
Setting up adds a handler for the log in a directory, unless there is one whose
path is the one given. A path is compared as it was given, so a detour by `..`
counts as another, and so does every path from the working directory.
-/

namespace SafeReports.Logging

structure Root where
  level : Int := LogRecord.warningLevel
  handlers : List Handler := []
  tree : FileTree LogText := {}

namespace Root

def fileName : String := "reports.log"

/-- Opens the log at a path, made if need be. -/
def openLog (tree : FileTree LogText) (path : FilePath) :
    Except PathError Handler × FileTree LogText :=
  if tree.isDirectory path then (.error .isDirectory, tree)
  else
    match tree.file? path with
    | some file => (.ok ⟨path, file⟩, tree)
    | none =>
      let (file, tree) := tree.create path {}
      (.ok ⟨path, file⟩, tree)

/-- Sets the level and makes sure of a handler for the log in a directory, with `cwd`
for the working directory. -/
def setupIn (root : Root) (cwd : FilePath) (directory : WrittenPath) (level : Int) :
    Except PathError Unit × Root :=
  match root.tree.makeDirectories (directory.base cwd) false directory.components with
  | (.error e, tree) => (.error e, { root with tree := tree })
  | (.ok _, tree) =>
    let root := { root with tree := tree, level := level }
    let log := directory.child fileName
    if root.handlers.any fun h => .absolute h.path == log then (.ok (), root)
    else
      match openLog tree (log.normal cwd) with
      | (.error e, tree) => (.error e, { root with tree := tree })
      | (.ok h, tree) => (.ok (), { root with handlers := root.handlers ++ [h], tree := tree })

/-- The same for a directory that is given from the top. -/
def setup (root : Root) (directory : FilePath) (level : Int) : Except PathError Unit × Root :=
  root.setupIn [] (.absolute directory) level

/-- Writes a line with each handler in turn. -/
def writeAll (line : String) : List Handler → FileTree LogText → List Handler × FileTree LogText
  | [], t => ([], t)
  | h :: rest, t =>
    let (h, t) := h.write line t
    let (rest, t) := writeAll line rest t
    (h :: rest, t)

/-- Whether a record of this level is kept; levels up to zero never are. -/
def keeps (root : Root) (level : Int) : Bool := 0 < level && root.level ≤ level

def log (root : Root) (r : LogRecord) : Root :=
  if root.keeps r.level then
    let (handlers, tree) := writeAll (lineOf r) root.handlers root.tree
    { root with handlers := handlers, tree := tree }
  else root

def logAll (root : Root) (rs : List LogRecord) : Root := rs.foldl log root

/-- Whether a text is a time of a log: date and time of day with milliseconds. -/
def isTime (s : List Char) : Bool :=
  let shape := "0000-00-00 00:00:00,000".toList
  s.length == shape.length &&
    (s.zip shape).all fun (c, d) => if d.isDigit then c.isDigit else c == d

/-- A line with `time` in place of the time it begins with, if it does. -/
def withTime (time line : String) : String :=
  let s := line.toList
  if isTime (s.take timeWidth) && (s.drop timeWidth).take 3 == [' ', '-', ' '] then
    time ++ String.ofList (s.drop timeWidth)
  else line

/-- The lines of a log with `time` in place of the times that they begin with; a
message of several lines may have such lines of its own. -/
def read (root : Root) (path : FilePath) (time : String) : Except PathError (List String) :=
  match root.tree.resolve [] path with
  | .error e => .error e
  | .ok p =>
    match root.tree.file? p with
    | none => .error .isDirectory
    | some file =>
      let text := ((root.tree.content? file).getD {}).lines.reverse.map fun l => time ++ l ++ "\n"
      .ok (((String.join text).splitOn "\n").map (withTime time))

/-- The size of each file. -/
def sizes (root : Root) : List (FilePath × Nat) :=
  root.tree.names.map fun (p, file) => (p, ((root.tree.content? file).getD {}).bytes)

end Root

end SafeReports.Logging
