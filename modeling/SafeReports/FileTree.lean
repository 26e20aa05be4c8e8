/-!
# File trees

Directories and files below one top. A path is a list of components; `..` goes
back to the directory above. A file keeps its number when it is renamed, so that
whoever has it open goes on with it.
-/

namespace SafeReports

abbrev FilePath := List String

namespace FilePath

/-- The components of a path in text; empty ones and `.` do not count. -/
def ofText (text : String) : FilePath := (text.splitOn "/").filter fun c => c != "" && c != "."

def text (p : FilePath) : String := String.intercalate "/" p

/-- The path after one more component. -/
def step (p : FilePath) (component : String) : FilePath :=
  if component = ".." then p.dropLast else p ++ [component]

/-- The same path without `..`. -/
def normal (p : FilePath) : FilePath := p.foldl step []

end FilePath

/-- A path as it is written: from the top, or from a working directory. -/
inductive WrittenPath
  | absolute (p : FilePath)
  | relative (p : FilePath)
  deriving DecidableEq, Repr

namespace WrittenPath

def components : WrittenPath → FilePath
  | absolute p | relative p => p

/-- Where the path begins, with `cwd` for the working directory. -/
def base (cwd : FilePath) : WrittenPath → FilePath
  | absolute _ => []
  | relative _ => cwd

def child (name : String) : WrittenPath → WrittenPath
  | absolute p => absolute (p ++ [name])
  | relative p => relative (p ++ [name])

/-- The same path from the top, without `..`. -/
def normal (cwd : FilePath) (w : WrittenPath) : FilePath :=
  FilePath.normal (w.base cwd ++ w.components)

end WrittenPath

inductive PathError
  | missing
  | taken
  | notDirectory
  | isDirectory
  deriving DecidableEq, Repr

structure FileTree (α : Type) where
  /-- The directories below the top. -/
  directories : List FilePath := []
  /-- The names of files, each with the number of the file. -/
  names : List (FilePath × Nat) := []
  /-- What is in the files, by number. -/
  contents : List α := []

namespace FileTree

variable {α : Type}

def isDirectory (t : FileTree α) (p : FilePath) : Bool := p.isEmpty || t.directories.contains p

def file? (t : FileTree α) (p : FilePath) : Option Nat := t.names.lookup p

def content? (t : FileTree α) (file : Nat) : Option α := t.contents[file]?

def setContent (t : FileTree α) (file : Nat) (content : α) : FileTree α :=
  { t with contents := t.contents.set file content }

/-- A new file of this name, and its number. -/
def create (t : FileTree α) (p : FilePath) (content : α) : Nat × FileTree α :=
  (t.contents.length,
    { t with names := t.names ++ [(p, t.contents.length)], contents := t.contents ++ [content] })

def remove (t : FileTree α) (p : FilePath) : FileTree α :=
  { t with names := t.names.filter (·.1 != p) }

/-- Gives a file another name, in place of a file that has it already. -/
def rename (t : FileTree α) (source target : FilePath) : FileTree α :=
  match t.file? source with
  | none => t
  | some file => { t with names := ((t.remove target).remove source).names ++ [(target, file)] }

/-- Makes the directories on a path below `base` that are not there, and tells
where the path ends. A file in the way is in the place of the directory to be
made when it comes last or when one above it had to be made. -/
def makeDirectories (t : FileTree α) (base : FilePath) (made : Bool) :
    FilePath → Except PathError FilePath × FileTree α
  | [] => (.ok base, t)
  | c :: rest =>
    let p := base.step c
    if t.isDirectory p then t.makeDirectories p made rest
    else if (t.file? p).isSome then
      (.error (if made || rest.isEmpty then .taken else .notDirectory), t)
    else ({ t with directories := t.directories ++ [p] } : FileTree α).makeDirectories p true rest

/-- The place of an existing directory or file. -/
def resolve (t : FileTree α) (base : FilePath) : FilePath → Except PathError FilePath
  | [] => .ok base
  | c :: rest =>
    let p := base.step c
    if t.isDirectory p then t.resolve p rest
    else if (t.file? p).isSome then if rest.isEmpty then .ok p else .error .notDirectory
    else .error .missing

/-- All names in order, those of directories with a final slash. -/
def listing (t : FileTree α) : List String :=
  let directories := t.directories.map fun p => FilePath.text p ++ "/"
  let files := t.names.map fun f => FilePath.text f.1
  (directories ++ files).mergeSort fun a b => decide (a ≤ b)

end FileTree

end SafeReports
