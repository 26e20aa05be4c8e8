import SafeReports.Store.Disk

/-!
# Opening databases

Opening a file makes it and the directories above it, and applies all migrations;
a database in memory starts empty and without them.
-/

namespace SafeReports.Store.Disk

/-- The number of the file at a path, if it is there, and its place in the tree;
the directories above it are made. -/
def locate (path : FilePath) : DiskM (Option Nat × FilePath) := do
  let disk ← getThe Disk
  let (result, tree) := disk.tree.makeDirectories [] false path.dropLast
  set { disk with tree := tree }
  let directory ← ofExcept (result.mapError .path)
  let p := (path.getLast?.map directory.step).getD directory
  if tree.isDirectory p then throw (.path .isDirectory)
  return (tree.file? p, p)

/-- Makes a file. -/
def create (p : FilePath) (text : String) : DiskM Nat := do
  let disk ← getThe Disk
  let (f, tree) := disk.tree.create p (.text text)
  set { disk with tree := tree }
  return f

/-- Opens the file of a path, made if need be. -/
def openFile (path : FilePath) : DiskM Place := do
  let (file, p) ←
    try locate path
    catch
      | .path .isDirectory => throw .cannotOpen
      | e => throw e
  match file with
  | some f => return .file f p
  | none => return .file (← create p "") p

/-- A connection to the database in a file, with all migrations applied. -/
def connect (path : FilePath) : DiskM Nat := do
  let n ← add ⟨← openFile path, [], none⟩
  try migrate n
  catch e =>
    close n
    throw e
  return n

/-- A connection to a new database in memory. -/
def connectMemory : DiskM Nat := do
  let number := (← getThe Disk).memory.length
  modify fun disk => { disk with memory := disk.memory ++ [{}] }
  add ⟨.memory number, [], none⟩

/-- Writes a text file, and the directories above it. -/
def writeText (path : FilePath) (text : String) : DiskM Unit := do
  match ← locate path with
  | (some f, _) => modify fun disk => { disk with tree := disk.tree.setContent f (.text text) }
  | (none, p) => discard (create p text)

/-- All names in order, those of the journals included. -/
def listing (disk : Disk) : List String :=
  (disk.tree.listing ++ disk.connections.filterMap fun (_, c) => c.journal?).mergeSort
    fun a b => decide (a ≤ b)

end SafeReports.Store.Disk
