import ScriptLex.File.Disk

/-!
# Trees of files

A tree holds files and directories by the names that lead to them from its top. Absolute paths
start there, and relative ones at its working directory. Nothing lies above the top: `..` leads
from there to itself.
-/

namespace ScriptLex

inductive FileTree.Entry where
  | file (bytes : List UInt8)
  | directory
deriving DecidableEq, Repr

structure FileTree where
  /-- What each place holds, by the names that lead to it. The top is always a directory
  and has no entry. -/
  entries : List (List Text × FileTree.Entry) := []
  /-- Where relative paths start. -/
  workingDirectory : List Text := []
deriving DecidableEq, Repr

namespace FileTree

def entry? (tree : FileTree) (place : List Text) : Option Entry :=
  if place = [] then some .directory else tree.entries.lookup place

/-- Puts an entry at a place, for the one that is there. -/
def put (tree : FileTree) (place : List Text) (entry : Entry) : FileTree :=
  { tree with entries := tree.entries.filter (·.1 ≠ place) ++ [(place, entry)] }

/-- One name further: none if the directory does not hold the name. -/
def step? (tree : FileTree) (place : List Text) (name : Text) :
    Except FileFault (Option (List Text)) :=
  match tree.entry? place with
  | none => .error .notFound
  | some (.file _) => .error .notADirectory
  | some .directory =>
    if name = ".." then .ok (some place.dropLast)
    else if Path.nameLimit < (Utf8.encode name).length then .error .nameTooLong
    else .ok ((tree.entry? (place ++ [name])).map fun _ => place ++ [name])

/-- Follows the names from a place on. -/
def walk (tree : FileTree) (place : List Text) : List Text → Except FileFault (List Text)
  | [] => .ok place
  | name :: names =>
    match tree.step? place name with
    | .error fault => .error fault
    | .ok none => .error .notFound
    | .ok (some next) => tree.walk next names

/-- Where a path starts. -/
def startOf (tree : FileTree) (p : Path) : List Text :=
  if p.root = .relative then tree.workingDirectory else []

/-- The entry that a path leads to. -/
def find (tree : FileTree) (p : Path) : Except FileError Entry := do
  p.check
  match tree.walk (tree.startOf p) p.names with
  | .error fault => .error (.system fault p)
  | .ok place =>
    match tree.entry? place with
    | some entry => .ok entry
    | none => .error (.system .notFound p)

/-- A path that leads nowhere is no file; only a path that the system cannot take in is
refused. -/
def isFile (tree : FileTree) (p : Path) : Except FileError Bool :=
  match tree.find p with
  | .ok (.file _) => .ok true
  | .ok .directory => .ok false
  | .error (.system .nameTooLong p) => .error (.system .nameTooLong p)
  | .error _ => .ok false

def read (tree : FileTree) (p : Path) : Except FileError (List UInt8) :=
  match tree.find p with
  | .ok (.file bytes) => .ok bytes
  | .ok .directory => .error (.system .isADirectory p)
  | .error error => .error error

/-- The tree after writing to a path: the directory of the path has to exist, and the path
itself must be no directory. -/
def write (tree : FileTree) (p : Path) (bytes : List UInt8) : Except FileError FileTree := do
  p.check
  let refuse (fault : FileFault) : Except FileError FileTree := .error (.system fault p)
  match p.names.getLast? with
  | none => refuse .isADirectory
  | some name =>
    match tree.walk (tree.startOf p) p.names.dropLast with
    | .error fault => refuse fault
    | .ok place =>
      match tree.step? place name with
      | .error fault => refuse fault
      | .ok none => .ok (tree.put (place ++ [name]) (.file bytes))
      | .ok (some target) =>
        match tree.entry? target with
        | some (.file _) => .ok (tree.put target (.file bytes))
        | _ => refuse .isADirectory

/-- A tree as a disk whose contents change. -/
def disk : Disk (StateM FileTree) where
  isFile p := do return (← get).isFile p
  read p := do return (← get).read p
  write p bytes := do
    match (← get).write p bytes with
    | .ok tree => set tree; return .ok ()
    | .error error => return .error error

end FileTree

end ScriptLex
