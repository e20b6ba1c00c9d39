import ScriptLex.Text.Basic

/-!
# Paths

A path is a root and the names behind it. Empty names and the name `.` lead nowhere and
are left out; `..` stays, since where it leads depends on the files.
-/

namespace ScriptLex

inductive Path.Root where
  | relative
  | absolute
  /-- Exactly two slashes, a root apart from the absolute one. -/
  | double
deriving DecidableEq, Repr

structure Path where
  root : Path.Root
  names : List Text
deriving DecidableEq, Repr

namespace Path

def Root.text : Root → Text
  | relative => []
  | absolute => "/"
  | double => "//"

def Root.ofText (t : Text) : Root :=
  match (t.takeWhile (· = '/')).length with
  | 0 => relative
  | 2 => double
  | _ => absolute

def ofText (t : Text) : Path where
  root := Root.ofText t
  names := (t.pieces '/').filter fun name => name ≠ [] ∧ name ≠ ['.']

/-- The path of the directory that relative paths start from is written `.`. -/
def text (p : Path) : Text :=
  match p.root, p.names with
  | .relative, [] => "."
  | root, names => root.text ++ List.intercalate ['/'] names

/-- The path without its last name. -/
def parent (p : Path) : Path := { p with names := p.names.dropLast }

/-- The path of `name` in the directory `p`. -/
def child (p : Path) (name : Text) : Path := { p with names := p.names ++ [name] }

end Path

end ScriptLex
