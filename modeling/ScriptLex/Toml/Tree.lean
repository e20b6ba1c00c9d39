import ScriptLex.Toml.Value

/-!
# Tables under construction

While a document is read, its tables remember how they came about, for that decides what
may still be added to them. A header `[a.b]` opens a table once; the tables on its way are
only implied and may be opened later. A dotted key makes or extends tables too, which stay
open to dotted keys until the next header and are closed to headers. A value is closed from
the start, also when it is an inline table or an array.
-/

namespace ScriptLex.Toml

/-- How a table came about. -/
inductive Origin where
  /-- On the way to another table. -/
  | implied
  /-- By a header of its own. -/
  | header
  /-- By dotted keys, the last of them behind the header with this number. -/
  | dotted (sectionNumber : Nat)
deriving DecidableEq, Repr

inductive Node where
  | value (v : Value)
  | table (origin : Origin) (entries : List (Text × Node))
  /-- An array of tables. Only the current one, the last of the array, can be added to;
  the one before it comes first among the others. -/
  | tables (current : List (Text × Node)) (before : List (List (Text × Node)))

abbrev Nodes := List (Text × Node)

/-- A dotted key: the tables on its way and its last name. -/
structure Key where
  path : List Text
  name : Text
deriving DecidableEq, Repr

mutual

def Node.toValue : Node → Value
  | .value v => v
  | .table _ entries => .table (Nodes.toTable entries)
  | .tables current before =>
    .array (Nodes.toTables before ++ [.table (Nodes.toTable current)])

def Nodes.toTable : Nodes → Table
  | [] => []
  | (key, node) :: nodes => (key, node.toValue) :: Nodes.toTable nodes

/-- The tables of an array that was built back to front. -/
def Nodes.toTables : List Nodes → List Value
  | [] => []
  | nodes :: before => Nodes.toTables before ++ [.table (Nodes.toTable nodes)]

end

namespace Nodes

/-- Sets a key, in its old place if it has one. -/
def set (nodes : Nodes) (key : Text) (node : Node) : Nodes :=
  match nodes with
  | [] => [(key, node)]
  | (k, n) :: nodes => if k = key then (key, node) :: nodes else (k, n) :: set nodes key node

/-- Sets a dotted key that has not been set before, and marks the tables on its way. -/
def insert (sectionNumber : Nat) (path : List Text) (name : Text) (v : Value) (nodes : Nodes) :
    Option Nodes :=
  match path with
  | [] =>
    match nodes.lookup name with
    | none => some (nodes.set name (.value v))
    | some _ => none
  | key :: path =>
    let mark (entries : Nodes) : Node := .table (.dotted sectionNumber) entries
    match nodes.lookup key with
    | none => (insert sectionNumber path name v []).map fun inner => nodes.set key (mark inner)
    | some (.table origin inner) =>
      if origin = .implied ∨ origin = .dotted sectionNumber then
        (insert sectionNumber path name v inner).map fun inner => nodes.set key (mark inner)
      else none
    | some _ => none

/-- Changes the table that a path leads to, which goes through the current tables of
arrays. Tables that are missing on the way are implied. -/
def within (path : List Text) (change : Nodes → Option Nodes) (nodes : Nodes) : Option Nodes :=
  match path with
  | [] => change nodes
  | key :: path =>
    match nodes.lookup key with
    | none => (within path change []).map fun inner => nodes.set key (.table .implied inner)
    | some (.table origin inner) =>
      (within path change inner).map fun inner => nodes.set key (.table origin inner)
    | some (.tables current before) =>
      (within path change current).map fun current => nodes.set key (.tables current before)
    | some (.value _) => none

/-- Opens a table by its header, once. -/
def openTable (name : Text) (nodes : Nodes) : Option Nodes :=
  match nodes.lookup name with
  | none => some (nodes.set name (.table .header []))
  | some (.table .implied inner) => some (nodes.set name (.table .header inner))
  | some _ => none

/-- Adds an empty table to an array of tables. -/
def appendTable (name : Text) (nodes : Nodes) : Option Nodes :=
  match nodes.lookup name with
  | none => some (nodes.set name (.tables [] []))
  | some (.tables current before) => some (nodes.set name (.tables [] (current :: before)))
  | some _ => none

end Nodes

end ScriptLex.Toml
