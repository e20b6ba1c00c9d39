import ScriptLex.Text.Basic

/-!
# TOML values

The values that a TOML document can hold. Floats, dates and times are kept as they are
written: nothing here calculates with them.
-/

namespace ScriptLex.Toml

inductive Value where
  | string (t : Text)
  | integer (n : Int)
  | float (written : Text)
  | boolean (b : Bool)
  /-- A date, a time or both. -/
  | moment (written : Text)
  | array (items : List Value)
  | table (entries : List (Text × Value))

/-- A table, its keys in the order in which they were set. A document is a table. -/
abbrev Table := List (Text × Value)

namespace Table

def get? (table : Table) (key : Text) : Option Value := table.lookup key

/-- The table that a key holds, if it holds a table. -/
def table? (table : Table) (key : Text) : Option Table :=
  match table.get? key with
  | some (.table entries) => some entries
  | _ => none

end Table

end ScriptLex.Toml
