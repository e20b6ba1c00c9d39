import ScriptLex.Text.Basic

/-!
# Indices

Integers as indices of a text: below zero they count from its end.
-/

namespace ScriptLex

/-- Why a text has no character at an index. -/
inductive IndexFault where
  | outOfRange
  /-- The index is less than any index can be. -/
  | belowLeast
deriving DecidableEq, Repr

def IndexFault.message : IndexFault → Text
  | outOfRange => "string index out of range"
  | belowLeast => "cannot fit 'int' into an index-sized integer"

namespace Text

/-- The least index, as 64 bits hold it. -/
def leastIndex : Int := -9223372036854775808

/-- The character at an index, which below zero counts from the end. -/
def charAt (t : Text) (i : Int) : Except IndexFault Char :=
  if i < leastIndex then .error .belowLeast
  else
    let i := if i < 0 then i + t.length else i
    match if 0 ≤ i then t[i.toNat]? else none with
    | some c => .ok c
    | none => .error .outOfRange

/-- The index that a bound of a slice stands for: below zero it counts from the end, and
it is moved into the text. -/
def bound (t : Text) (i : Int) : Nat :=
  (if i < 0 then i + t.length else min i t.length).toNat

/-- The characters from `start` up to `stop`. -/
def slice (t : Text) (start stop : Int) : Text :=
  (t.take (t.bound stop)).drop (t.bound start)

end Text

end ScriptLex
