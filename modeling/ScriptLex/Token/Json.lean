import ScriptLex.Text.Decimal
import ScriptLex.Text.Hex
import ScriptLex.Token.Basic

/-!
# Token streams as JSON

A token stream as one JSON array of objects, laid out with two blanks for each level and
written in printable ASCII: every other character is escaped, in two halves if its code
needs more than sixteen bits.
-/

namespace ScriptLex

namespace Json

/-- One code unit of sixteen bits. -/
def unitEscape (n : Nat) : Text := '\\' :: 'u' :: Hex.fixed 4 n

/-- A character as it stands in a JSON string. -/
def escape (c : Char) : Text :=
  if c = '\x22' ∨ c = '\\' then ['\\', c]
  else if c = '\n' then ['\\', 'n']
  else if c = '\r' then ['\\', 'r']
  else if c = '\t' then ['\\', 't']
  else if c = '\x0c' then ['\\', 'f']
  else if c = '\x08' then ['\\', 'b']
  else if ' ' ≤ c ∧ c ≤ '~' then [c]
  else if c.toNat < 0x10000 then unitEscape c.toNat
  else
    let n := c.toNat - 0x10000
    unitEscape (0xd800 + n / 0x400) ++ unitEscape (0xdc00 + n % 0x400)

def string (t : Text) : Text := '\x22' :: t.flatMap escape ++ ['\x22']

/-- A string, or `null` where there is none. -/
def optionalString : Option Text → Text
  | none => "null"
  | some t => string t

/-- A member of an object that stands in an array, on its own line. -/
def member (name value : Text) : Text := "\n    " ++ string name ++ ": " ++ value

end Json

/-- The object of one token: kind, line, column and value, in this order. -/
def ValuedToken.json (t : ValuedToken) : Text :=
  '\x7b' ::
    List.intercalate [',']
      [ Json.member "kind" (Json.string t.token.kind.name),
        Json.member "line" (Decimal.ofInt t.token.line),
        Json.member "column" (Decimal.ofInt t.token.column),
        Json.member "value" (Json.optionalString t.value) ] ++
    "\n  \x7d"

namespace Listing

/-- The array of all tokens, ended by a line feed. -/
def json : List ValuedToken → Text
  | [] => "[]\n"
  | ts => '[' :: List.intercalate [','] (ts.map fun t => "\n  " ++ t.json) ++ "\n]\n"

end Listing

end ScriptLex
