import ScriptLex.Text.Decimal
import ScriptLex.Text.Quoted
import ScriptLex.Token.Basic

/-!
# Token listings

A token stream as text: one row `line:column KIND 'value'` for each token, where a token
without a value ends after its kind. A value never breaks its row, since a quoted text
holds no line feed.
-/

namespace ScriptLex

/-- The row of one token, without the line feed that ends it. -/
def ValuedToken.row (t : ValuedToken) : Text :=
  Decimal.ofInt t.token.line ++ ':' :: Decimal.ofInt t.token.column ++
    ' ' :: t.token.kind.name ++
    match t.value with
    | none => []
    | some value => ' ' :: Quoted.quote value

namespace Listing

/-- One row for each token, each ended by a line feed. -/
def rows (ts : List ValuedToken) : Text :=
  ts.flatMap fun t => t.row ++ ['\n']

end Listing

end ScriptLex
