import ScriptLex.Text.Basic

/-!
# Line ends

Files end their lines with a line feed, a carriage return or both.
-/

namespace ScriptLex.Text

/-- Every line end becomes a line feed. -/
def unifyNewlines : Text → Text
  | [] => []
  | '\r' :: '\n' :: t => '\n' :: unifyNewlines t
  | c :: t => (if c = '\r' then '\n' else c) :: unifyNewlines t

/-- Carriage returns are dropped before line feeds and stay elsewhere. -/
def dropReturns : Text → Text
  | [] => []
  | '\r' :: '\n' :: t => '\n' :: dropReturns t
  | c :: t => c :: dropReturns t

end ScriptLex.Text
