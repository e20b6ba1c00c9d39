import ScriptLex.Token.Kind

/-!
# Tokens and positions
-/

namespace ScriptLex

/-- A place in a source: line and column from one, offset from zero. Every reader of
positions accepts any integers; the lexer makes only positive lines and columns. -/
structure Position where
  line : Int
  column : Int
  offset : Int
deriving DecidableEq, Repr

/-- A token: its kind and the place of its first character. -/
structure Token where
  kind : Kind
  line : Int
  column : Int
deriving DecidableEq, Repr

/-- A token with the text that belongs to it, if its kind carries one. -/
structure ValuedToken where
  token : Token
  value : Option Text
deriving DecidableEq, Repr

namespace ValuedToken

/-- A token of the given kind that starts at `start`. -/
def startingAt (start : Position) (kind : Kind) (value : Option Text) : ValuedToken :=
  ⟨⟨kind, start.line, start.column⟩, value⟩

end ValuedToken

end ScriptLex
