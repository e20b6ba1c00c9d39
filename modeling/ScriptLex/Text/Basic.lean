/-!
# Text

Scripts, file names, values and messages are all lists of characters, so that every
length, offset and column counts characters and nothing has to be said about bytes.
-/

namespace ScriptLex

/-- A text, character by character. -/
abbrev Text := List Char

/-- Literals are written as strings and read as texts. -/
instance : Coe String Text := ⟨String.toList⟩

namespace Text

/-- As many copies of one character. -/
abbrev copies (n : Nat) (c : Char) : Text := List.replicate n c

/-- The piece before the first `c`, and the pieces that the `c`s after it divide. -/
def splitFirst (c : Char) : Text → Text × List Text
  | [] => ([], [])
  | x :: xs =>
    let (piece, pieces) := splitFirst c xs
    if x = c then ([], piece :: pieces) else (x :: piece, pieces)

/-- The pieces between the `c`s: one more than there are `c`s, so never none. -/
def pieces (c : Char) (t : Text) : List Text :=
  (splitFirst c t).1 :: (splitFirst c t).2

/-- The lines of a text. Line feeds divide lines and do not end them: a text that ends in
a line feed has an empty last line. -/
def lines (t : Text) : List Text := pieces '\n' t

/-- Cuts every `c` off the end. -/
def trimEnd (c : Char) (t : Text) : Text := (t.reverse.dropWhile (· = c)).reverse

end Text

end ScriptLex
