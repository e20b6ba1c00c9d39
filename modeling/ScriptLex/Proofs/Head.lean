import ScriptLex.Proofs.StringLiteral
import ScriptLex.Scanner

/-!
# The head of a text

What the next lexeme is follows from the unread text alone. Once the gap before it is
gone, the first character decides which of the forms it has, and each form takes as many
characters as it can.
-/

namespace ScriptLex

/-- What stands at the head of a text that starts with no gap. -/
inductive Head where
  | endOfInput
  /-- A lexeme, its value and the text behind it. -/
  | lexeme (kind : Kind) (value : Option Text) (rest : Text)
  /-- A block comment that is never closed. -/
  | openComment
  /-- A string literal that is never closed. -/
  | openString
  /-- A dollar sign with as many letters and digits after it. -/
  | hexColor (digits : Nat)
  /-- A character that starts no lexeme. -/
  | stray (c : Char)
deriving DecidableEq, Repr

namespace Head

/-- What follows the blanks and the word `if` that a text starts with. The word has to be
whole, and at least one blank has to stand before it. -/
def afterIf? (t : Text) : Option Text :=
  match t.takeWhile isBlank, t.dropWhile isBlank with
  | _ :: _, 'i' :: 'f' :: rest => if rest.head?.any isWordChar then none else some rest
  | _, _ => none

/-- A word: a keyword, `else if` or a name. -/
def ofWord (mode : Mode) (t : Text) : Head :=
  let word := t.takeWhile isWordChar
  let rest := t.dropWhile isWordChar
  match Keyword.kind? word with
  | none => lexeme .identifier (some word) rest
  | some kind =>
    if kind = .elseWord ∧ mode.joinElseIf then
      match afterIf? rest with
      | some behind => lexeme .elseIfWords none behind
      | none => lexeme kind none rest
    else lexeme kind none rest

/-- A digit and all digits and points after it, however many points there are. -/
def ofNumber (t : Text) : Head :=
  lexeme .realLiteral (some (t.takeWhile isNumeral)) (t.dropWhile isNumeral)

/-- The string literal whose opening delimiter stands before `body`. -/
def ofString (delim : Char) (body : Text) : Head :=
  match StringLiteral.read? delim body with
  | some (value, rest) => lexeme .stringLiteral (some value) rest
  | none => openString

/-- The longest symbol, or the stray character `c` that the text starts with. -/
def ofSymbol (c : Char) (t : Text) : Head :=
  match SymbolTable.script.longestMatch? (t.take SymbolTable.lookahead) with
  | some symbol => lexeme symbol.kind none (t.drop symbol.pattern.length)
  | none => stray c

def ofText (mode : Mode) : Text → Head
  | [] => endOfInput
  | c :: t =>
    if c = '/' ∧ t.head? = some '*' then openComment
    else if StringLiteral.isDelimiter c then ofString c t
    else if c = '$' then hexColor (t.takeWhile isAlphanumeric).length
    else if isDigit c then ofNumber (c :: t)
    else if isWordStart c then ofWord mode (c :: t)
    else ofSymbol c (c :: t)

end Head

end ScriptLex
