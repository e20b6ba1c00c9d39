import ScriptLex.Text.Decimal
import ScriptLex.Token.Basic

/-!
# Lexical errors

An error names its cause, the place of the offending lexeme in the source and how many
characters it spans, and shows them as a snippet: the line that the error is on, with
carets under the offending characters.
-/

namespace ScriptLex

inductive LexError.Cause where
  /-- No cause in particular. -/
  | general
  /-- The source was read again after its end had been seen. -/
  | endMisuse
  | unterminatedComment
  | unterminatedString
  | unsupportedFeature
  | unknownToken
deriving DecidableEq, Repr

/-- All causes. -/
def LexError.Cause.all : List LexError.Cause :=
  [general, endMisuse, unterminatedComment, unterminatedString, unsupportedFeature, unknownToken]

/-- The code that names a cause to other tools. -/
def LexError.Cause.code : LexError.Cause → Text
  | general => "LexError"
  | endMisuse => "EofMisuseError"
  | unterminatedComment => "UnterminatedCommentError"
  | unterminatedString => "UnterminatedStringError"
  | unsupportedFeature => "UnsupportedFeatureError"
  | unknownToken => "UnknownTokenError"

structure LexError where
  cause : LexError.Cause
  message : Text
  position : Position
  source : Text
  /-- How many characters the offending lexeme has. -/
  length : Nat
  length_pos : 0 < length := by decide
deriving DecidableEq, Repr

namespace LexError

/-- The name of a script that has no file. -/
def defaultFilename : Text := "input.gml"

/-- An error over `length` characters, and over one where that is less. -/
def spanning (cause : Cause) (message : Text) (position : Position) (source : Text)
    (length : Int) : LexError :=
  { cause, message, position, source, length := (max 1 length).toNat, length_pos := by omega }

/-- The line that the error is on, without the carriage returns that end it. It is empty
where the source has no such line. -/
def sourceLine (e : LexError) : Text :=
  if 0 < e.position.line then
    match e.source.lines[(e.position.line - 1).toNat]? with
    | some line => line.trimEnd '\r'
    | none => []
  else []

/-- The number of carets: the length of the lexeme as far as it lies on the line, and at
least one. -/
def underlineLength (e : LexError) : Nat :=
  let remaining := (e.sourceLine.length : Int) - e.position.column + 1
  (max 1 (min (e.length : Int) remaining)).toNat

/-- The number of blanks in front of the carets. A place before the line counts as its
first column. -/
def indent (e : LexError) : Nat := (max 1 e.position.column - 1).toNat

/-- The snippet: message, place, and the marked line between two lines of margin. -/
def format (e : LexError) (filename : Text) : Text :=
  let line := Decimal.ofInt e.position.line
  let column := max 1 e.position.column
  let gutter := Text.copies line.length ' '
  List.intercalate ['\n']
    [ "error: " ++ e.message,
      gutter ++ " --> " ++ filename ++ ':' :: line ++ ':' :: Decimal.ofInt column,
      gutter ++ " |",
      line ++ " | " ++ e.sourceLine,
      gutter ++ " | " ++ Text.copies e.indent ' ' ++
        Text.copies e.underlineLength '^' ]

end LexError

end ScriptLex
