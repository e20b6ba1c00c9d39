import ScriptLex.Text.Basic

/-!
# Character classes

The classes that decide how a script is cut. All of them are classes of ASCII characters:
a letter outside ASCII is no letter here, and a digit outside ASCII no digit.
-/

namespace ScriptLex

/-- Blanks separate lexemes and are skipped. A line feed is a token and no blank. -/
def isBlank (c : Char) : Bool := c = ' ' || c = '\t'

def isDigit (c : Char) : Bool := '0' ≤ c && c ≤ '9'

def isLetter (c : Char) : Bool := ('a' ≤ c && c ≤ 'z') || ('A' ≤ c && c ≤ 'Z')

def isAlphanumeric (c : Char) : Bool := isDigit c || isLetter c

/-- The characters of a number after its first digit. -/
def isNumeral (c : Char) : Bool := isDigit c || c = '.'

def isWordStart (c : Char) : Bool := isLetter c || c = '_'

def isWordChar (c : Char) : Bool := isAlphanumeric c || c = '_'

/-- The classes by name. -/
inductive CharClass where
  | blank
  | lineEnd
  | digit
  | letter
  | alphanumeric
  | numeral
  | wordStart
  | wordChar
deriving DecidableEq, Repr

namespace CharClass

def all : List CharClass :=
  [blank, lineEnd, digit, letter, alphanumeric, numeral, wordStart, wordChar]

def contains : CharClass → Char → Bool
  | blank, c => isBlank c
  | lineEnd, c => c = '\n'
  | digit, c => isDigit c
  | letter, c => isLetter c
  | alphanumeric, c => isAlphanumeric c
  | numeral, c => isNumeral c
  | wordStart, c => isWordStart c
  | wordChar, c => isWordChar c

/-- Whether what was read belongs to the class. Nothing is read at the end of the input,
which ends a line too; more than one character belongs to no class. -/
def accepts (cls : CharClass) : Text → Bool
  | [] => cls = lineEnd
  | [c] => cls.contains c
  | _ => false

end CharClass

end ScriptLex
