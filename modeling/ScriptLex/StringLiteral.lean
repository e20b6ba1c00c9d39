import ScriptLex.Text.Basic

/-!
# String literals

A string literal stands between two equal delimiters, which may be apostrophes or double
quotes, and may run over several lines. In its body `#` denotes a line feed. A backslash
escapes the delimiter, `n` (a line feed) and `#` (itself); before any other character it
denotes itself, and that character is taken as it is.
-/

namespace ScriptLex.StringLiteral

def isDelimiter (c : Char) : Bool := c = '\x22' || c = '\x27'

/-- What a backslash and the character behind it denote. -/
def escaped (delim c : Char) : Text :=
  if c = delim then [delim]
  else if c = 'n' then ['\n']
  else if c = '#' then ['#']
  else ['\\', c]

/-- What an unescaped character denotes. -/
def plain (c : Char) : Char := if c = '#' then '\n' else c

end ScriptLex.StringLiteral
