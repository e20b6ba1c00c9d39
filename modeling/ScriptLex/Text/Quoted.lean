import ScriptLex.Text.Hex
import ScriptLex.Text.Printable

/-!
# Quoted text

A text in quotes, on one line and in printable characters only: what a row of a token
listing and an error message show of a value. A quoted text has one reading, because the
delimiter, the backslash and every unprintable character are escaped.
-/

namespace ScriptLex.Quoted

def apostrophe : Char := '\x27'

def doubleQuote : Char := '\x22'

/-- Apostrophes delimit, except around a text that holds an apostrophe and no double
quote: there nothing has to be escaped between double quotes. -/
def delimiter (t : Text) : Char :=
  if apostrophe ∈ t ∧ doubleQuote ∉ t then doubleQuote else apostrophe

/-- An unprintable character by its code: two, four or eight hexadecimal digits, whichever
are enough. -/
def codeEscape (c : Char) : Text :=
  if c.toNat ≤ 0xff then '\\' :: 'x' :: Hex.fixed 2 c.toNat
  else if c.toNat ≤ 0xffff then '\\' :: 'u' :: Hex.fixed 4 c.toNat
  else '\\' :: 'U' :: Hex.fixed 8 c.toNat

/-- One character as it stands between the delimiters. -/
def escape (delim c : Char) : Text :=
  if c = delim ∨ c = '\\' then ['\\', c]
  else if c = '\n' then ['\\', 'n']
  else if c = '\r' then ['\\', 'r']
  else if c = '\t' then ['\\', 't']
  else if Text.isPrintable c then [c]
  else codeEscape c

/-- The text between delimiters, escaped. -/
def quote (t : Text) : Text :=
  let delim := delimiter t
  delim :: t.flatMap (escape delim) ++ [delim]

end ScriptLex.Quoted
