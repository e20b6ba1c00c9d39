import ScriptLex.CharClass
import ScriptLex.Text.Hex
import ScriptLex.Text.Quoted
import ScriptLex.Toml.Tree

/-!
# Reading TOML: strings, keys and comments

A reader takes what it reads off the text. Readers that repeat themselves are given a
number of steps; every step takes a character at least, so the length of the text is
always enough.
-/

namespace ScriptLex.Toml

/-- Why a document cannot be read. -/
inductive Error where
  | malformed
  /-- A decimal integer with more digits than are converted. -/
  | integerTooLong (digits : Nat)
deriving DecidableEq, Repr

abbrev Reader := StateT Text (Except Error)

namespace Reader

def malformed {α : Type} : Reader α := throw .malformed

def skipWhile (p : Char → Bool) : Reader Unit := modify (·.dropWhile p)

def takeWhile (p : Char → Bool) : Reader Text := do
  let t ← get
  set (t.dropWhile p)
  return t.takeWhile p

/-- Takes `t` off, if the text starts with it. -/
def accept (t : Text) : Reader Bool := do
  let rest ← get
  if t.isPrefixOf rest then
    set (rest.drop t.length)
    return true
  else return false

def expect (t : Text) : Reader Unit := do
  unless ← accept t do malformed

def skipBlanks : Reader Unit := skipWhile isBlank

def isBlankOrNewline (c : Char) : Bool := isBlank c || c = '\n'

/-- Control characters other than the tab stand neither in strings nor in comments. -/
def isControl (c : Char) : Bool := (c.toNat < 0x20 || c.toNat = 0x7f) && c ≠ '\t'

/-- A comment up to the end of its line, if there is one. -/
def comment : Reader Bool := do
  if ← accept ['#'] then
    if (← takeWhile (· ≠ '\n')).any isControl then malformed
    return true
  else return false

/-- Blanks, line feeds and comments between the items of an array. -/
def arrayGap : (steps : Nat) → Reader Unit
  | 0 => malformed
  | steps + 1 => do
    skipWhile isBlankOrNewline
    if ← comment then arrayGap steps

/-! ## Strings -/

/-- Two more delimiters may stand before the three that end a string of several lines. -/
def extraDelimiters (delim : Char) : Reader Text := do
  if ← accept [delim, delim] then return [delim, delim]
  else if ← accept [delim] then return [delim]
  else return []

/-- A string between apostrophes, behind the first of them. -/
def literalString : Reader Text := do
  let body ← takeWhile (· ≠ Quoted.apostrophe)
  expect [Quoted.apostrophe]
  if body.any isControl then malformed
  return body

/-- The text before the first `mark`, which is taken off too. -/
def upTo (mark : Text) : (steps : Nat) → Reader Text
  | 0 => malformed
  | steps + 1 => do
    if ← accept mark then return []
    match ← get with
    | [] => malformed
    | c :: rest =>
      set rest
      return c :: (← upTo mark steps)

/-- A string between triple apostrophes, behind the first three. A line feed right there
is dropped. -/
def literalLines : Reader Text := do
  discard (accept ['\n'])
  let body ← upTo (Text.copies 3 Quoted.apostrophe) ((← get).length + 1)
  if body.any fun c => isControl c && c ≠ '\n' then malformed
  return body ++ (← extraDelimiters Quoted.apostrophe)

/-- A character by its code in hexadecimal digits. -/
def hexCharacter (width : Nat) : Reader Char := do
  let t ← get
  let digits := t.take width
  if digits.length < width then malformed
  set (t.drop width)
  match Hex.read? digits with
  | some code => if code.isValidChar then return Char.ofNat code else malformed
  | none => malformed

/-- What a backslash stands for, which has been taken off. In a string of several lines it
takes away the rest of a blank line and all blank lines after it. -/
def escape (severalLines : Bool) : Reader Text := do
  match ← get with
  | [] => malformed
  | c :: rest =>
    set rest
    if severalLines && isBlankOrNewline c then
      if c ≠ '\n' then
        skipBlanks
        expect ['\n']
      skipWhile isBlankOrNewline
      return []
    match c with
    | 'b' => return ['\x08']
    | 't' => return ['\t']
    | 'n' => return ['\n']
    | 'f' => return ['\x0c']
    | 'r' => return ['\r']
    | '\x22' => return ['\x22']
    | '\\' => return ['\\']
    | 'u' => return [← hexCharacter 4]
    | 'U' => return [← hexCharacter 8]
    | _ => malformed

/-- A string between double quotes, behind the first of them. -/
def basicString : (steps : Nat) → Reader Text
  | 0 => malformed
  | steps + 1 => do
    match ← get with
    | [] => malformed
    | c :: rest =>
      set rest
      if c = Quoted.doubleQuote then return []
      else if c = '\\' then return (← escape false) ++ (← basicString steps)
      else if isControl c then malformed
      else return c :: (← basicString steps)

/-- The lines of a string between triple double quotes, up to the three that end it. -/
def basicLinesBody : (steps : Nat) → Reader Text
  | 0 => malformed
  | steps + 1 => do
    if ← accept (Text.copies 3 Quoted.doubleQuote) then return []
    match ← get with
    | [] => malformed
    | c :: rest =>
      set rest
      if c = '\\' then return (← escape true) ++ (← basicLinesBody steps)
      else if isControl c && c ≠ '\n' then malformed
      else return c :: (← basicLinesBody steps)

/-- A string between triple double quotes, behind the first three. A line feed right there
is dropped. -/
def basicLines : Reader Text := do
  discard (accept ['\n'])
  let body ← basicLinesBody ((← get).length + 1)
  return body ++ (← extraDelimiters Quoted.doubleQuote)

/-! ## Keys -/

def isBareKeyChar (c : Char) : Bool := isAlphanumeric c || c = '-' || c = '_'

/-- One name of a key, bare or quoted on one line. -/
def keyName : Reader Text := do
  if ← accept [Quoted.apostrophe] then literalString
  else if ← accept [Quoted.doubleQuote] then basicString ((← get).length + 1)
  else
    let name ← takeWhile isBareKeyChar
    if name.isEmpty then malformed
    return name

/-- A dotted key with the blanks behind it. -/
def key : (steps : Nat) → Reader Key
  | 0 => malformed
  | steps + 1 => do
    let name ← keyName
    skipBlanks
    if ← accept ['.'] then
      skipBlanks
      let rest ← key steps
      return ⟨name :: rest.path, rest.name⟩
    else return ⟨[], name⟩

end Reader

end ScriptLex.Toml
