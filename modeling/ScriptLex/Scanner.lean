import ScriptLex.CharClass
import ScriptLex.Cursor
import ScriptLex.StringLiteral
import ScriptLex.Symbol.Script
import ScriptLex.Text.Quoted

/-!
# Scanning

One token is read off a cursor: the blanks and comments before it, and then as many
characters as its form can take. Every loop here ends because each of its rounds reads;
nothing in it keeps a read from being made behind the end of the source, and a read that is
refused stops the scan.
-/

namespace ScriptLex

/-- How a script is cut into tokens. -/
structure Mode where
  /-- A string that is never closed ends the token stream and is no error. -/
  lenientStrings : Bool := false
  /-- The word `else` and an `if` behind blanks are one token. -/
  joinElseIf : Bool := true
deriving DecidableEq, Repr

/-- Why a scan gives nothing. -/
inductive Stop where
  /-- It read where the cursor refuses to. -/
  | refused (fault : Cursor.Fault)
  /-- The source is no script. -/
  | offends (e : LexError)
deriving DecidableEq, Repr

/-- What a scan comes to, and the cursor behind it. -/
abbrev Scanned (α : Type) := Except Stop α × Cursor

/-- Goes on from there, unless the scan has been stopped. -/
def Scanned.andThen {α β : Type} (s : Scanned α) (next : α → Cursor → Scanned β) : Scanned β :=
  match s with
  | (.ok a, c) => next a c
  | (.error stop, c) => (.error stop, c)

theorem Scanned.andThen_eq_ok {α β : Type} {s : Scanned α} {next : α → Cursor → Scanned β}
    {b : β} {d : Cursor} (h : s.andThen next = (.ok b, d)) :
    ∃ a c, s = (.ok a, c) ∧ next a c = (.ok b, d) := by
  obtain ⟨result, c⟩ := s
  cases result with
  | ok a => exact ⟨a, c, rfl, h⟩
  | error stop => cases h

namespace Cursor

/-! ## Single steps -/

/-- The character `ahead` places further on. There is none where there is no such place. -/
def glance (c : Cursor) (ahead : Nat) : Option Char :=
  match c.peek ahead with
  | .ok x => x
  | .error _ => none

theorem lt_of_any_glance {p : Char → Bool} {c : Cursor} {n : Nat}
    (h : (c.glance n).any p = true) : c.offset + n < c.source.length := by
  unfold glance peek at h
  split at h
  next hpeek =>
    split at hpeek
    next hless => exact hless
    next =>
      cases hpeek
      cases h
  next => cases h

/-- One read. -/
def consume (c : Cursor) : Scanned (Option Char) :=
  match c.read with
  | (.ok x, next) => (.ok x, next)
  | (.error fault, next) => (.error (.refused fault), next)

/-- Several reads. -/
def advance (c : Cursor) (n : Nat) : Scanned Unit :=
  match c.skip n with
  | (.ok (), next) => (.ok (), next)
  | (.error fault, next) => (.error (.refused fault), next)

/-! ## Loops -/

/-- Reads characters of one class, as long as the next one is of it, and gives them. -/
def readWhile (p : Char → Bool) (c : Cursor) : Scanned Text :=
  if (c.glance 0).any p then
    match _read : c.read with
    | (.ok x, next) =>
      (next.readWhile p).andThen fun text last => (.ok (x.toList ++ text), last)
    | (.error fault, next) => (.error (.refused fault), next)
  else (.ok [], c)
termination_by c.readsLeft
decreasing_by have := readsLeft_of_read _read; omega

/-- The first place from `n` on that shows no character of the class. -/
def placeAfter (p : Char → Bool) (c : Cursor) (n : Nat) : Nat :=
  if (c.glance n).any p then c.placeAfter p (n + 1) else n
termination_by (c.source.length - (c.offset + n)).toNat
decreasing_by
  rename_i hany
  have := lt_of_any_glance hany
  omega

/-- Reads up to the end of the block comment that starts at `start`. -/
def readBlock (start : Position) (c : Cursor) : Scanned Unit :=
  match _read : c.read with
  | (.error fault, next) => (.error (.refused fault), next)
  | (.ok none, next) =>
    (.error (.offends (.spanning .unterminatedComment "block comment reaches end of input" start
      c.source 2)), next)
  | (.ok (some ch), next) =>
    if ch = '*' ∧ next.glance 0 = some '/' then
      next.consume.andThen fun _ last => (.ok (), last)
    else next.readBlock start
termination_by c.readsLeft
decreasing_by have := readsLeft_of_read _read; omega

/-- Reads the body of a string up to its closing delimiter, and gives its value. There is
none if the source ends first. -/
def readBody (delim : Char) (c : Cursor) : Scanned (Option Text) :=
  match _read : c.read with
  | (.error fault, next) => (.error (.refused fault), next)
  | (.ok none, next) => (.ok none, next)
  | (.ok (some ch), next) =>
    if ch = delim then (.ok (some []), next)
    else if ch = '\\' then
      match _escape : next.read with
      | (.error fault, next) => (.error (.refused fault), next)
      | (.ok none, next) => (.ok none, next)
      | (.ok (some escaped), next) =>
        (next.readBody delim).andThen fun value last =>
          (.ok (value.map (StringLiteral.escaped delim escaped ++ ·)), last)
    else
      (next.readBody delim).andThen fun value last =>
        (.ok (value.map (StringLiteral.plain ch :: ·)), last)
termination_by c.readsLeft
decreasing_by
  all_goals have := readsLeft_of_read _read
  · have := readsLeft_of_read _escape
    omega
  · omega

/-! ## Forms of lexemes -/

/-- Consumes the comment that starts at `start`, a line comment without the line feed
behind it. -/
def skipComment (start : Position) (c : Cursor) : Scanned Unit :=
  c.consume.andThen fun _ c =>
    c.consume.andThen fun second c =>
      if second = some '/' then (c.readWhile (· ≠ '\n')).andThen fun _ c => (.ok (), c)
      else c.readBlock start

def scanString (mode : Mode) (start : Position) (delim : Char) (c : Cursor) :
    Scanned ValuedToken :=
  c.consume.andThen fun _ c =>
    (c.readBody delim).andThen fun value c =>
      match value with
      | some value => (.ok (.startingAt start .stringLiteral (some value)), c)
      | none =>
        if mode.lenientStrings then (.ok (.startingAt start .endOfInput none), c)
        else
          (.error (.offends (.spanning .unterminatedString "string literal reaches end of input"
            start c.source 1)), c)

def scanNumber (start : Position) (c : Cursor) : Scanned ValuedToken :=
  (c.readWhile isNumeral).andThen fun digits c =>
    (.ok (.startingAt start .realLiteral (some digits)), c)

/-- Consumes blanks and the word `if` behind them, if that is what stands there. The word has
to be whole, and at least one blank has to stand before it. -/
def takeTrailingIf (c : Cursor) : Scanned Bool :=
  let n := c.placeAfter isBlank 0
  if n = 0 ∨ c.glance n ≠ some 'i' ∨ c.glance (n + 1) ≠ some 'f' then (.ok false, c)
  else if (c.glance (n + 2)).any isWordChar then (.ok false, c)
  else (c.advance (n + 2)).andThen fun _ c => (.ok true, c)

def scanWord (mode : Mode) (start : Position) (c : Cursor) : Scanned ValuedToken :=
  (c.readWhile isWordChar).andThen fun word c =>
    match Keyword.kind? word with
    | none => (.ok (.startingAt start .identifier (some word)), c)
    | some kind =>
      if kind = .elseWord ∧ mode.joinElseIf then
        c.takeTrailingIf.andThen fun joined c =>
          (.ok (.startingAt start (if joined then .elseIfWords else kind) none), c)
      else (.ok (.startingAt start kind none), c)

/-- A symbol, the longest one; `ch` is the character that the cursor stands on. -/
def scanSymbol (start : Position) (ch : Char) (c : Cursor) : Scanned ValuedToken :=
  match SymbolTable.script.longestMatch? (c.window SymbolTable.lookahead) with
  | some symbol =>
    (c.advance symbol.pattern.length).andThen fun _ c =>
      (.ok (.startingAt start symbol.kind none), c)
  | none =>
    (.error (.offends (.spanning .unknownToken ("unknown token " ++ Quoted.quote [ch]) start
      c.source 1)), c)

/-- The token that starts with `ch`, which is no blank and starts no comment. -/
def scanLexeme (mode : Mode) (start : Position) (ch : Char) (c : Cursor) : Scanned ValuedToken :=
  if StringLiteral.isDelimiter ch then c.scanString mode start ch
  else if ch = '$' then
    (.error (.offends (.spanning .unsupportedFeature "hex color literals are not supported" start
      c.source (c.placeAfter isAlphanumeric 1))), c)
  else if isDigit ch then c.scanNumber start
  else if isWordStart ch then c.scanWord mode start
  else c.scanSymbol start ch

/-! ## One token -/

variable {c d : Cursor}

theorem readsLeft_of_consume {x : Option Char} (h : c.consume = (.ok x, d)) :
    d.readsLeft + 1 = c.readsLeft := by
  unfold consume at h
  split at h
  next x next hread =>
    obtain ⟨-, rfl⟩ := Prod.mk.inj h
    exact readsLeft_of_read hread
  next => cases h

theorem readsLeft_le_of_readWhile {p : Char → Bool} {text : Text}
    (h : c.readWhile p = (.ok text, d)) : d.readsLeft ≤ c.readsLeft := by
  fun_induction readWhile p c generalizing text with
  | case1 c _ x next hread ih =>
    obtain ⟨read, last, hrest, hlast⟩ := Scanned.andThen_eq_ok h
    obtain ⟨-, rfl⟩ := Prod.mk.inj hlast
    have := readsLeft_of_read hread
    have := ih hrest
    omega
  | case2 => cases h
  | case3 =>
    obtain ⟨-, rfl⟩ := Prod.mk.inj h
    exact Nat.le_refl _

theorem readsLeft_le_of_readBlock {start : Position} (h : c.readBlock start = (.ok (), d)) :
    d.readsLeft ≤ c.readsLeft := by
  fun_induction readBlock start c with
  | case1 => cases h
  | case2 => cases h
  | case3 c ch next hread hclose =>
    obtain ⟨x, last, hslash, hlast⟩ := Scanned.andThen_eq_ok h
    obtain ⟨-, rfl⟩ := Prod.mk.inj hlast
    have := readsLeft_of_read hread
    have := readsLeft_of_consume hslash
    omega
  | case4 c ch next hread _ ih =>
    have := readsLeft_of_read hread
    have := ih h
    omega

theorem readsLeft_lt_of_skipComment {start : Position}
    (h : c.skipComment start = (.ok (), d)) : d.readsLeft < c.readsLeft := by
  obtain ⟨first, c₁, hfirst, h⟩ := Scanned.andThen_eq_ok h
  obtain ⟨second, c₂, hsecond, h⟩ := Scanned.andThen_eq_ok h
  have := readsLeft_of_consume hfirst
  have := readsLeft_of_consume hsecond
  split at h
  next =>
    obtain ⟨text, last, hline, hlast⟩ := Scanned.andThen_eq_ok h
    obtain ⟨-, rfl⟩ := Prod.mk.inj hlast
    have := readsLeft_le_of_readWhile hline
    omega
  next =>
    have := readsLeft_le_of_readBlock h
    omega

/-- The next token. The blanks and comments before it are consumed, and so is the end of the
source, once. -/
def scanToken (mode : Mode) (c : Cursor) : Scanned ValuedToken :=
  match _blanks : c.readWhile isBlank with
  | (.error stop, c) => (.error stop, c)
  | (.ok _, c) =>
    let start := c.position
    if c.exhausted then (.ok (.startingAt start .endOfInput none), c)
    else
      match c.glance 0 with
      | none => c.consume.andThen fun _ c => (.ok (.startingAt start .endOfInput none), c)
      | some ch =>
        if ch = '/' ∧ (c.glance 1 = some '/' ∨ c.glance 1 = some '*') then
          match _comment : c.skipComment start with
          | (.error stop, c) => (.error stop, c)
          | (.ok (), c) => c.scanToken mode
        else c.scanLexeme mode start ch
termination_by c.readsLeft
decreasing_by
  have := readsLeft_le_of_readWhile _blanks
  have := readsLeft_lt_of_skipComment _comment
  omega

end Cursor

end ScriptLex
