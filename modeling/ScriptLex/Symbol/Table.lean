import ScriptLex.Text.Quoted
import ScriptLex.Token.Kind

/-!
# Symbol tables

A symbol is a fixed pattern with the kind of token it stands for. A table matches the
longest of its patterns that starts a text. It keeps its symbols longest first, so the
first pattern that fits is the longest one and the order in which the symbols were given
decides nothing.
-/

namespace ScriptLex

structure Symbol where
  pattern : Text
  kind : Kind
deriving DecidableEq, Repr

namespace Symbol

/-- The symbol's pattern starts the text. -/
def startsText (s : Symbol) (t : Text) : Bool := s.pattern.isPrefixOf t

/-- Puts a symbol in front of the first one that is not longer. -/
def insertByLength (s : Symbol) : List Symbol → List Symbol
  | [] => [s]
  | x :: xs =>
    if x.pattern.length ≤ s.pattern.length then s :: x :: xs else x :: insertByLength s xs

/-- Longest first; symbols of one length keep their order. -/
def longestFirst (symbols : List Symbol) : List Symbol :=
  symbols.foldr insertByLength []

/-- The first symbol, in the given order, whose pattern starts the text. -/
def firstMatch? (symbols : List Symbol) (t : Text) : Option Symbol :=
  symbols.find? (·.startsText t)

/-- The patterns among `earlier` that are shorter than `later` and start it. -/
def startersOf (later : Text) (earlier : List Symbol) : List Text :=
  (earlier.filter fun s =>
    s.pattern.length < later.length && s.startsText later).map Symbol.pattern

/-- Looks at each symbol in turn against those before it. -/
def shadowedAfter (before : List Symbol) : List Symbol → List (Text × Text)
  | [] => []
  | s :: rest =>
    (startersOf s.pattern before).map (·, s.pattern) ++ shadowedAfter (before ++ [s]) rest

/-- Pairs of an earlier pattern and a later, longer one that it starts. Where the first
fitting symbol is taken, the later one of such a pair never is. -/
def shadowed (symbols : List Symbol) : List (Text × Text) := shadowedAfter [] symbols

end Symbol

/-- Why a list of symbols is no table. -/
inductive SymbolTable.Refusal where
  | emptyPattern
  | duplicate (pattern : Text) (first second : Kind)
deriving DecidableEq, Repr

def SymbolTable.Refusal.message : SymbolTable.Refusal → Text
  | emptyPattern => "empty symbol pattern"
  | duplicate pattern first second =>
    "duplicate symbol pattern " ++ Quoted.quote pattern ++
      " (" ++ first.name ++ " and " ++ second.name ++ ")"

structure SymbolTable where
  /-- The symbols, longest first. -/
  symbols : List Symbol
deriving DecidableEq, Repr

namespace SymbolTable

/-- A table of symbols that are known to be distinct and not empty. -/
def ofDistinct (symbols : List Symbol) : SymbolTable := ⟨Symbol.longestFirst symbols⟩

/-- What is wrong with a list of symbols: its first symbol that is empty or has the
pattern of one before it. -/
def refusalAfter? (before : List Symbol) : List Symbol → Option Refusal
  | [] => none
  | s :: rest =>
    if s.pattern = [] then some .emptyPattern
    else
      match before.find? (·.pattern = s.pattern) with
      | some first => some (.duplicate s.pattern first.kind s.kind)
      | none => refusalAfter? (before ++ [s]) rest

def refusal? (symbols : List Symbol) : Option Refusal := refusalAfter? [] symbols

/-- The table of the symbols, whose patterns must be distinct and not empty. -/
def ofSymbols (symbols : List Symbol) : Except Refusal SymbolTable :=
  match refusal? symbols with
  | some refusal => .error refusal
  | none => .ok (ofDistinct symbols)

def size (table : SymbolTable) : Nat := table.symbols.length

/-- The length of the longest pattern, zero in a table without symbols. -/
def maxLength (table : SymbolTable) : Nat :=
  match table.symbols with
  | [] => 0
  | s :: _ => s.pattern.length

/-- The symbol with the longest pattern that starts the text. -/
def longestMatch? (table : SymbolTable) (t : Text) : Option Symbol :=
  Symbol.firstMatch? table.symbols t

end SymbolTable

end ScriptLex
