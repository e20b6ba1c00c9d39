import ScriptLex.Text.Basic

/-!
# Token kinds

Every kind of token with its name. The order of the kinds is part of their meaning: a
kind's number is its place in it, counted from one.
-/

namespace ScriptLex

inductive Kind where
  | lineFeed
  | endOfInput
  | realLiteral
  | stringLiteral
  | identifier
  | notEqual
  | inferior
  | inferiorEqual
  | superior
  | superiorEqual
  | doubleEqual
  | equal
  | braceLeft
  | braceRight
  | parenLeft
  | parenRight
  | dot
  | comma
  | semicolon
  | logicAnd
  | logicOr
  | logicXor
  | accessorArrayRef
  | accessorList
  | accessorMap
  | accessorGrid
  | accessorArrayValue
  | accessorRight
  | increment
  | decrement
  | assignAdd
  | assignSubtract
  | assignMultiply
  | assignDivide
  | assignAnd
  | assignOr
  | assignXor
  | assignShiftLeft
  | assignShiftRight
  | plus
  | minus
  | multiply
  | divide
  | euclDivide
  | euclModulo
  | bitAnd
  | bitOr
  | bitXor
  | ifWord
  | elseIfWords
  | elseWord
  | forWord
  | whileWord
  | doWord
  | repeatWord
  | withWord
  | varWord
deriving DecidableEq, Repr

namespace Kind

/-- All kinds, in order. -/
def all : List Kind :=
  [lineFeed, endOfInput, realLiteral, stringLiteral, identifier, notEqual, inferior,
   inferiorEqual, superior, superiorEqual, doubleEqual, equal, braceLeft, braceRight, parenLeft,
   parenRight, dot, comma, semicolon, logicAnd, logicOr, logicXor, accessorArrayRef,
   accessorList, accessorMap, accessorGrid, accessorArrayValue, accessorRight, increment,
   decrement, assignAdd, assignSubtract, assignMultiply, assignDivide, assignAnd, assignOr,
   assignXor, assignShiftLeft, assignShiftRight, plus, minus, multiply, divide, euclDivide,
   euclModulo, bitAnd, bitOr, bitXor, ifWord, elseIfWords, elseWord, forWord, whileWord, doWord,
   repeatWord, withWord, varWord]

def name : Kind → Text
  | lineFeed => "LINE_FEED"
  | endOfInput => "END"
  | realLiteral => "REAL_LITERAL"
  | stringLiteral => "STRING_LITERAL"
  | identifier => "IDENTIFIER"
  | notEqual => "NOT_EQUAL"
  | inferior => "INFERIOR"
  | inferiorEqual => "INFERIOR_EQUAL"
  | superior => "SUPERIOR"
  | superiorEqual => "SUPERIOR_EQUAL"
  | doubleEqual => "DOUBLE_EQUAL"
  | equal => "EQUAL"
  | braceLeft => "BRACE_LEFT"
  | braceRight => "BRACE_RIGHT"
  | parenLeft => "PAREN_LEFT"
  | parenRight => "PAREN_RIGHT"
  | dot => "DOT"
  | comma => "COMMA"
  | semicolon => "SEMICOLON"
  | logicAnd => "LOGIC_AND"
  | logicOr => "LOGIC_OR"
  | logicXor => "LOGIC_XOR"
  | accessorArrayRef => "ACCESSOR_ARRAY_REF"
  | accessorList => "ACCESSOR_LIST"
  | accessorMap => "ACCESSOR_MAP"
  | accessorGrid => "ACCESSOR_GRID"
  | accessorArrayValue => "ACCESSOR_ARRAY_VALUE"
  | accessorRight => "ACCESSOR_RIGHT"
  | increment => "INCREMENT"
  | decrement => "DECREMENT"
  | assignAdd => "ASSIGN_ADD"
  | assignSubtract => "ASSIGN_SUBTRACT"
  | assignMultiply => "ASSIGN_MULTIPLY"
  | assignDivide => "ASSIGN_DIVIDE"
  | assignAnd => "ASSIGN_AND"
  | assignOr => "ASSIGN_OR"
  | assignXor => "ASSIGN_XOR"
  | assignShiftLeft => "ASSIGN_SHIFT_LEFT"
  | assignShiftRight => "ASSIGN_SHIFT_RIGHT"
  | plus => "PLUS"
  | minus => "MINUS"
  | multiply => "MULTIPLY"
  | divide => "DIVIDE"
  | euclDivide => "EUCL_DIVIDE"
  | euclModulo => "EUCL_MODULO"
  | bitAnd => "BIT_AND"
  | bitOr => "BIT_OR"
  | bitXor => "BIT_XOR"
  | ifWord => "IF"
  | elseIfWords => "ELSE_IF"
  | elseWord => "ELSE"
  | forWord => "FOR"
  | whileWord => "WHILE"
  | doWord => "DO"
  | repeatWord => "REPEAT"
  | withWord => "WITH"
  | varWord => "VAR"

def ofName? (name : Text) : Option Kind := all.find? (·.name = name)

def number (k : Kind) : Nat := all.idxOf k + 1

/-- Tokens of these kinds come with a text: the literal's contents or the name. -/
def carriesValue : Kind → Bool
  | realLiteral | stringLiteral | identifier => true
  | _ => false

end Kind

end ScriptLex
