import ScriptLex.Symbol.Table

/-!
# The symbols and keywords of scripts
-/

namespace ScriptLex

/-- The symbols of a script, grouped by use. -/
def Symbol.script : List Symbol :=
  [⟨"\n", .lineFeed⟩,
   ⟨"!=", .notEqual⟩, ⟨"<>", .notEqual⟩, ⟨"<", .inferior⟩, ⟨"<=", .inferiorEqual⟩,
   ⟨">", .superior⟩, ⟨">=", .superiorEqual⟩,
   ⟨"\x7b", .braceLeft⟩, ⟨"\x7d", .braceRight⟩, ⟨"(", .parenLeft⟩, ⟨")", .parenRight⟩,
   ⟨".", .dot⟩, ⟨",", .comma⟩, ⟨";", .semicolon⟩,
   ⟨"&&", .logicAnd⟩, ⟨"||", .logicOr⟩, ⟨"^^", .logicXor⟩,
   ⟨"[@", .accessorArrayRef⟩, ⟨"[|", .accessorList⟩, ⟨"[?", .accessorMap⟩,
   ⟨"[#", .accessorGrid⟩, ⟨"[", .accessorArrayValue⟩, ⟨"]", .accessorRight⟩,
   ⟨"++", .increment⟩, ⟨"--", .decrement⟩,
   ⟨"+=", .assignAdd⟩, ⟨"-=", .assignSubtract⟩, ⟨"*=", .assignMultiply⟩,
   ⟨"/=", .assignDivide⟩, ⟨"&=", .assignAnd⟩, ⟨"|=", .assignOr⟩, ⟨"^=", .assignXor⟩,
   ⟨"<<=", .assignShiftLeft⟩, ⟨">>=", .assignShiftRight⟩,
   ⟨"==", .doubleEqual⟩, ⟨"=", .equal⟩,
   ⟨"+", .plus⟩, ⟨"-", .minus⟩, ⟨"*", .multiply⟩, ⟨"/", .divide⟩, ⟨"%", .euclModulo⟩,
   ⟨"&", .bitAnd⟩, ⟨"|", .bitOr⟩, ⟨"^", .bitXor⟩]

/-- The table of the script symbols. -/
def SymbolTable.script : SymbolTable := .ofDistinct Symbol.script

/-- The characters that a look at the next symbol takes in: more than any symbol has. -/
def SymbolTable.lookahead : Nat := 4

example : SymbolTable.refusal? Symbol.script = none := by decide +kernel

example : SymbolTable.script.maxLength < SymbolTable.lookahead := by decide +kernel

namespace Keyword

/-- The words that stand for kinds of their own, in order. -/
def table : List (Text × Kind) :=
  [("if", .ifWord), ("else", .elseWord), ("for", .forWord), ("while", .whileWord),
   ("do", .doWord), ("repeat", .repeatWord), ("with", .withWord), ("var", .varWord),
   ("div", .euclDivide), ("mod", .euclModulo)]

/-- The kind of a keyword; other words are names. -/
def kind? (word : Text) : Option Kind := table.lookup word

end Keyword

end ScriptLex
