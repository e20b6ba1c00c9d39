import ScriptLex.Text.Newline
import ScriptLex.Toml.Scalar

/-!
# Reading TOML: values and documents

A document is a sequence of statements, one a line: a key with its value, the header of a
table, or the header of one more table of an array.
-/

namespace ScriptLex.Toml

namespace Reader

/-- Fails where there is nothing. -/
def ofOption {α : Type} : Option α → Reader α
  | some a => pure a
  | none => malformed

mutual

def value : (steps : Nat) → Reader Value
  | 0 => malformed
  | steps + 1 => do
    if ← accept (Text.copies 3 Quoted.doubleQuote) then return .string (← basicLines)
    if ← accept [Quoted.doubleQuote] then return .string (← basicString ((← get).length + 1))
    if ← accept (Text.copies 3 Quoted.apostrophe) then return .string (← literalLines)
    if ← accept [Quoted.apostrophe] then return .string (← literalString)
    if ← accept "true" then return .boolean true
    if ← accept "false" then return .boolean false
    if ← accept ['['] then
      arrayGap ((← get).length + 1)
      return .array (← items steps)
    if ← accept ['\x7b'] then
      skipBlanks
      if ← accept ['\x7d'] then return .table []
      return .table (Nodes.toTable (← pairs steps []))
    scalar

/-- The items of an array up to its end. A comma may stand behind the last one. -/
def items : (steps : Nat) → Reader (List Value)
  | 0 => malformed
  | steps + 1 => do
    if ← accept [']'] then return []
    let item ← value steps
    arrayGap ((← get).length + 1)
    if ← accept [']'] then return [item]
    expect [',']
    arrayGap ((← get).length + 1)
    return item :: (← items steps)

/-- The pairs of an inline table up to its end. No comma stands behind the last one. -/
def pairs : (steps : Nat) → Nodes → Reader Nodes
  | 0, _ => malformed
  | steps + 1, nodes => do
    let key ← key ((← get).length + 1)
    expect ['=']
    skipBlanks
    let v ← value steps
    let nodes ← ofOption (nodes.insert 0 key.path key.name v)
    skipBlanks
    if ← accept ['\x7d'] then return nodes
    expect [',']
    skipBlanks
    pairs steps nodes

end

end Reader

/-- A document as far as it has been read. -/
structure Draft where
  nodes : Nodes := []
  /-- The path of the last header. -/
  header : List Text := []
  /-- How many headers there have been. -/
  headers : Nat := 0

namespace Draft

open Reader

/-- A value takes at most two steps for each of its characters. -/
def stepsFor (t : Text) : Nat := 2 * t.length + 2

/-- A key with its value. -/
def pair (d : Draft) : Reader Draft := do
  let key ← key ((← get).length + 1)
  expect ['=']
  skipBlanks
  let v ← value (stepsFor (← get))
  let nodes ← ofOption (d.nodes.within d.header (Nodes.insert d.headers key.path key.name v))
  return { d with nodes }

/-- A header, behind its first bracket. -/
def openHeader (d : Draft) : Reader Draft := do
  let isArray ← accept ['[']
  skipBlanks
  let key ← key ((← get).length + 1)
  let change := if isArray then Nodes.appendTable key.name else Nodes.openTable key.name
  let nodes ← ofOption (d.nodes.within key.path change)
  expect (if isArray then [']', ']'] else [']'])
  return { nodes, header := key.path ++ [key.name], headers := d.headers + 1 }

/-- A statement that is not empty. -/
def statement (d : Draft) (c : Char) : Reader Draft := do
  if isBareKeyChar c ∨ c = Quoted.doubleQuote ∨ c = Quoted.apostrophe then d.pair
  else if ← accept ['['] then d.openHeader
  else if c = '#' then return d
  else malformed

def statements : (steps : Nat) → Draft → Reader Nodes
  | 0, _ => malformed
  | steps + 1, d => do
    skipBlanks
    match ← get with
    | [] => return d.nodes
    | '\n' :: rest =>
      set rest
      statements steps d
    | c :: _ =>
      let d ← d.statement c
      skipBlanks
      discard comment
      match ← get with
      | [] => return d.nodes
      | '\n' :: rest =>
        set rest
        statements steps d
      | _ => malformed

end Draft

/-- Reads a document. -/
def parse (t : Text) : Except Error Table :=
  let t := t.dropReturns
  match (Draft.statements (t.length + 1) {}).run t with
  | .ok (nodes, _) => .ok (Nodes.toTable nodes)
  | .error e => .error e

end ScriptLex.Toml
