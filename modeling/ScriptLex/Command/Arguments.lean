import ScriptLex.Command.Usage
import ScriptLex.Text.Numeral

/-!
# Reading a command line

Each argument is first taken for what it looks like: an option with or without a value
attached, an option that does not exist, the separator `--`, or a plain argument. Options
then take their values from the plain arguments behind them, the first plain argument left
is the input, and all others are too many.
-/

namespace ScriptLex

/-- What a command line asks for. -/
structure Arguments where
  input : Text
  output : Option Text
  format : Option FormatChoice
  lenientStrings : Bool
  config : Option Text
  debug : Bool
deriving DecidableEq, Repr

/-- A command line asks for the help or for a run. -/
inductive Invocation where
  | help
  | lex (arguments : Arguments)
deriving DecidableEq, Repr

namespace Usage

/-- What is written behind an option in the same argument. -/
inductive Attached where
  | nothing
  /-- Behind a short option, where further short options may stand. -/
  | joined (t : Text)
  /-- Behind an equals sign, where only a value may stand. -/
  | assigned (t : Text)
deriving DecidableEq, Repr

/-- Text behind an equals sign counts as joined to a short option unless it is empty. -/
def Attached.behind : Text → Attached → Attached
  | '-' :: '-' :: _, attached => attached
  | _, .assigned (c :: t) => .joined (c :: t)
  | _, attached => attached

/-- What an argument looks like. -/
inductive Item where
  | plain (t : Text)
  | separator
  | option (o : Opt) (attached : Attached)
  /-- It looks like an option, but there is no such option. -/
  | unknown (t : Text)
deriving DecidableEq, Repr

/-- The parts of an argument before and behind its first equals sign. -/
def splitAssigned (t : Text) : Text × Attached :=
  match t.dropWhile (· ≠ '=') with
  | [] => (t, .nothing)
  | _ :: value => (t.takeWhile (· ≠ '='), .assigned value)

/-- An argument with a leading minus sign that spells no option. Numerals are plain, and
so is everything with a blank in it. -/
def unspelled (t : Text) : Item :=
  if Text.isNegativeNumeral t ∨ ' ' ∈ t then .plain t else .unknown t

/-- An argument with two leading minus signs, which may abbreviate an option. -/
def classifyLong (t : Text) : Except Error Item :=
  let (start, attached) := splitAssigned t
  match spellings.filter fun (spelling, _) => start.isPrefixOf spelling with
  | [] => .ok (unspelled t)
  | [(_, o)] => .ok (.option o attached)
  | candidates => .error (.ambiguous t (candidates.map Prod.fst))

/-- An argument with one leading minus sign, which may be a short option with text joined
to it. -/
def classifyShort (c : Char) (joined : Text) : Item :=
  match spellings.lookup ['-', c] with
  | some o => .option o (.joined joined)
  | none => unspelled ('-' :: c :: joined)

def classify (t : Text) : Except Error Item :=
  match spellings.lookup t with
  | some o => .ok (.option o .nothing)
  | none =>
    let (start, attached) := splitAssigned t
    match t, spellings.lookup start with
    | '-' :: _, some o => .ok (.option o (attached.behind start))
    | '-' :: '-' :: _, none => classifyLong t
    | '-' :: c :: joined, none => .ok (classifyShort c joined)
    | _, _ => .ok (.plain t)

/-- All arguments behind the first separator are plain. -/
def classifyAll : List Text → Except Error (List Item)
  | [] => .ok []
  | t :: ts =>
    if t = "--" then .ok (.separator :: ts.map .plain)
    else
      match classify t with
      | .error e => .error e
      | .ok item =>
        match classifyAll ts with
        | .error e => .error e
        | .ok items => .ok (item :: items)

/-- An option as it is used. A parameter without a value is blank. -/
inductive Assignment where
  | switch (s : Switch)
  | parameter (p : Parameter) (value : Option Text)
deriving DecidableEq, Repr

/-- A value in the same argument as its parameter. The separator is no value: in its place
the parameter is blank. -/
def attachedValue (t : Text) : Option Text := if t = "--" then none else some t

/-- What one argument sets. -/
structure Taken where
  assignments : List Assignment := []
  /-- A parameter that takes the next argument for its value. -/
  pending : Option Parameter := none
deriving DecidableEq, Repr

/-- An option alone. -/
def Opt.alone : Opt → Taken
  | .switch s => { assignments := [.switch s] }
  | .parameter p => { pending := some p }

/-- An option with a value behind an equals sign. -/
def Opt.assigned : Opt → Text → Except Error Taken
  | .switch s, value => .error (.ignoredValue s value)
  | .parameter p, value => .ok { assignments := [.parameter p (attachedValue value)] }

/-- A short option with text joined to it: its value, or further short options. -/
def Opt.joined (o : Opt) : Text → Except Error Taken
  | [] => .ok o.alone
  | c :: t =>
    match o with
    | .parameter p => .ok { assignments := [.parameter p (attachedValue (c :: t))] }
    | .switch s =>
      match spellings.lookup ['-', c] with
      | none => .error (.ignoredValue s (c :: t))
      | some next =>
        match next.joined t with
        | .error e => .error e
        | .ok taken => .ok { taken with assignments := .switch s :: taken.assignments }

def Opt.take (o : Opt) : Attached → Except Error Taken
  | .nothing => .ok o.alone
  | .joined t => o.joined t
  | .assigned t => o.assigned t

/-- What has been read of a command line. -/
structure Draft where
  input : Option Text := none
  output : Option Text := none
  format : Option FormatChoice := none
  lenientStrings : Bool := false
  config : Option Text := none
  debug : Bool := false
  /-- Arguments that nothing takes. -/
  extra : List Text := []
deriving DecidableEq, Repr

namespace Draft

/-- Uses the options in order, the last use of an option counting. There is no draft any
more once the help is asked for. -/
def assign (d : Draft) : List Assignment → Except Error (Option Draft)
  | [] => .ok (some d)
  | .switch .help :: _ => .ok none
  | .switch .lenientStrings :: rest => { d with lenientStrings := true }.assign rest
  | .switch .debug :: rest => { d with debug := true }.assign rest
  | .parameter .output value :: rest => { d with output := value }.assign rest
  | .parameter .config value :: rest => { d with config := value }.assign rest
  | .parameter .format none :: rest => { d with format := some .blank }.assign rest
  | .parameter .format (some value) :: rest =>
    match Format.ofName? value with
    | some format => { d with format := some (.named format) }.assign rest
    | none => .error (.invalidFormat value)

/-- The arguments, if there is an input and nothing is left over. -/
def finish (d : Draft) : Except Error Invocation :=
  match d.input, d.extra with
  | none, _ => .error .missingInput
  | some input, [] =>
    .ok (.lex
      { input, output := d.output, format := d.format, lenientStrings := d.lenientStrings,
        config := d.config, debug := d.debug })
  | some _, extra => .error (.unrecognized extra)

/-- Reads the items in order. The separator is dropped next to the input and is left over
elsewhere. -/
def read (d : Draft) : List Item → Except Error Invocation
  | [] => d.finish
  | .unknown t :: rest => { d with extra := d.extra ++ [t] }.read rest
  | .plain t :: rest =>
    match d.input, rest with
    | some _, rest => { d with extra := d.extra ++ [t] }.read rest
    | none, .separator :: rest => { d with input := some t }.read rest
    | none, rest => { d with input := some t }.read rest
  | .separator :: rest =>
    match d.input, rest with
    | none, .plain t :: rest => { d with input := some t }.read rest
    | _, rest => { d with extra := d.extra ++ [("--" : Text)] }.read rest
  | .option o attached :: rest =>
    match o.take attached with
    | .error e => .error e
    | .ok taken =>
      match taken.pending, rest with
      | none, rest =>
        match d.assign taken.assignments with
        | .error e => .error e
        | .ok none => .ok .help
        | .ok (some d) => d.read rest
      | some p, .plain value :: rest =>
        match d.assign (taken.assignments ++ [.parameter p (some value)]) with
        | .error e => .error e
        | .ok none => .ok .help
        | .ok (some d) => d.read rest
      | some p, _ => .error (.expectedValue p)

end Draft

/-- Reads a command line. What the arguments look like is settled for all of them before
any of them is used. -/
def read (arguments : List Text) : Except Error Invocation :=
  match classifyAll arguments with
  | .error e => .error e
  | .ok items => ({} : Draft).read items

end Usage

end ScriptLex
