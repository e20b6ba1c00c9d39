import ScriptLex.Text.Quoted

/-!
# The options of the command

What can be written on the command line, and what is said about it: the usage, the help and
the texts of usage errors.
-/

namespace ScriptLex

/-- How a token stream is written. -/
inductive Format where
  | text
  | json
deriving DecidableEq, Repr

namespace Format

def all : List Format := [text, json]

def name : Format → Text
  | text => "text"
  | json => "json"

def ofName? (name : Text) : Option Format := all.find? (·.name = name)

end Format

/-- A format as it is asked for: by its name, or with the place for the name left blank. -/
inductive FormatChoice where
  | named (format : Format)
  | blank
deriving DecidableEq, Repr

namespace Usage

/-- Options that stand alone. -/
inductive Switch where
  | help
  | lenientStrings
  | debug
deriving DecidableEq, Repr

/-- Options that take one value. -/
inductive Parameter where
  | output
  | format
  | config
deriving DecidableEq, Repr

inductive Opt where
  | switch (s : Switch)
  | parameter (p : Parameter)
deriving DecidableEq, Repr

/-- Every spelling of every option, in the order of the help. -/
def spellings : List (Text × Opt) :=
  [("-h", .switch .help), ("--help", .switch .help),
   ("-o", .parameter .output), ("--output", .parameter .output),
   ("-f", .parameter .format), ("--format", .parameter .format),
   ("--lenient-strings", .switch .lenientStrings),
   ("--config", .parameter .config),
   ("--debug", .switch .debug)]

/-- The spellings of one option, as errors name it. -/
def Opt.label (o : Opt) : Text :=
  List.intercalate ['/'] ((spellings.filter (·.2 = o)).map Prod.fst)

/-- The name under which the command speaks. -/
def program : Text := "gmsc-lex"

/-- What is wrong with a command line. -/
inductive Error where
  /-- An abbreviation of several options. -/
  | ambiguous (argument : Text) (candidates : List Text)
  | expectedValue (p : Parameter)
  /-- A value for an option that takes none. -/
  | ignoredValue (s : Switch) (value : Text)
  | invalidFormat (value : Text)
  | missingInput
  | unrecognized (arguments : List Text)
deriving DecidableEq, Repr

def Error.message : Error → Text
  | ambiguous argument candidates =>
    "ambiguous option: " ++ argument ++ " could match " ++ List.intercalate ", " candidates
  | expectedValue p => "argument " ++ Opt.label (.parameter p) ++ ": expected one argument"
  | ignoredValue s value =>
    "argument " ++ Opt.label (.switch s) ++ ": ignored explicit argument " ++ Quoted.quote value
  | invalidFormat value =>
    "argument " ++ Opt.label (.parameter .format) ++ ": invalid choice: " ++
      Quoted.quote value ++ " (choose from " ++
      List.intercalate ", " (Format.all.map fun f => Quoted.quote f.name) ++ ")"
  | missingInput => "the following arguments are required: input"
  | unrecognized arguments => "unrecognized arguments: " ++ List.intercalate [' '] arguments

/-- The synopsis, which precedes the help and every usage error. -/
def synopsis : Text :=
  "usage: gmsc-lex [-h] [-o OUTPUT] [-f \x7btext,json\x7d] [--lenient-strings]\n" ++
  "                [--config FILE] [--debug]\n" ++
  "                input\n"

def help : Text :=
  synopsis ++
  "\n" ++
  "Tokenize a GML-style script\n" ++
  "\n" ++
  "positional arguments:\n" ++
  "  input                 Input script file\n" ++
  "\n" ++
  "options:\n" ++
  "  -h, --help            show this help message and exit\n" ++
  "  -o OUTPUT, --output OUTPUT\n" ++
  "                        Output file (default: stdout)\n" ++
  "  -f \x7btext,json\x7d, --format \x7btext,json\x7d\n" ++
  "                        Output format (default: text)\n" ++
  "  --lenient-strings     End the token stream at an unterminated string instead\n" ++
  "                        of failing\n" ++
  "  --config FILE         Config file (default: auto-discover gmsc.toml)\n" ++
  "  --debug               Dump tokens to stderr\n"

/-- What is printed about a usage error. -/
def Error.report (e : Error) : Text := synopsis ++ program ++ ": error: " ++ e.message ++ "\n"

end Usage

end ScriptLex
