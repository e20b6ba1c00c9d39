import ScriptLex.Command.Options
import ScriptLex.File.Tree
import ScriptLex.Lexer
import ScriptLex.Text.Newline
import ScriptLex.Token.Json
import ScriptLex.Token.Listing
import ScriptLex.Toml.Document

/-!
# Running the command

A run reads its command line, its configuration and its input, and writes the tokens. It
writes them only when all of this went well: a run that fails prints nothing but its error
and changes no file.
-/

namespace ScriptLex

namespace Command

/-- What stops a run without an exit code. -/
inductive Crash where
  | file (error : FileError)
  | undecodable (fault : Utf8.Fault)
  | integerTooLong (digits : Nat)
deriving DecidableEq, Repr

def Crash.message : Crash → Text
  | file error => error.message
  | undecodable fault => fault.message
  | integerTooLong digits =>
    "Exceeds the limit (" ++ Decimal.ofNat Decimal.digitLimit ++
      " digits) for integer string conversion: value has " ++ Decimal.ofNat digits ++
      " digits; use sys.set_int_max_str_digits() to increase the limit"

/-- Why no options can be made out. -/
inductive Refusal where
  | config (error : Config.Error)
  /-- The configuration is no TOML document. -/
  | malformed
  | crash (crash : Crash)
deriving DecidableEq, Repr

/-- The document in the bytes of a configuration file. -/
def document (bytes : List UInt8) : Except Refusal Toml.Table :=
  match Utf8.decode bytes with
  | .error fault => .error (.crash (.undecodable fault))
  | .ok t =>
    match Toml.parse t with
    | .ok table => .ok table
    | .error .malformed => .error .malformed
    | .error (.integerTooLong digits) => .error (.crash (.integerTooLong digits))

/-- The document of a configuration file, empty if there is no such file. -/
def loadConfig {m : Type → Type} [Monad m] (disk : Disk m) (p : Path) :
    m (Except Refusal Toml.Table) := do
  match ← disk.isFile p with
  | .error error => return .error (.crash (.file error))
  | .ok false => return .ok []
  | .ok true =>
    match ← disk.read p with
    | .error error => return .error (.crash (.file error))
    | .ok bytes => return document bytes

/-- The options of a run, its configuration included. -/
def resolve {m : Type → Type} [Monad m] (disk : Disk m) (arguments : Arguments) :
    m (Except Refusal Options) := do
  match ← loadConfig disk (Config.path arguments) with
  | .error refusal => return .error refusal
  | .ok table =>
    match Options.resolve arguments table with
    | .error error => return .error (.config error)
    | .ok options => return .ok options

/-- How a run ended. -/
inductive Ending where
  | exit (code : Nat)
  /-- The command line asked for no run: it was wrong, or wanted the help. -/
  | stopped (code : Nat)
  | crashed (crash : Crash)
deriving DecidableEq, Repr

/-- What a run leaves behind, apart from files. -/
structure Outcome where
  stdout : Text := []
  stderr : Text := []
  ending : Ending
deriving DecidableEq, Repr

/-- The script in the bytes of a file. -/
def script (bytes : List UInt8) : Except Utf8.Fault Text :=
  match Utf8.decode bytes with
  | .ok t => .ok t.unifyNewlines
  | .error fault => .error fault

/-- Writes a token stream in a format, in rows if the format is blank. -/
def render (format : FormatChoice) (tokens : List ValuedToken) : Text :=
  match format with
  | .named .text | .blank => Listing.rows tokens
  | .named .json => Listing.json tokens

/-- The line that reports an error. -/
def report (message : Text) : Text := "error: " ++ message ++ "\n"

/-- Puts the tokens where the options want them. -/
def deliver {m : Type → Type} [Monad m] (disk : Disk m) (options : Options)
    (tokens : List ValuedToken) : m Outcome := do
  let rendered := render options.format tokens
  let stderr := if options.debug then Listing.rows tokens else []
  match options.output with
  | none => return { stdout := rendered, stderr, ending := .exit 0 }
  | some p =>
    match ← disk.write p (Utf8.encode rendered) with
    | .ok () => return { stderr, ending := .exit 0 }
    | .error error => return { stderr, ending := .crashed (.file error) }

/-- The run behind resolved options. -/
def runWith {m : Type → Type} [Monad m] (disk : Disk m) (options : Options) : m Outcome := do
  match ← disk.read options.input with
  | .error (.system fault p) =>
    return { stderr := report (FileError.system fault p).message, ending := .exit 2 }
  | .error error => return { ending := .crashed (.file error) }
  | .ok bytes =>
    match script bytes with
    | .error fault => return { ending := .crashed (.undecodable fault) }
    | .ok source =>
      match tokenize options.mode source with
      | .error e =>
        return { stderr := e.format options.input.text ++ "\n", ending := .exit 1 }
      | .ok tokens => deliver disk options tokens

/-- What is said where the text of a syntax error belongs. -/
def malformedConfig : Text := "<toml>"

/-- A whole run. -/
def run {m : Type → Type} [Monad m] (disk : Disk m) (commandLine : List Text) : m Outcome := do
  match Usage.read commandLine with
  | .error e => return { stderr := e.report, ending := .stopped 2 }
  | .ok .help => return { stdout := Usage.help, ending := .stopped 0 }
  | .ok (.lex arguments) =>
    match ← resolve disk arguments with
    | .error (.config error) => return { stderr := report error.message, ending := .exit 2 }
    | .error .malformed => return { stderr := report malformedConfig, ending := .exit 2 }
    | .error (.crash crash) => return { ending := .crashed crash }
    | .ok options => runWith disk options

end Command

end ScriptLex
