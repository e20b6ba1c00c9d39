import ScriptLex.Command.Arguments
import ScriptLex.File.Path
import ScriptLex.Scanner
import ScriptLex.Toml.Value

/-!
# Options

The options of a run come from three sources. The command line wins over the configuration,
and the configuration over the defaults. The configuration is checked first, also where the
command line would win.
-/

namespace ScriptLex

/-- The path that an argument names. The empty text names none. -/
def Path.named? : Option Text → Option Path
  | some (c :: t) => some (Path.ofText (c :: t))
  | _ => none

/-- What a configuration sets. -/
structure Config where
  lenientStrings : Option Bool := none
  format : Option Format := none
deriving DecidableEq, Repr

namespace Config

/-- A setting of the wrong shape. -/
inductive Error where
  | lenientStrings
  | format
deriving DecidableEq, Repr

def Error.message : Error → Text
  | lenientStrings => "[lexer] lenient_strings must be true or false"
  | format =>
    "[output] format must be one of " ++ List.intercalate ", " (Format.all.map Format.name)

/-- The value of a key in a table of the document. A document without that table, or with
something else in its place, has no value there. -/
def setting? (document : Toml.Table) (table key : Text) : Option Toml.Value :=
  (document.table? table).bind (·.get? key)

/-- Whether strings are lenient, if the document says so. -/
def lenientStringsOf (document : Toml.Table) : Except Error (Option Bool) :=
  match setting? document "lexer" "lenient_strings" with
  | none => .ok none
  | some (.boolean b) => .ok (some b)
  | some _ => .error .lenientStrings

/-- The format, if the document names one. -/
def formatOf (document : Toml.Table) : Except Error (Option Format) :=
  match setting? document "output" "format" with
  | none => .ok none
  | some (.string name) =>
    match Format.ofName? name with
    | some format => .ok (some format)
    | none => .error .format
  | some _ => .error .format

/-- What a document sets; all else in it is ignored. -/
def ofDocument (document : Toml.Table) : Except Error Config :=
  match lenientStringsOf document with
  | .error e => .error e
  | .ok lenientStrings =>
    match formatOf document with
    | .error e => .error e
    | .ok format => .ok { lenientStrings, format }

/-- The name of the configuration file that is looked for. -/
def defaultName : Text := "gmsc.toml"

/-- The configuration file of a run: the one that the command line names, otherwise the one
beside the input. -/
def path (arguments : Arguments) : Path :=
  (Path.named? arguments.config).getD ((Path.ofText arguments.input).parent.child defaultName)

end Config

/-- The settings of one run. -/
structure Options where
  input : Path
  /-- The file that the tokens are written to, if they are not printed. -/
  output : Option Path
  format : FormatChoice
  lenientStrings : Bool
  debug : Bool
deriving DecidableEq, Repr

namespace Options

/-- The command line first, then the configuration, then the defaults. -/
def merge (arguments : Arguments) (config : Config) : Options where
  input := Path.ofText arguments.input
  output := Path.named? arguments.output
  format := arguments.format.getD (.named (config.format.getD .text))
  lenientStrings := arguments.lenientStrings || config.lenientStrings.getD false
  debug := arguments.debug

/-- The options of a run with this configuration document. -/
def resolve (arguments : Arguments) (document : Toml.Table) : Except Config.Error Options :=
  match Config.ofDocument document with
  | .error e => .error e
  | .ok config => .ok (merge arguments config)

/-- How the run cuts its input. -/
def mode (options : Options) : Mode := { lenientStrings := options.lenientStrings }

end Options

end ScriptLex
