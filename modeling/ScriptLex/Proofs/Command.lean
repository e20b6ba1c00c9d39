import ScriptLex.Command.Run
import ScriptLex.Proofs.FileTree

/-!
# Runs of the command

A run on a tree of files takes one of a few courses. All of them but one leave the tree as it
is, and that one ends with a single write of all that the run has to say. So a run delivers its
tokens completely or delivers nothing.
-/

namespace ScriptLex.Command

variable {tree : FileTree} {commandLine : List Text} {arguments : Arguments} {options : Options}

/-! ## Options -/

/-- The options that a run with these arguments has on a tree. -/
def optionsIn (tree : FileTree) (arguments : Arguments) : Except Refusal Options :=
  ((resolve FileTree.disk arguments).run tree).1

/-- The options that come of a configuration. -/
def optionsOf (arguments : Arguments) : Except Refusal Toml.Table → Except Refusal Options
  | .error refusal => .error refusal
  | .ok table =>
    match Options.resolve arguments table with
    | .error error => .error (.config error)
    | .ok options => .ok options

/-- The configuration is read and nothing is written. -/
theorem loadConfig_run (tree : FileTree) (p : Path) :
    ∃ result, (loadConfig FileTree.disk p).run tree = (result, tree) := by
  rw [loadConfig, FileTree.disk_isFile_bind]
  cases tree.isFile p with
  | error error => exact ⟨_, rfl⟩
  | ok isFile =>
      cases isFile with
      | false => exact ⟨_, rfl⟩
      | true =>
          dsimp only
          rw [FileTree.disk_read_bind]
          cases tree.read p with
          | error error => exact ⟨_, rfl⟩
          | ok bytes => exact ⟨_, rfl⟩

theorem resolve_run_of_config {result : Except Refusal Toml.Table}
    (h : (loadConfig FileTree.disk (Config.path arguments)).run tree = (result, tree)) :
    (resolve FileTree.disk arguments).run tree = (optionsOf arguments result, tree) := by
  rw [resolve, StateT.run_bind, h]
  cases result with
  | error refusal => rfl
  | ok table =>
      dsimp only [bind, optionsOf]
      cases Options.resolve arguments table with
      | error error => rfl
      | ok options => rfl

theorem resolve_run (tree : FileTree) (arguments : Arguments) :
    (resolve FileTree.disk arguments).run tree = (optionsIn tree arguments, tree) := by
  obtain ⟨result, hconfig⟩ := loadConfig_run tree (Config.path arguments)
  rw [optionsIn, resolve_run_of_config hconfig]

/-- Files and dump of a run are those of its command line. -/
theorem paths_of_optionsIn (h : optionsIn tree arguments = .ok options) :
    options.input = Path.ofText arguments.input ∧
      options.output = Path.named? arguments.output ∧ options.debug = arguments.debug := by
  obtain ⟨result, hconfig⟩ := loadConfig_run tree (Config.path arguments)
  rw [optionsIn, resolve_run_of_config hconfig] at h
  cases result with
  | error refusal => cases h
  | ok table =>
      dsimp only [optionsOf, Options.resolve] at h
      cases hconfig : Config.ofDocument table with
      | error error =>
          rw [hconfig] at h
          cases h
      | ok config =>
          rw [hconfig] at h
          cases h
          exact ⟨rfl, rfl, rfl⟩

/-- Whether the tokens are dumped has no bearing on the other options. -/
theorem optionsIn_debug (tree : FileTree) (arguments : Arguments) (debug : Bool) :
    optionsIn tree { arguments with debug } =
      (optionsIn tree arguments).map fun options => { options with debug } := by
  obtain ⟨result, hconfig⟩ := loadConfig_run tree (Config.path arguments)
  -- the configuration is looked for in the same place
  have hconfig' : (loadConfig FileTree.disk (Config.path { arguments with debug })).run tree =
      (result, tree) := hconfig
  rw [optionsIn, optionsIn, resolve_run_of_config hconfig, resolve_run_of_config hconfig']
  cases result with
  | error refusal => rfl
  | ok table =>
      dsimp only [optionsOf, Options.resolve]
      cases Config.ofDocument table with
      | error error => rfl
      | ok config => rfl

/-! ## Behind the options -/

/-- What comes of lexing the input of a run with these options, if there is a script in it. -/
def Lexed (tree : FileTree) (options : Options) (result : Except LexError (List ValuedToken)) :
    Prop :=
  ∃ bytes source, tree.read options.input = .ok bytes ∧ script bytes = .ok source ∧
    tokenize options.mode source = result

/-- An input is lexed in one way. -/
theorem Lexed.unique {result other : Except LexError (List ValuedToken)}
    (h : Lexed tree options result) (h' : Lexed tree options other) : result = other := by
  obtain ⟨bytes, source, hread, hscript, rfl⟩ := h
  obtain ⟨bytes', source', hread', hscript', rfl⟩ := h'
  obtain rfl := Except.ok.inj (hread.symm.trans hread')
  obtain rfl := Except.ok.inj (hscript.symm.trans hscript')
  rfl

/-- What a run with these options dumps of the tokens. -/
def dump (options : Options) (tokens : List ValuedToken) : Text :=
  if options.debug then Listing.rows tokens else []

/-- The courses of a run behind its options. -/
inductive InputCourse (tree : FileTree) (options : Options) : Outcome → FileTree → Prop
  | unread {fault : FileFault} {p : Path}
      (hread : tree.read options.input = .error (.system fault p)) :
      InputCourse tree options
        { stderr := report (FileError.system fault p).message, ending := .exit 2 } tree
  | unnamable (hread : tree.read options.input = .error .embeddedNull) :
      InputCourse tree options { ending := .crashed (.file .embeddedNull) } tree
  | undecoded {bytes : List UInt8} {fault : Utf8.Fault}
      (hread : tree.read options.input = .ok bytes) (hscript : script bytes = .error fault) :
      InputCourse tree options { ending := .crashed (.undecodable fault) } tree
  | refused {e : LexError} (hlexed : Lexed tree options (.error e)) :
      InputCourse tree options
        { stderr := e.format options.input.text ++ "\n", ending := .exit 1 } tree
  | printed {tokens : List ValuedToken} (hlexed : Lexed tree options (.ok tokens))
      (houtput : options.output = none) :
      InputCourse tree options
        { stdout := render options.format tokens, stderr := dump options tokens,
          ending := .exit 0 } tree
  | written {tokens : List ValuedToken} {p : Path} {after : FileTree}
      (hlexed : Lexed tree options (.ok tokens)) (houtput : options.output = some p)
      (hwrite : tree.write p (Utf8.encode (render options.format tokens)) = .ok after) :
      InputCourse tree options { stderr := dump options tokens, ending := .exit 0 } after
  | unwritten {tokens : List ValuedToken} {p : Path} {error : FileError}
      (hlexed : Lexed tree options (.ok tokens)) (houtput : options.output = some p)
      (hwrite : tree.write p (Utf8.encode (render options.format tokens)) = .error error) :
      InputCourse tree options
        { stderr := dump options tokens, ending := .crashed (.file error) } tree

/-- There is a course for every tree. -/
theorem exists_inputCourse (tree : FileTree) (options : Options) :
    ∃ outcome after, InputCourse tree options outcome after := by
  cases hread : tree.read options.input with
  | error error =>
      cases error with
      | system fault p => exact ⟨_, _, .unread hread⟩
      | embeddedNull => exact ⟨_, _, .unnamable hread⟩
  | ok bytes =>
      cases hscript : script bytes with
      | error fault => exact ⟨_, _, .undecoded hread hscript⟩
      | ok source =>
          cases hlex : tokenize options.mode source with
          | error e => exact ⟨_, _, .refused ⟨bytes, source, hread, hscript, hlex⟩⟩
          | ok tokens =>
              have hlexed : Lexed tree options (.ok tokens) := ⟨bytes, source, hread, hscript, hlex⟩
              cases houtput : options.output with
              | none => exact ⟨_, _, .printed hlexed houtput⟩
              | some p =>
                  cases hwrite : tree.write p (Utf8.encode (render options.format tokens)) with
                  | ok after => exact ⟨_, _, .written hlexed houtput hwrite⟩
                  | error error => exact ⟨_, _, .unwritten hlexed houtput hwrite⟩

theorem runWith_of_lexed {tokens : List ValuedToken} (h : Lexed tree options (.ok tokens)) :
    (runWith FileTree.disk options).run tree = (deliver FileTree.disk options tokens).run tree := by
  obtain ⟨bytes, source, hread, hscript, hlex⟩ := h
  rw [runWith, FileTree.disk_read_bind, hread]
  simp only [hscript, hlex]

/-- A course that can be taken is taken. -/
theorem InputCourse.run_eq {outcome : Outcome} {after : FileTree}
    (h : InputCourse tree options outcome after) :
    (runWith FileTree.disk options).run tree = (outcome, after) := by
  cases h with
  | unread hread =>
      rw [runWith, FileTree.disk_read_bind, hread]
      rfl
  | unnamable hread =>
      rw [runWith, FileTree.disk_read_bind, hread]
      rfl
  | undecoded hread hscript =>
      rw [runWith, FileTree.disk_read_bind, hread]
      dsimp only
      rw [hscript]
      rfl
  | refused hlexed =>
      obtain ⟨bytes, source, hread, hscript, hlex⟩ := hlexed
      rw [runWith, FileTree.disk_read_bind, hread]
      simp only [hscript, hlex]
      rfl
  | printed hlexed houtput =>
      rw [runWith_of_lexed hlexed, deliver, houtput]
      rfl
  | written hlexed houtput hwrite =>
      rw [runWith_of_lexed hlexed, deliver, houtput]
      dsimp only
      rw [FileTree.disk_write_bind, hwrite]
      rfl
  | unwritten hlexed houtput hwrite =>
      rw [runWith_of_lexed hlexed, deliver, houtput]
      dsimp only
      rw [FileTree.disk_write_bind, hwrite]
      rfl

/-- With or without a dump the course is the same. Only what was dumped of the tokens is to be
told apart, and only if there are tokens. -/
theorem InputCourse.debug {outcome : Outcome} {after : FileTree}
    (h : InputCourse tree options outcome after) (debug : Bool) :
    ∃ stderr, InputCourse tree { options with debug } { outcome with stderr } after ∧
      ((¬ ∃ tokens, Lexed tree options (.ok tokens)) ∧ stderr = outcome.stderr ∨
        ∃ tokens, Lexed tree options (.ok tokens) ∧ outcome.stderr = dump options tokens ∧
          stderr = dump { options with debug } tokens) := by
  cases h with
  | unread hread =>
      refine ⟨_, .unread hread, .inl ⟨?_, rfl⟩⟩
      rintro ⟨tokens, bytes, source, hread', -⟩
      cases hread.symm.trans hread'
  | unnamable hread =>
      refine ⟨_, .unnamable hread, .inl ⟨?_, rfl⟩⟩
      rintro ⟨tokens, bytes, source, hread', -⟩
      cases hread.symm.trans hread'
  | undecoded hread hscript =>
      refine ⟨_, .undecoded hread hscript, .inl ⟨?_, rfl⟩⟩
      rintro ⟨tokens, bytes, source, hread', hscript', -⟩
      obtain rfl := Except.ok.inj (hread.symm.trans hread')
      cases hscript.symm.trans hscript'
  | refused hlexed =>
      refine ⟨_, .refused hlexed, .inl ⟨?_, rfl⟩⟩
      rintro ⟨tokens, hlexed'⟩
      cases hlexed.unique hlexed'
  | @printed tokens hlexed houtput =>
      exact ⟨_, .printed hlexed houtput, .inr ⟨tokens, hlexed, rfl, rfl⟩⟩
  | @written tokens p after hlexed houtput hwrite =>
      exact ⟨_, .written hlexed houtput hwrite, .inr ⟨tokens, hlexed, rfl, rfl⟩⟩
  | @unwritten tokens p error hlexed houtput hwrite =>
      exact ⟨_, .unwritten hlexed houtput hwrite, .inr ⟨tokens, hlexed, rfl, rfl⟩⟩

/-! ## Whole runs -/

/-- The courses of a run. -/
inductive Course (tree : FileTree) (commandLine : List Text) : Outcome → FileTree → Prop
  | misused {error : Usage.Error} (h : Usage.read commandLine = .error error) :
      Course tree commandLine { stderr := error.report, ending := .stopped 2 } tree
  | helped (h : Usage.read commandLine = .ok .help) :
      Course tree commandLine { stdout := Usage.help, ending := .stopped 0 } tree
  | misconfigured {arguments : Arguments} {error : Config.Error}
      (h : Usage.read commandLine = .ok (.lex arguments))
      (hoptions : optionsIn tree arguments = .error (.config error)) :
      Course tree commandLine { stderr := report error.message, ending := .exit 2 } tree
  | malformed {arguments : Arguments} (h : Usage.read commandLine = .ok (.lex arguments))
      (hoptions : optionsIn tree arguments = .error .malformed) :
      Course tree commandLine { stderr := report malformedConfig, ending := .exit 2 } tree
  | unconfigured {arguments : Arguments} {crash : Crash}
      (h : Usage.read commandLine = .ok (.lex arguments))
      (hoptions : optionsIn tree arguments = .error (.crash crash)) :
      Course tree commandLine { ending := .crashed crash } tree
  | started {arguments : Arguments} {options : Options} {outcome : Outcome} {after : FileTree}
      (h : Usage.read commandLine = .ok (.lex arguments))
      (hoptions : optionsIn tree arguments = .ok options)
      (hcourse : InputCourse tree options outcome after) : Course tree commandLine outcome after

theorem exists_course (tree : FileTree) (commandLine : List Text) :
    ∃ outcome after, Course tree commandLine outcome after := by
  cases h : Usage.read commandLine with
  | error error => exact ⟨_, _, .misused h⟩
  | ok invocation =>
      cases invocation with
      | help => exact ⟨_, _, .helped h⟩
      | lex arguments =>
          cases hoptions : optionsIn tree arguments with
          | error refusal =>
              cases refusal with
              | config error => exact ⟨_, _, .misconfigured h hoptions⟩
              | malformed => exact ⟨_, _, .malformed h hoptions⟩
              | crash crash => exact ⟨_, _, .unconfigured h hoptions⟩
          | ok options =>
              obtain ⟨outcome, after, hcourse⟩ := exists_inputCourse tree options
              exact ⟨outcome, after, .started h hoptions hcourse⟩

theorem run_of_read (h : Usage.read commandLine = .ok (.lex arguments)) :
    (run FileTree.disk commandLine).run tree =
      (match optionsIn tree arguments with
        | .error (.config error) => return { stderr := report error.message, ending := .exit 2 }
        | .error .malformed => return { stderr := report malformedConfig, ending := .exit 2 }
        | .error (.crash crash) => return { ending := .crashed crash }
        | .ok options => runWith FileTree.disk options : StateM FileTree Outcome).run tree := by
  rw [run, h]
  dsimp only
  rw [StateT.run_bind, resolve_run]
  rfl

theorem Course.run_eq {outcome : Outcome} {after : FileTree}
    (h : Course tree commandLine outcome after) :
    (run FileTree.disk commandLine).run tree = (outcome, after) := by
  cases h with
  | misused h =>
      rw [run, h]
      rfl
  | helped h =>
      rw [run, h]
      rfl
  | misconfigured h hoptions =>
      rw [run_of_read h, hoptions]
      rfl
  | malformed h hoptions =>
      rw [run_of_read h, hoptions]
      rfl
  | unconfigured h hoptions =>
      rw [run_of_read h, hoptions]
      rfl
  | started h hoptions hcourse =>
      rw [run_of_read h, hoptions]
      exact hcourse.run_eq

/-- **What a run does on a tree of files.** -/
theorem run_course (tree : FileTree) (commandLine : List Text) :
    Course tree commandLine ((run FileTree.disk commandLine).run tree).1
      ((run FileTree.disk commandLine).run tree).2 := by
  obtain ⟨outcome, after, hcourse⟩ := exists_course tree commandLine
  rw [hcourse.run_eq]
  exact hcourse

/-! ## What a run leaves behind -/

/-- A run with these arguments has these options, and this comes of lexing its input. -/
def Reaches (tree : FileTree) (arguments : Arguments) (options : Options)
    (result : Except LexError (List ValuedToken)) : Prop :=
  optionsIn tree arguments = .ok options ∧ Lexed tree options result

/-- The tokens are where the command line wants them: printed, with no file changed, or written
to the file that it names, with no other changed. -/
inductive Delivered (tree : FileTree) (arguments : Arguments) (rendered stdout : Text) :
    FileTree → Prop
  | printed (houtput : arguments.output.getD [] = []) (hstdout : stdout = rendered) :
      Delivered tree arguments rendered stdout tree
  | written {name : Text} {after : FileTree} (houtput : arguments.output = some name)
      (hname : name ≠ []) (hstdout : stdout = [])
      (hwrote : tree.Wrote (Path.ofText name) (Utf8.encode rendered) after) :
      Delivered tree arguments rendered stdout after

theorem getD_of_named?_eq_none {output : Option Text} (h : Path.named? output = none) :
    output.getD [] = [] := by
  cases output with
  | none => rfl
  | some name =>
      cases name with
      | nil => rfl
      | cons c name => cases h

theorem exists_of_named?_eq_some {output : Option Text} {p : Path}
    (h : Path.named? output = some p) :
    ∃ name, output = some name ∧ name ≠ [] ∧ p = Path.ofText name := by
  cases output with
  | none => cases h
  | some name =>
      cases name with
      | nil => cases h
      | cons c name => exact ⟨c :: name, rfl, by simp, (Option.some.inj h).symm⟩

variable {outcome : Outcome} {after : FileTree}

/-- A run that ends well has delivered its tokens. -/
theorem Course.delivered (h : Course tree commandLine outcome after)
    (hending : outcome.ending = .exit 0) :
    ∃ arguments options tokens, Usage.read commandLine = .ok (.lex arguments) ∧
      Reaches tree arguments options (.ok tokens) ∧
      Delivered tree arguments (render options.format tokens) outcome.stdout after := by
  cases h with
  | misused h => cases hending
  | helped h => cases hending
  | misconfigured h hoptions => cases hending
  | malformed h hoptions => cases hending
  | unconfigured h hoptions => cases hending
  | @started arguments options _ _ h hoptions hcourse =>
      obtain ⟨-, hnamed, -⟩ := paths_of_optionsIn hoptions
      cases hcourse with
      | unread hread => cases hending
      | unnamable hread => cases hending
      | undecoded hread hscript => cases hending
      | refused hlexed => cases hending
      | @printed tokens hlexed houtput =>
          have hnone := getD_of_named?_eq_none (hnamed.symm.trans houtput)
          exact ⟨arguments, options, tokens, h, ⟨hoptions, hlexed⟩, .printed hnone rfl⟩
      | @written tokens p after hlexed houtput hwrite =>
          obtain ⟨name, hsome, hname, rfl⟩ := exists_of_named?_eq_some (hnamed.symm.trans houtput)
          exact ⟨arguments, options, tokens, h, ⟨hoptions, hlexed⟩,
            .written hsome hname rfl (FileTree.wrote_of_write hwrite)⟩
      | unwritten hlexed houtput hwrite => cases hending

/-- A run that does not end well leaves the files alone, and prints nothing but the help. -/
theorem Course.unchanged (h : Course tree commandLine outcome after)
    (hending : outcome.ending ≠ .exit 0) :
    after = tree ∧ (outcome.ending ≠ .stopped 0 → outcome.stdout = []) := by
  cases h with
  | misused h => exact ⟨rfl, fun _ => rfl⟩
  | helped h => exact ⟨rfl, fun hstopped => absurd rfl hstopped⟩
  | misconfigured h hoptions => exact ⟨rfl, fun _ => rfl⟩
  | malformed h hoptions => exact ⟨rfl, fun _ => rfl⟩
  | unconfigured h hoptions => exact ⟨rfl, fun _ => rfl⟩
  | started h hoptions hcourse =>
      cases hcourse with
      | unread hread => exact ⟨rfl, fun _ => rfl⟩
      | unnamable hread => exact ⟨rfl, fun _ => rfl⟩
      | undecoded hread hscript => exact ⟨rfl, fun _ => rfl⟩
      | refused hlexed => exact ⟨rfl, fun _ => rfl⟩
      | printed hlexed houtput => exact absurd rfl hending
      | written hlexed houtput hwrite => exact absurd rfl hending
      | unwritten hlexed houtput hwrite => exact ⟨rfl, fun _ => rfl⟩

/-- The exit code is one for a script that is refused, and the error is reported. -/
theorem Course.ending_eq_one (h : Course tree commandLine outcome after)
    (hending : outcome.ending = .exit 1) :
    ∃ arguments options e, Usage.read commandLine = .ok (.lex arguments) ∧
      Reaches tree arguments options (.error e) := by
  cases h with
  | misused h => cases hending
  | helped h => cases hending
  | misconfigured h hoptions => cases hending
  | malformed h hoptions => cases hending
  | unconfigured h hoptions => cases hending
  | @started arguments options _ _ h hoptions hcourse =>
      cases hcourse with
      | unread hread => cases hending
      | unnamable hread => cases hending
      | undecoded hread hscript => cases hending
      | @refused e hlexed => exact ⟨arguments, options, e, h, hoptions, hlexed⟩
      | printed hlexed houtput => cases hending
      | written hlexed houtput hwrite => cases hending
      | unwritten hlexed houtput hwrite => cases hending

/-- The command line asks for a run whose configuration is wrong, or whose input the system
refuses. -/
inductive Misled (tree : FileTree) (arguments : Arguments) : Prop
  | config {error : Config.Error} (hoptions : optionsIn tree arguments = .error (.config error))
  | malformed (hoptions : optionsIn tree arguments = .error .malformed)
  | unread {options : Options} {fault : FileFault} {p : Path}
      (hoptions : optionsIn tree arguments = .ok options)
      (hread : tree.read options.input = .error (.system fault p))

theorem Course.ending_eq_two (h : Course tree commandLine outcome after)
    (hending : outcome.ending = .exit 2) :
    ∃ arguments, Usage.read commandLine = .ok (.lex arguments) ∧ Misled tree arguments := by
  cases h with
  | misused h => cases hending
  | helped h => cases hending
  | misconfigured h hoptions => exact ⟨_, h, .config hoptions⟩
  | malformed h hoptions => exact ⟨_, h, .malformed hoptions⟩
  | unconfigured h hoptions => cases hending
  | started h hoptions hcourse =>
      cases hcourse with
      | unread hread => exact ⟨_, h, .unread hoptions hread⟩
      | unnamable hread => cases hending
      | undecoded hread hscript => cases hending
      | refused hlexed => cases hending
      | printed hlexed houtput => cases hending
      | written hlexed houtput hwrite => cases hending
      | unwritten hlexed houtput hwrite => cases hending

/-- The exit code is two for a run that is misled. -/
theorem ending_of_misled (h : Usage.read commandLine = .ok (.lex arguments))
    (hmisled : Misled tree arguments) :
    ((run FileTree.disk commandLine).run tree).1.ending = .exit 2 := by
  cases hmisled with
  | config hoptions => rw [(Course.misconfigured h hoptions).run_eq]
  | malformed hoptions => rw [(Course.malformed h hoptions).run_eq]
  | unread hoptions hread => rw [(Course.started h hoptions (.unread hread)).run_eq]

/-- Whether the command line asks for a dump shows in nothing but the dump. -/
theorem run_debug (tree : FileTree) {other : List Text} {debug : Bool}
    (h : Usage.read commandLine = .ok (.lex arguments))
    (hother : Usage.read other = .ok (.lex { arguments with debug })) :
    ∃ outcome after stderr, (run FileTree.disk commandLine).run tree = (outcome, after) ∧
      (run FileTree.disk other).run tree = ({ outcome with stderr }, after) ∧
      ((¬ ∃ options tokens, Reaches tree arguments options (.ok tokens)) ∧
          stderr = outcome.stderr ∨
        ∃ options tokens, Reaches tree arguments options (.ok tokens) ∧
          outcome.stderr = (if arguments.debug then Listing.rows tokens else []) ∧
          stderr = if debug then Listing.rows tokens else []) := by
  cases hoptions : optionsIn tree arguments with
  | error refusal =>
      have hoptions' : optionsIn tree { arguments with debug } = .error refusal := by
        rw [optionsIn_debug, hoptions]
        rfl
      have hsame : (run FileTree.disk other).run tree =
          (run FileTree.disk commandLine).run tree := by
        rw [run_of_read h, run_of_read hother, hoptions, hoptions']
      refine ⟨_, _, _, rfl, hsame, .inl ⟨?_, rfl⟩⟩
      rintro ⟨options, tokens, hoptions'', -⟩
      cases hoptions.symm.trans hoptions''
  | ok options =>
      have hoptions' : optionsIn tree { arguments with debug } = .ok { options with debug } := by
        rw [optionsIn_debug, hoptions]
        rfl
      obtain ⟨-, -, hdebug⟩ := paths_of_optionsIn hoptions
      obtain ⟨outcome, after, hcourse⟩ := exists_inputCourse tree options
      obtain ⟨stderr, hcourse', hdump⟩ := hcourse.debug debug
      refine ⟨outcome, after, stderr, (Course.started h hoptions hcourse).run_eq,
        (Course.started hother hoptions' hcourse').run_eq, ?_⟩
      rcases hdump with ⟨hnone, hstderr⟩ | ⟨tokens, hlexed, hdumped, hstderr⟩
      · refine .inl ⟨?_, hstderr⟩
        rintro ⟨options', tokens, hoptions'', hlexed⟩
        obtain rfl := Except.ok.inj (hoptions.symm.trans hoptions'')
        exact hnone ⟨tokens, hlexed⟩
      · rw [dump, hdebug] at hdumped
        exact .inr ⟨options, tokens, ⟨hoptions, hlexed⟩, hdumped, hstderr⟩

/-- **A run is all or nothing.** A run with exit code zero has tokens and delivers exactly them.
Any other run changes no file, and prints nothing but the help. The exit code is one just for a
script that is refused, with nothing reported but the error, and two just for a run that is
misled. Runs that differ in the wish for a dump differ in nothing but the dump. -/
theorem run_all_or_nothing (tree : FileTree) (commandLine : List Text) :
    let ran := (run FileTree.disk commandLine).run tree
    (ran.1.ending = .exit 0 →
      ∃ arguments options tokens, Usage.read commandLine = .ok (.lex arguments) ∧
        Reaches tree arguments options (.ok tokens) ∧
        Delivered tree arguments (render options.format tokens) ran.1.stdout ran.2) ∧
    (ran.1.ending ≠ .exit 0 → ran.2 = tree ∧ (ran.1.ending ≠ .stopped 0 → ran.1.stdout = [])) ∧
    (ran.1.ending = .exit 1 ↔
      ∃ arguments options e, Usage.read commandLine = .ok (.lex arguments) ∧
        Reaches tree arguments options (.error e)) ∧
    (∀ arguments options e, Usage.read commandLine = .ok (.lex arguments) →
      Reaches tree arguments options (.error e) →
      options.input = Path.ofText arguments.input ∧
        ran.1.stderr = e.format options.input.text ++ "\n") ∧
    (ran.1.ending = .exit 2 ↔
      ∃ arguments, Usage.read commandLine = .ok (.lex arguments) ∧ Misled tree arguments) ∧
    (∀ other arguments debug, Usage.read commandLine = .ok (.lex arguments) →
      Usage.read other = .ok (.lex { arguments with debug }) →
      let again := (run FileTree.disk other).run tree
      again.1.ending = ran.1.ending ∧ again.1.stdout = ran.1.stdout ∧ again.2 = ran.2 ∧
        ((¬ ∃ options tokens, Reaches tree arguments options (.ok tokens)) ∧
            again.1.stderr = ran.1.stderr ∨
          ∃ options tokens, Reaches tree arguments options (.ok tokens) ∧
            ran.1.stderr = (if arguments.debug then Listing.rows tokens else []) ∧
            again.1.stderr = if debug then Listing.rows tokens else [])) := by
  intro ran
  have hcourse : Course tree commandLine ran.1 ran.2 := run_course tree commandLine
  have hrefused : ∀ arguments options e, Usage.read commandLine = .ok (.lex arguments) →
      Reaches tree arguments options (.error e) →
      ran = ({ stderr := e.format options.input.text ++ "\n", ending := .exit 1 }, tree) := by
    rintro arguments options e h ⟨hoptions, hlexed⟩
    exact (Course.started h hoptions (.refused hlexed)).run_eq
  refine ⟨hcourse.delivered, hcourse.unchanged, ⟨hcourse.ending_eq_one, ?_⟩, ?_,
    ⟨hcourse.ending_eq_two, ?_⟩, ?_⟩
  · rintro ⟨arguments, options, e, h, hreaches⟩
    rw [hrefused arguments options e h hreaches]
  · intro arguments options e h hreaches
    rw [hrefused arguments options e h hreaches]
    exact ⟨(paths_of_optionsIn hreaches.1).1, rfl⟩
  · rintro ⟨arguments, h, hmisled⟩
    exact ending_of_misled h hmisled
  · intro other arguments debug h hother again
    obtain ⟨outcome, after, stderr, hran, hagain, hdump⟩ := run_debug tree h hother
    have hran' : ran = (outcome, after) := hran
    have hagain' : again = ({ outcome with stderr }, after) := hagain
    rw [hran', hagain']
    exact ⟨rfl, rfl, rfl, hdump⟩

/-- A run that writes its tokens to a file, with and without a dump of them. -/
theorem run_all_or_nothing_dumped :
    let tree : FileTree := { entries := [([("a.gml" : Text)], .file [0x78])] }
    let ran := (run FileTree.disk ["a.gml", "-o", "b"]).run tree
    let again := (run FileTree.disk ["--debug", "a.gml", "-o", "b"]).run tree
    ran.1.ending = .exit 0 ∧ again.1.ending = .exit 0 ∧ again.2 = ran.2 ∧
      ∃ arguments options tokens,
        Usage.read ["a.gml", "-o", "b"] = .ok (.lex arguments) ∧
        Reaches tree arguments options (.ok tokens) ∧
        Delivered tree arguments (render options.format tokens) ran.1.stdout ran.2 := by
  intro tree ran again
  have hexit : ran.1.ending = .exit 0 := by decide +kernel
  obtain ⟨hdelivered, -, -, -, -, hdebug⟩ := run_all_or_nothing tree ["a.gml", "-o", "b"]
  obtain ⟨hending, -, hfiles, -⟩ := hdebug ["--debug", "a.gml", "-o", "b"]
    { input := "a.gml", output := some "b", format := none, lenientStrings := false,
      config := none, debug := false } true rfl rfl
  exact ⟨hexit, hending.trans hexit, hfiles, hdelivered hexit⟩

end ScriptLex.Command
