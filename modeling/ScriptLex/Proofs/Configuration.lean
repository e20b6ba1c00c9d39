import ScriptLex.Proofs.Command
import ScriptLex.Proofs.Utf8

/-!
# Options and their sources

A document has a say in a run by two settings only. Each of them is checked, leniency first, also
if the command line has the last word on it; a setting that is left out, by the document or
because there is no document, is taken from the defaults. All else in the document has no bearing
on the options.

A configuration is looked for in one place. If there is no file in that place, the document is
empty. The one exception is a path that is too long to be looked up: then there are no options.
-/

namespace ScriptLex

variable {tree : FileTree} {arguments : Arguments} {p : Path} {document : Toml.Table}

/-! ## Settings -/

namespace Toml.Table

/-- The document has a table under one key, which has the value under another. -/
def Sets (document : Table) (table key : Text) (v : Value) : Prop :=
  ∃ entries, document.get? table = some (.table entries) ∧ get? entries key = some v

/-- The document sets something else than the values that are written so. -/
def Missets {α : Type} (document : Table) (table key : Text) (write : α → Value) : Prop :=
  ∃ v, document.Sets table key v ∧ ∀ a, v ≠ write a

theorem Sets.unique {table key : Text} {v w : Value} (h : document.Sets table key v)
    (h' : document.Sets table key w) : v = w := by
  obtain ⟨entries, htable, hv⟩ := h
  obtain ⟨entries', htable', hw⟩ := h'
  obtain rfl := Value.table.inj (Option.some.inj (htable.symm.trans htable'))
  exact Option.some.inj (hv.symm.trans hw)

/-- A setting that is as it can be is not refused. -/
theorem Sets.not_missets {α : Type} {table key : Text} {write : α → Value} {a : α}
    (h : document.Sets table key (write a)) : ¬ document.Missets table key write := by
  rintro ⟨v, hv, hne⟩
  exact hne a (hv.unique h)

end Toml.Table

theorem Format.ofName?_eq_some_iff {name : Text} {f : Format} :
    ofName? name = some f ↔ f.name = name := by
  constructor
  · intro h
    simpa using List.find?_some h
  · rintro rfl
    cases f <;> decide

namespace Config

theorem setting?_eq_some_iff {table key : Text} {v : Toml.Value} :
    setting? document table key = some v ↔ document.Sets table key v := by
  rw [setting?, Option.bind_eq_some_iff]
  constructor
  · rintro ⟨entries, htable, hv⟩
    refine ⟨entries, ?_, hv⟩
    unfold Toml.Table.table? at htable
    split at htable
    next hget =>
      rw [hget, Option.some.inj htable]
    next => cases htable
  · rintro ⟨entries, htable, hv⟩
    refine ⟨entries, ?_, hv⟩
    rw [Toml.Table.table?, htable]

theorem setting?_eq_none_iff {table key : Text} :
    setting? document table key = none ↔ ∀ v, ¬ document.Sets table key v := by
  rw [Option.eq_none_iff_forall_ne_some]
  exact forall_congr' fun v => not_congr setting?_eq_some_iff

/-- Documents that set the same have the same setting. -/
theorem setting?_congr {other : Toml.Table} {table key : Text}
    (h : ∀ v, document.Sets table key v ↔ other.Sets table key v) :
    setting? document table key = setting? other table key := by
  apply Option.ext
  intro v
  rw [setting?_eq_some_iff, setting?_eq_some_iff, h]

/-- What can come of a setting, the values of which are written in one way and refused with one
error. -/
inductive Checks {α : Type} (document : Toml.Table) (table key : Text) (write : α → Toml.Value)
    (error : Error) : Except Error (Option α) → Prop
  | unset (h : ∀ v, ¬ document.Sets table key v) : Checks document table key write error (.ok none)
  | set {a : α} (h : document.Sets table key (write a)) :
      Checks document table key write error (.ok (some a))
  | misset (h : document.Missets table key write) :
      Checks document table key write error (.error error)

theorem lenientStringsOf_checks (document : Toml.Table) :
    Checks document "lexer" "lenient_strings" .boolean .lenientStrings
      (lenientStringsOf document) := by
  unfold lenientStringsOf
  split
  next hunset => exact .unset (setting?_eq_none_iff.mp hunset)
  next b hset => exact .set (setting?_eq_some_iff.mp hset)
  next v hother hset =>
    exact .misset ⟨v, setting?_eq_some_iff.mp hset, hother⟩

theorem formatOf_checks (document : Toml.Table) :
    Checks document "output" "format" (fun f : Format => .string f.name) .format
      (formatOf document) := by
  unfold formatOf
  split
  next hunset => exact .unset (setting?_eq_none_iff.mp hunset)
  next name hset =>
    have hsets := setting?_eq_some_iff.mp hset
    cases hname : Format.ofName? name with
    | some f =>
        obtain rfl := Format.ofName?_eq_some_iff.mp hname
        exact .set hsets
    | none =>
        refine .misset ⟨_, hsets, ?_⟩
        intro f hf
        rw [Format.ofName?_eq_some_iff.mpr (Toml.Value.string.inj hf).symm] at hname
        cases hname
  next v hother hset =>
    exact .misset ⟨v, setting?_eq_some_iff.mp hset, fun f => hother f.name⟩

section Checks

variable {α : Type} {table key : Text} {write : α → Toml.Value} {error e : Error}
  {setting : Option α}

theorem Checks.of_error (h : Checks document table key write error (.error e)) :
    e = error ∧ document.Missets table key write := by
  cases h with
  | misset h => exact ⟨rfl, h⟩

theorem Checks.not_missets (h : Checks document table key write error (.ok setting)) :
    ¬ document.Missets table key write := by
  cases h with
  | unset hunset => exact fun ⟨v, hv, _⟩ => hunset v hv
  | set hset => exact hset.not_missets

theorem Checks.eq_some (h : Checks document table key write error (.ok setting)) {a : α}
    (hinj : Function.Injective write) (ha : document.Sets table key (write a)) :
    setting = some a := by
  cases h with
  | unset hunset => exact absurd ha (hunset _)
  | set hset => exact congrArg some (hinj (hset.unique ha))

theorem Checks.sets {a : α} (h : Checks document table key write error (.ok (some a))) :
    document.Sets table key (write a) := by
  cases h with
  | set hset => exact hset

theorem Checks.eq_none (h : Checks document table key write error (.ok setting))
    (hunset : ∀ a, ¬ document.Sets table key (write a)) : setting = none := by
  cases h with
  | unset _ => rfl
  | set hset => exact absurd hset (hunset _)

end Checks

theorem ofDocument_eq_ok {config : Config} (h : ofDocument document = .ok config) :
    lenientStringsOf document = .ok config.lenientStrings ∧
      formatOf document = .ok config.format := by
  rw [ofDocument] at h
  cases hlenient : lenientStringsOf document with
  | error e =>
      rw [hlenient] at h
      cases h
  | ok lenientStrings =>
      cases hformat : formatOf document with
      | error e =>
          rw [hlenient, hformat] at h
          cases h
      | ok format =>
          rw [hlenient, hformat] at h
          cases h
          exact ⟨rfl, rfl⟩

theorem eq_ok_of_toOption {ε α : Type} {x : Except ε α} {a : α} (h : x.toOption = some a) :
    x = .ok a := by
  cases x with
  | error e => cases h
  | ok b =>
      cases h
      rfl

/-- A text that is read for both settings is a document with both. -/
theorem exists_document {t : Text} {b : Bool} {f : Format}
    (h : (Toml.parse t).toOption.bind (fun document => (ofDocument document).toOption) =
      some { lenientStrings := some b, format := some f }) :
    ∃ document, Toml.parse t = .ok document ∧
      document.Sets "lexer" "lenient_strings" (.boolean b) ∧
      document.Sets "output" "format" (.string f.name) := by
  obtain ⟨document, hparse, hconfig⟩ := Option.bind_eq_some_iff.mp h
  obtain ⟨hl, hf⟩ := ofDocument_eq_ok (eq_ok_of_toOption hconfig)
  have hlenient := lenientStringsOf_checks document
  have hformat := formatOf_checks document
  rw [hl] at hlenient
  rw [hf] at hformat
  exact ⟨document, eq_ok_of_toOption hparse, hlenient.sets, hformat.sets⟩

end Config

/-! ## Precedence -/

/-- A value that is taken from the command line, else from the document, else from the
defaults. -/
structure Precedence {α : Type} (flag : Option α) (set : α → Prop) (byDefault value : α) :
    Prop where
  ofFlag : ∀ a, flag = some a → value = a
  ofDocument : flag = none → ∀ a, set a → value = a
  ofDefault : flag = none → (∀ a, ¬ set a) → value = byDefault

/-- What the options are to be. -/
structure Options.Merged (arguments : Arguments) (document : Toml.Table) (options : Options) :
    Prop where
  input : options.input = Path.ofText arguments.input
  output : options.output = Path.named? arguments.output
  debug : options.debug = arguments.debug
  lenientStrings :
    Precedence (if arguments.lenientStrings then some true else none)
      (fun b => document.Sets "lexer" "lenient_strings" (.boolean b)) false options.lenientStrings
  format :
    Precedence arguments.format
      (fun choice => ∃ f, choice = .named f ∧ document.Sets "output" "format" (.string f.name))
      (.named .text) options.format

namespace Config

/-- Leniency is set, but to no truth value. -/
def MissetsLenient (document : Toml.Table) : Prop :=
  document.Missets "lexer" "lenient_strings" Toml.Value.boolean

/-- The format is set, but to the name of none. -/
def MissetsFormat (document : Toml.Table) : Prop :=
  document.Missets "output" "format" fun f : Format => .string f.name

/-- The documents have the same two settings. -/
structure Agree (document other : Toml.Table) : Prop where
  lenientStrings : ∀ v,
    document.Sets "lexer" "lenient_strings" v ↔ other.Sets "lexer" "lenient_strings" v
  format : ∀ v, document.Sets "output" "format" v ↔ other.Sets "output" "format" v

end Config

namespace Options

/-- What can come of a document. -/
inductive Resolves (arguments : Arguments) (document : Toml.Table) :
    Except Config.Error Options → Prop
  | lenientStrings (h : Config.MissetsLenient document) :
      Resolves arguments document (.error .lenientStrings)
  | format (hlenient : ¬ Config.MissetsLenient document) (h : Config.MissetsFormat document) :
      Resolves arguments document (.error .format)
  | merged {options : Options} (hlenient : ¬ Config.MissetsLenient document)
      (hformat : ¬ Config.MissetsFormat document) (h : Merged arguments document options) :
      Resolves arguments document (.ok options)

theorem merged_merge {lenientStrings : Option Bool} {format : Option Format}
    (hlenient : Config.Checks document "lexer" "lenient_strings" .boolean .lenientStrings
      (.ok lenientStrings))
    (hformat : Config.Checks document "output" "format" (fun f : Format => .string f.name) .format
      (.ok format)) :
    Merged arguments document (merge arguments { lenientStrings, format }) where
  input := rfl
  output := rfl
  debug := rfl
  lenientStrings := by
    have hinj : Function.Injective Toml.Value.boolean := fun _ _ => Toml.Value.boolean.inj
    show Precedence _ _ false (arguments.lenientStrings || lenientStrings.getD false)
    cases arguments.lenientStrings with
    | true => exact ⟨fun b hb => Option.some.inj hb, nofun, nofun⟩
    | false =>
        refine ⟨nofun, ?_, ?_⟩
        · intro _ b hb
          rw [hlenient.eq_some hinj hb]
          rfl
        · intro _ hunset
          rw [hlenient.eq_none hunset]
          rfl
  format := by
    have hinj : Function.Injective fun f : Format => Toml.Value.string f.name := by
      intro f g hname
      have hf := Format.ofName?_eq_some_iff.mpr (Toml.Value.string.inj hname)
      rw [Format.ofName?_eq_some_iff.mpr rfl] at hf
      exact (Option.some.inj hf).symm
    show Precedence _ _ _ (arguments.format.getD (.named (format.getD .text)))
    cases arguments.format with
    | some choice => exact ⟨fun c hc => Option.some.inj hc, nofun, nofun⟩
    | none =>
        refine ⟨nofun, ?_, ?_⟩
        · rintro _ choice ⟨f, rfl, hf⟩
          rw [hformat.eq_some hinj hf]
          rfl
        · intro _ hunset
          rw [hformat.eq_none fun f hf => hunset _ ⟨f, rfl, hf⟩]
          rfl

theorem resolve_resolves (arguments : Arguments) (document : Toml.Table) :
    Resolves arguments document (resolve arguments document) := by
  have hlenient := Config.lenientStringsOf_checks document
  have hformat := Config.formatOf_checks document
  rw [resolve, Config.ofDocument]
  cases hl : Config.lenientStringsOf document with
  | error e =>
      rw [hl] at hlenient
      obtain ⟨rfl, hmisset⟩ := hlenient.of_error
      exact .lenientStrings hmisset
  | ok lenientStrings =>
      rw [hl] at hlenient
      cases hf : Config.formatOf document with
      | error e =>
          rw [hf] at hformat
          obtain ⟨rfl, hmisset⟩ := hformat.of_error
          exact .format hlenient.not_missets hmisset
      | ok format =>
          rw [hf] at hformat
          exact .merged hlenient.not_missets hformat.not_missets (merged_merge hlenient hformat)

theorem resolve_eq_lenientStrings_iff :
    resolve arguments document = .error .lenientStrings ↔ Config.MissetsLenient document := by
  have hresolves := resolve_resolves arguments document
  generalize resolve arguments document = result at hresolves ⊢
  cases hresolves with
  | lenientStrings h => exact ⟨fun _ => h, fun _ => rfl⟩
  | format hlenient _ => exact ⟨nofun, fun h => absurd h hlenient⟩
  | merged hlenient _ _ => exact ⟨nofun, fun h => absurd h hlenient⟩

theorem resolve_eq_format_iff :
    resolve arguments document = .error .format ↔
      ¬ Config.MissetsLenient document ∧ Config.MissetsFormat document := by
  have hresolves := resolve_resolves arguments document
  generalize resolve arguments document = result at hresolves ⊢
  cases hresolves with
  | lenientStrings h => exact ⟨nofun, fun hformat => absurd h hformat.1⟩
  | format hlenient h => exact ⟨fun _ => ⟨hlenient, h⟩, fun _ => rfl⟩
  | merged _ hformat _ => exact ⟨nofun, fun h => absurd h.2 hformat⟩

theorem exists_merged (arguments : Arguments) (hlenient : ¬ Config.MissetsLenient document)
    (hformat : ¬ Config.MissetsFormat document) :
    ∃ options, resolve arguments document = .ok options ∧ Merged arguments document options := by
  have hresolves := resolve_resolves arguments document
  generalize resolve arguments document = result at hresolves ⊢
  cases hresolves with
  | lenientStrings h => exact absurd h hlenient
  | format _ h => exact absurd h hformat
  | merged _ _ h => exact ⟨_, rfl, h⟩

theorem resolve_congr {other : Toml.Table} (h : Config.Agree document other)
    (arguments : Arguments) : resolve arguments document = resolve arguments other := by
  have hlenient : Config.lenientStringsOf document = Config.lenientStringsOf other := by
    rw [Config.lenientStringsOf, Config.setting?_congr h.lenientStrings, Config.lenientStringsOf]
  have hformat : Config.formatOf document = Config.formatOf other := by
    rw [Config.formatOf, Config.setting?_congr h.format, Config.formatOf]
  rw [resolve, Config.ofDocument, hlenient, hformat, resolve, Config.ofDocument]

end Options

/-! ## The file -/

namespace Config

/-- Where the configuration of a run is looked for, and nowhere else. -/
inductive Selects (arguments : Arguments) : Path → Prop
  | named {t : Text} (hconfig : arguments.config = some t) (hne : t ≠ []) :
      Selects arguments (Path.ofText t)
  | beside (hconfig : arguments.config = none ∨ arguments.config = some []) :
      Selects arguments ((Path.ofText arguments.input).parent.child "gmsc.toml")

theorem Selects.eq_path (h : Selects arguments p) : p = path arguments := by
  cases h with
  | named hconfig hne =>
      obtain ⟨c, t, rfl⟩ := List.exists_cons_of_ne_nil hne
      rw [path, hconfig]
      rfl
  | beside hconfig =>
      rcases hconfig with hconfig | hconfig
      · rw [path, hconfig]
        rfl
      · rw [path, hconfig]
        rfl

/-- The document in a place: that of the file, or the empty one if there is no file. -/
inductive Holds (tree : FileTree) (p : Path) : Toml.Table → Prop
  | file {bytes : List UInt8} {t : Text} {document : Toml.Table}
      (hfind : tree.find p = .ok (.file bytes)) (hdecode : Utf8.decode bytes = .ok t)
      (hparse : Toml.parse t = .ok document) : Holds tree p document
  | noFile (hfind : ∀ bytes, tree.find p ≠ .ok (.file bytes)) : Holds tree p []

end Config

/-- The path cannot be looked up: it, or a name that is looked up on the way, is too long. -/
def FileTree.TooLong (tree : FileTree) (p : Path) : Prop :=
  tree.find p = .error (.system .nameTooLong p)

theorem Path.eq_of_check {fault : FileFault} {q : Path}
    (h : p.check = .error (.system fault q)) : q = p := by
  unfold check at h
  split at h
  next => cases h
  next =>
    split at h
    next => cases h; rfl
    next => cases h

/-- A path is refused under its own name. -/
theorem FileTree.eq_of_find {fault : FileFault} {q : Path}
    (h : tree.find p = .error (.system fault q)) : q = p := by
  rw [find] at h
  cases hcheck : p.check with
  | error error =>
      rw [hcheck] at h
      cases h
      exact Path.eq_of_check hcheck
  | ok _ =>
      rw [hcheck] at h
      dsimp only [bind, Except.bind] at h
      split at h
      next => cases h; rfl
      next =>
        split at h
        next => cases h
        next => cases h; rfl

/-- A name that no directory can hold is too long, whatever files there are. -/
theorem FileTree.tooLong_of_name (name : Text) (hp : p = ⟨.relative, [name]⟩)
    (hstart : tree.entry? tree.workingDirectory = some .directory) (hnull : '\x00' ∉ p.text)
    (hlength : (Utf8.encode p.text).length < Path.lengthLimit)
    (hup : name ≠ "..") (hname : Path.nameLimit < (Utf8.encode name).length) :
    tree.TooLong p := by
  have hstep : tree.step? tree.workingDirectory name = .error .nameTooLong := by
    rw [step?, hstart]
    dsimp only
    rw [if_neg hup, if_pos hname]
  have hcheck : p.check = .ok () := by
    rw [Path.check, if_neg hnull, if_neg (Nat.not_le.mpr hlength)]
  have hwalk : tree.walk (tree.startOf p) p.names = .error .nameTooLong := by
    rw [hp]
    show tree.walk tree.workingDirectory [name] = _
    rw [walk, hstep]
  rw [TooLong, find, hcheck, hwalk]
  rfl

theorem FileTree.isFile_eq_false (hshort : ¬ tree.TooLong p)
    (hfind : ∀ bytes, tree.find p ≠ .ok (.file bytes)) : tree.isFile p = .ok false := by
  unfold isFile
  split
  next bytes hfile => exact absurd hfile (hfind bytes)
  next => rfl
  next q hlong =>
    obtain rfl := eq_of_find hlong
    exact absurd hlong hshort
  next => rfl

namespace Command

theorem loadConfig_of_holds (hshort : ¬ tree.TooLong p) (h : Config.Holds tree p document) :
    (loadConfig FileTree.disk p).run tree = (.ok document, tree) := by
  rw [loadConfig, FileTree.disk_isFile_bind]
  cases h with
  | file hfind hdecode hparse =>
      rw [FileTree.isFile, hfind]
      dsimp only
      rw [FileTree.disk_read_bind, FileTree.read, hfind]
      simp only [Command.document, hdecode, hparse]
      rfl
  | noFile hfind =>
      rw [FileTree.isFile_eq_false hshort hfind]
      rfl

theorem optionsOf_eq_config_iff {e : Config.Error} :
    optionsOf arguments (.ok document) = .error (.config e) ↔
      Options.resolve arguments document = .error e := by
  rw [optionsOf]
  cases Options.resolve arguments document with
  | error error => simp
  | ok options => simp

theorem optionsIn_of_holds (hp : Config.Selects arguments p) (hshort : ¬ tree.TooLong p)
    (h : Config.Holds tree p document) :
    optionsIn tree arguments = optionsOf arguments (.ok document) := by
  obtain rfl := hp.eq_path
  rw [optionsIn, resolve_run_of_config (loadConfig_of_holds hshort h)]

/-- **Options come from the command line, the configuration and the defaults, in this order.** The
settings of the document are checked, leniency first, whatever the command line says. Documents
with the same settings give the same options. -/
theorem optionsIn_merges (hp : Config.Selects arguments p) (hshort : ¬ tree.TooLong p)
    (hdocument : Config.Holds tree p document) :
    (optionsIn tree arguments = .error (.config .lenientStrings) ↔
        Config.MissetsLenient document) ∧
      (optionsIn tree arguments = .error (.config .format) ↔
        ¬ Config.MissetsLenient document ∧ Config.MissetsFormat document) ∧
      (¬ Config.MissetsLenient document → ¬ Config.MissetsFormat document →
        ∃ options, optionsIn tree arguments = .ok options ∧
          Options.Merged arguments document options) ∧
      ∀ otherTree otherDocument, ¬ FileTree.TooLong otherTree p →
        Config.Holds otherTree p otherDocument → Config.Agree document otherDocument →
        optionsIn otherTree arguments = optionsIn tree arguments := by
  have hoptions := optionsIn_of_holds hp hshort hdocument
  refine ⟨?_, ?_, ?_, ?_⟩
  · rw [hoptions, optionsOf_eq_config_iff, Options.resolve_eq_lenientStrings_iff]
  · rw [hoptions, optionsOf_eq_config_iff, Options.resolve_eq_format_iff]
  · intro hlenient hformat
    obtain ⟨options, hresolve, hmerged⟩ := Options.exists_merged arguments hlenient hformat
    refine ⟨options, ?_, hmerged⟩
    rw [hoptions, optionsOf, hresolve]
  · intro otherTree otherDocument hshort' hdocument' hagree
    rw [hoptions, optionsIn_of_holds hp hshort' hdocument', optionsOf, optionsOf,
      Options.resolve_congr hagree]

/-- A run that names its configuration. -/
def configured (config : Text) (format : Option FormatChoice) : Arguments where
  input := "a.gml"
  output := none
  format := format
  lenientStrings := false
  config := some config
  debug := false

theorem selects_configured (config : Text) (hne : config ≠ []) (format : Option FormatChoice) :
    Config.Selects (configured config format) (Path.ofText config) := .named rfl hne

/-- A document with both settings. -/
def bothSettings : Text := "[lexer]\nlenient_strings = true\n[output]\nformat = \x22json\x22\n"

/-- The document names one format and the command line another. -/
theorem optionsIn_merges_flag :
    ∃ options,
      optionsIn { entries := [(["c.toml".toList], .file (Utf8.encode bothSettings))] }
        (configured "c.toml" (some (.named .text))) = .ok options ∧
      options.lenientStrings = true ∧ options.format = .named .text := by
  obtain ⟨document, hparse, hlenient, hformat⟩ :=
    Config.exists_document (t := bothSettings) (b := true) (f := .json) (by decide +kernel)
  have hfind : FileTree.find { entries := [(["c.toml".toList], .file (Utf8.encode bothSettings))] }
      (Path.ofText "c.toml") = .ok (.file (Utf8.encode bothSettings)) := rfl
  have hshort : ¬ FileTree.TooLong _ _ := fun hlong => nomatch hfind.symm.trans hlong
  obtain ⟨-, -, hmerges, -⟩ := optionsIn_merges
    (selects_configured "c.toml" (by decide) (some (.named .text))) hshort
    (.file hfind (Utf8.decode_encode _) hparse)
  obtain ⟨options, hoptions, hmerged⟩ := hmerges hlenient.not_missets
    (hformat.not_missets (a := Format.json))
  exact ⟨options, hoptions, hmerged.lenientStrings.ofDocument rfl true hlenient,
    hmerged.format.ofFlag _ rfl⟩

/-- A path that is too long is reported, and no document stands in for it. -/
theorem optionsIn_of_tooLong (hp : Config.Selects arguments p) (hlong : tree.TooLong p) :
    optionsIn tree arguments = .error (.crash (.file (.system .nameTooLong p))) := by
  obtain rfl := hp.eq_path
  have hload : (loadConfig FileTree.disk (Config.path arguments)).run tree =
      (.error (.crash (.file (.system .nameTooLong (Config.path arguments)))), tree) := by
    rw [loadConfig, FileTree.disk_isFile_bind, FileTree.isFile, hlong]
    rfl
  rw [optionsIn, resolve_run_of_config hload]
  rfl

/-- There is no file of so long a name, but the run does not get its defaults. -/
theorem optionsIn_long_name :
    Config.Selects (configured (Text.copies 300 'c') none) (Path.ofText (Text.copies 300 'c')) ∧
      Config.Holds {} (Path.ofText (Text.copies 300 'c')) [] ∧
      optionsIn {} (configured (Text.copies 300 'c') none) =
        .error (.crash (.file (.system .nameTooLong (Path.ofText (Text.copies 300 'c'))))) := by
  have hlong : FileTree.TooLong {} (Path.ofText (Text.copies 300 'c')) :=
    FileTree.tooLong_of_name (Text.copies 300 'c') (by decide +kernel) rfl (by decide +kernel)
      (by decide +kernel) (by decide +kernel) (by decide +kernel)
  have hp := selects_configured (Text.copies 300 'c') (List.cons_ne_nil _ _) none
  refine ⟨hp, .noFile fun bytes hfile => ?_, optionsIn_of_tooLong hp hlong⟩
  rw [hlong] at hfile
  cases hfile

end Command

end ScriptLex
