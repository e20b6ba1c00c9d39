import ScriptLex.Proofs.Command
import ScriptLex.Proofs.Diagnostics
import ScriptLex.Proofs.Newline
import ScriptLex.Proofs.Utf8

/-!
# The command and the editor

A run with no argument but a file, and no configuration beside it, lexes what an editor lexes that
has the file open, up to one thing: the command unifies line ends and the editor does not. So the
two agree once the line ends are unified, and before that as long as no carriage return is in the
way. A carriage return alone is a line end to the one and no token to the other.
-/

namespace ScriptLex

/-! ## A single argument -/

namespace Usage

theorem eq_of_unspelled {t u : Text} (h : unspelled t = .plain u) : u = t := by
  unfold unspelled at h
  split at h
  next => exact (Item.plain.inj h).symm
  next => cases h

theorem eq_of_classifyLong {t u : Text} (h : classifyLong t = .ok (.plain u)) : u = t := by
  unfold classifyLong at h
  dsimp only at h
  split at h
  next => exact eq_of_unspelled (Except.ok.inj h)
  next => cases h
  next => cases h

/-- What is plain is taken as it is. -/
theorem eq_of_classify {t u : Text} (h : classify t = .ok (.plain u)) : u = t := by
  unfold classify at h
  split at h
  next => cases h
  next =>
    dsimp only at h
    split at h
    next => cases h
    next => exact eq_of_classifyLong h
    next c joined _ _ _ =>
      unfold classifyShort at h
      split at h
      next => cases h
      next => exact eq_of_unspelled (Except.ok.inj h)
    next => exact (Item.plain.inj (Except.ok.inj h)).symm

/-- Options leave the input alone. -/
theorem Draft.input_of_assign {d d' : Draft} {assignments : List Assignment}
    (h : d.assign assignments = .ok (some d')) : d'.input = d.input := by
  fun_induction Draft.assign d assignments with
  | case1 d =>
      obtain rfl := Option.some.inj (Except.ok.inj h)
      rfl
  | case2 => cases h
  | case3 d rest ih => exact ih h
  | case4 d rest ih => exact ih h
  | case5 d value rest ih => exact ih h
  | case6 d value rest ih => exact ih h
  | case7 d rest ih => exact ih h
  | case8 d value rest format hformat ih => exact ih h
  | case9 => cases h

/-- An option alone asks for no run. -/
theorem Draft.read_option_ne (o : Opt) (attached : Attached) (arguments : Arguments) :
    ({} : Draft).read [.option o attached] ≠ .ok (.lex arguments) := by
  intro h
  unfold Draft.read at h
  split at h
  next => cases h
  next taken _ =>
    split at h
    next =>
      split at h
      next => cases h
      next => cases h
      next d hassign =>
        have hinput := Draft.input_of_assign hassign
        rw [Draft.read, Draft.finish, hinput] at h
        cases h
    next hrest => cases hrest
    next => cases h

/-- An argument that is alone and asks for a run is the input. -/
theorem eq_of_read_single {name : Text} {arguments : Arguments}
    (h : read [name] = .ok (.lex arguments)) :
    arguments =
      { input := name, output := none, format := none, lenientStrings := false, config := none,
        debug := false } := by
  unfold read classifyAll at h
  split at h
  next => cases h
  next items hitems =>
    split at hitems
    next =>
      obtain rfl := Except.ok.inj hitems
      cases h
    next =>
      cases hclass : classify name with
      | error error =>
          rw [hclass] at hitems
          cases hitems
      | ok item =>
          rw [hclass] at hitems
          obtain rfl : [item] = items := Except.ok.inj hitems
          cases item with
          | plain t =>
              obtain rfl := eq_of_classify hclass
              exact (Invocation.lex.inj (Except.ok.inj h)).symm
          | separator => cases h
          | unknown t => cases h
          | option o attached => exact absurd h (Draft.read_option_ne o attached arguments)

end Usage

/-! ## Snippets -/

/-- A snippet starts with the message and the place. -/
theorem LexError.exists_format_eq (e : LexError) (filename : Text)
    (hcolumn : 1 ≤ e.position.column) :
    ∃ gutter rest, (∀ c ∈ gutter, c = ' ') ∧
      e.format filename =
        "error: " ++ e.message ++ "\n" ++ gutter ++ " --> " ++ filename ++ ":" ++
          Decimal.ofInt e.position.line ++ ":" ++ Decimal.ofInt e.position.column ++ "\n" ++
          rest := by
  let gutter := Text.copies (Decimal.ofInt e.position.line).length ' '
  refine ⟨gutter, List.intercalate ['\n']
    [ gutter ++ " |",
      Decimal.ofInt e.position.line ++ " | " ++ e.sourceLine,
      gutter ++ " | " ++ Text.copies e.indent ' ' ++ Text.copies e.underlineLength '^' ],
    fun c hc => List.eq_of_mem_replicate hc, ?_⟩
  rw [LexError.format, max_eq_right hcolumn]
  simp [List.intercalate, gutter]

/-! ## The run of a file -/

/-- The options of a run that is given nothing but a file. -/
def Options.ofFile (name : Text) : Options where
  input := Path.ofText name
  output := none
  format := .named .text
  lenientStrings := false
  debug := false

namespace Command

variable {tree : FileTree} {name t : Text} {arguments : Arguments}

theorem optionsIn_single (h : Usage.read [name] = .ok (.lex arguments))
    (hconfig : tree.isFile (Config.path arguments) = .ok false) :
    optionsIn tree arguments = .ok (.ofFile name) := by
  have hnone : (loadConfig FileTree.disk (Config.path arguments)).run tree = (.ok [], tree) := by
    rw [loadConfig, FileTree.disk_isFile_bind, hconfig]
    rfl
  rw [optionsIn, resolve_run_of_config hnone, Usage.eq_of_read_single h]
  rfl

/-- The input is lexed with its line ends unified. -/
theorem lexed_single (hfile : tree.read (Path.ofText name) = .ok (Utf8.encode t)) :
    Lexed tree (.ofFile name) (tokenize {} t.unifyNewlines) := by
  refine ⟨Utf8.encode t, t.unifyNewlines, hfile, ?_, rfl⟩
  rw [script, Utf8.decode_encode]

/-- What a run says about a file and what an editor is told of it come to the same: all is well,
or there is one error, and then the snippet starts with the message and the place of that error.
Places count from one here, and from zero in the editor. -/
structure Outcome.Agrees (outcome : Outcome) (file : Text) (diagnostics : List Diagnostic) :
    Prop where
  clean : outcome.ending = .exit 0 ↔ diagnostics = []
  faulty : outcome.ending = .exit 1 ↔ ∃ d, diagnostics = [d]
  snippet : ∀ d, diagnostics = [d] → ∃ gutter rest, (∀ c ∈ gutter, c = ' ') ∧
    outcome.stderr = "error: " ++ d.message ++ "\n" ++ gutter ++ " --> " ++ file ++ ":" ++
      Decimal.ofInt (d.line + 1) ++ ":" ++ Decimal.ofInt (d.startCharacter + 1) ++ "\n" ++ rest

theorem Outcome.agrees_of_clean {outcome : Outcome} (h : outcome.ending = .exit 0) (file : Text) :
    outcome.Agrees file [] where
  clean := by simp [h]
  faulty := by simp [h]
  snippet := by simp

theorem Outcome.agrees_of_error {e : LexError} {source file : Text} {d : Diagnostic}
    (h : tokenize {} source = .error e) (hmessage : d.message = e.message)
    (hplace : (d.line + 1, d.startCharacter + 1) = e.position.lineColumn) :
    Outcome.Agrees { stderr := e.format file ++ "\n", ending := .exit 1 } file [d] where
  clean := by simp
  faulty := by simp
  snippet := by
    rintro d' hd
    obtain rfl : d = d' := by simpa using hd
    obtain ⟨c, hoffends⟩ := exists_cut_of_error h
    have hcolumn : 1 ≤ e.position.column := by
      rw [hoffends.position]
      show (1 : Int) ≤ (c.before.lastLineLength : Int) + 1
      omega
    obtain ⟨gutter, rest, hgutter, hformat⟩ := e.exists_format_eq file hcolumn
    obtain ⟨hline, hcharacter⟩ := Prod.mk.inj hplace
    refine ⟨gutter, rest ++ "\n", hgutter, ?_⟩
    rw [hformat, hmessage, hline, hcharacter, List.append_assoc]

/-- A run agrees with any text that is refused like the input. -/
theorem run_agrees {source : Text} (h : Usage.read [name] = .ok (.lex arguments))
    (hconfig : tree.isFile (Config.path arguments) = .ok false)
    (hfile : tree.read (Path.ofText name) = .ok (Utf8.encode t))
    (hok : ∀ tokens, tokenize {} source = .ok tokens →
      ∃ tokens', tokenize {} t.unifyNewlines = .ok tokens')
    (herror : ∀ e, tokenize {} source = .error e →
      ∃ e', tokenize {} t.unifyNewlines = .error e' ∧ e'.message = e.message ∧
        e'.position.lineColumn = e.position.lineColumn) :
    ((run FileTree.disk [name]).run tree).1.Agrees (Path.ofText name).text
      (Diagnostic.ofText source) := by
  have hoptions := optionsIn_single h hconfig
  have hlexed := lexed_single hfile
  cases hsource : tokenize {} source with
  | ok tokens =>
      obtain ⟨tokens', hresult⟩ := hok tokens hsource
      rw [hresult] at hlexed
      rw [(Course.started h hoptions (.printed hlexed rfl)).run_eq,
        (Diagnostic.ofText_eq_nil_iff source).mpr ⟨tokens, hsource⟩]
      exact Outcome.agrees_of_clean rfl _
  | error e =>
      obtain ⟨e', hresult, hmessage, hplace⟩ := herror e hsource
      rw [hresult] at hlexed
      rw [(Course.started h hoptions (.refused hlexed)).run_eq,
        (Diagnostic.ofText_of_error hsource).1]
      refine Outcome.agrees_of_error hresult hmessage.symm ?_
      rw [hplace]
      show (e.position.line - 1 + 1, e.position.column - 1 + 1) = _
      rw [Int.sub_add_cancel, Int.sub_add_cancel]
      rfl

/-- **The command agrees with the editor up to line ends.** A run that is given nothing but a
file agrees with an editor that has the text of the file open with its line ends unified. It
agrees with an editor that has the text itself open, where carriage returns stand only in front
of line feeds and the editor complains of none of them. The command never does. -/
theorem run_agrees_with_editor {σ : Type} (tree : FileTree) (w : Workspace σ) (s : σ)
    (name uri t : Text) (arguments : Arguments) (h : Usage.read [name] = .ok (.lex arguments))
    (hconfig : tree.isFile (Config.path arguments) = .ok false)
    (hfile : tree.read (Path.ofText name) = .ok (Utf8.encode t)) :
    let outcome := ((run FileTree.disk [name]).run tree).1
    let published := fun text => (w.handle s (.opened uri text)).1.diagnostics
    outcome.Agrees (Path.ofText name).text (published t.unifyNewlines) ∧
      (t.ReturnsPaired → (∀ d ∈ published t, d.message ≠ LexError.strayReturn) →
        outcome.Agrees (Path.ofText name).text (published t)) ∧
      ∀ d ∈ published t.unifyNewlines, d.message ≠ LexError.strayReturn := by
  intro outcome published
  have hpublished : published = Diagnostic.ofText := by
    funext text
    show (w.handle s (.opened uri text)).1.diagnostics = _
    rw [Workspace.handle_fst]
    rfl
  rw [hpublished]
  refine ⟨?_, ?_, ?_⟩
  · exact run_agrees h hconfig hfile (fun tokens htokens => ⟨tokens, htokens⟩)
      fun e he => ⟨e, he, rfl, rfl⟩
  · intro hpaired hstray
    have hunified := Text.unifyNewlines_eq hpaired
    refine run_agrees h hconfig hfile ?_ ?_
    · intro tokens htokens
      rw [hunified]
      exact tokenize_withoutReturns_ok hpaired htokens
    · intro e he
      rw [hunified]
      refine tokenize_withoutReturns_error hpaired he ?_
      rw [(Diagnostic.ofText_of_error he).1] at hstray
      exact hstray (Diagnostic.ofLexError e) (by simp)
  · intro d hd
    cases hresult : tokenize {} t.unifyNewlines with
    | ok tokens =>
        rw [(Diagnostic.ofText_eq_nil_iff _).mpr ⟨tokens, hresult⟩] at hd
        cases hd
    | error e =>
        rw [(Diagnostic.ofText_of_error hresult).1] at hd
        obtain rfl : d = Diagnostic.ofLexError e := by simpa using hd
        exact message_ne_strayReturn hresult (Text.return_notMem_unifyNewlines t)

/-- A string over two lines, with a stray character behind it. -/
theorem run_agrees_with_editor_string :
    let t : Text := "\"\r\n\" @"
    let tree : FileTree :=
      { entries := [([("a.gml" : Text)], .file [0x22, 0x0d, 0x0a, 0x22, 0x20, 0x40])] }
    let outcome := ((run FileTree.disk ["a.gml"]).run tree).1
    tree.read (Path.ofText "a.gml") = .ok (Utf8.encode t) ∧ outcome.ending = .exit 1 ∧
      outcome.Agrees "a.gml"
        (Workspace.overlay.handle (fun _ => []) (.opened "a.gml" t)).1.diagnostics := by
  intro t tree outcome
  have hfile : tree.read (Path.ofText "a.gml") = .ok (Utf8.encode t) := rfl
  obtain ⟨-, hagrees, -⟩ :=
    run_agrees_with_editor tree .overlay (fun _ => []) "a.gml" "a.gml" t _ rfl rfl hfile
  exact ⟨hfile, by decide +kernel, hagrees (by decide) (by decide +kernel)⟩

/-- A lone carriage return is a line to the command and no token to the editor. -/
theorem lone_return_disagrees :
    let tree : FileTree := { entries := [([("a.gml" : Text)], .file [0x0d])] }
    let outcome := ((run FileTree.disk ["a.gml"]).run tree).1
    let arguments : Arguments :=
      { input := "a.gml", output := none, format := none, lenientStrings := false, config := none,
        debug := false }
    Usage.read ["a.gml"] = .ok (.lex arguments) ∧
      tree.isFile (Config.path arguments) = .ok false ∧
      tree.read (Path.ofText "a.gml") = .ok (Utf8.encode ['\r']) ∧
      ¬ outcome.Agrees "a.gml"
        (Workspace.overlay.handle (fun _ => []) (.opened "a.gml" ['\r'])).1.diagnostics := by
  intro tree outcome arguments
  refine ⟨rfl, rfl, rfl, ?_⟩
  intro hagrees
  have hexit : outcome.ending = .exit 0 := by decide +kernel
  have hnone := hagrees.clean.mp hexit
  exact absurd hnone (by decide +kernel)

end Command

end ScriptLex
