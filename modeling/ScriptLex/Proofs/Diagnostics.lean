import Mathlib.Data.List.DropRight
import ScriptLex.Proofs.Line
import ScriptLex.Proofs.Scan
import ScriptLex.Workspace

/-!
# What an editor is told

The publication for a step depends on the text of that step and on nothing before it. It is
empty if the text has tokens. Otherwise it marks the offending lexeme of the first error, all
of it and nothing else: a lexeme that offends has no line feed in it, and where the line that is
shown has lost its carriage returns the lexeme is one of them and still counts as one character.
-/

namespace ScriptLex

/-- Cutting off the end of a line leaves all up to a character that is not cut off. -/
theorem Text.length_le_trimEnd {c x : Char} (hx : x ≠ c) (a r : Text) :
    a.length + 1 ≤ ((a ++ x :: r).trimEnd c).length := by
  induction r using List.reverseRecOn with
  | nil =>
      rw [Text.trimEnd, ← List.rdropWhile, List.rdropWhile_concat_neg _ _ _ (by simpa using hx)]
      simp
  | append_singleton r y ih =>
      have hconcat : a ++ x :: (r ++ [y]) = (a ++ x :: r) ++ [y] := by simp
      by_cases hy : y = c
      · rw [hconcat, Text.trimEnd, ← List.rdropWhile,
          List.rdropWhile_concat_pos _ _ _ (by simpa using hy)]
        exact ih
      · rw [hconcat, Text.trimEnd, ← List.rdropWhile,
          List.rdropWhile_concat_neg _ _ _ (by simpa using hy)]
        simp

/-! ## The range of an error -/

namespace Diagnostic

/-- The diagnostic says what the error says, and marks its lexeme: a range on one line of the
text, not empty, with exactly the characters that the error spans. -/
structure Marks (text : Text) (e : LexError) (d : Diagnostic) : Prop where
  severity : d.severity = .error
  message : d.message = e.message
  code : d.code = e.cause.code
  line_nonneg : 0 ≤ d.line
  line_lt : d.line < text.lines.length
  start_nonneg : 0 ≤ d.startCharacter
  start_lt_end : d.startCharacter < d.endCharacter
  range : ∃ line, text.lines[d.line.toNat]? = some line ∧ d.endCharacter ≤ line.length ∧
    line.slice d.startCharacter d.endCharacter =
      text.slice e.position.offset (e.position.offset + e.length)

end Diagnostic

variable {mode : Mode} {before tail : Text} {e : LexError}

theorem Offends.sourceLine_eq (h : Offends mode before tail e) :
    e.sourceLine = (before.lastLine ++ tail.takeWhile (· ≠ '\n')).trimEnd '\r' := by
  have hline : e.position.line = 1 + before.count '\n' := by rw [h.position]; rfl
  have hpos : 0 < e.position.line := by omega
  have hindex : (e.position.line - 1).toNat = before.count '\n' := by omega
  rw [LexError.sourceLine, if_pos hpos, hindex, h.source, Text.getElem?_lines]

/-- The carets cover the lexeme. -/
theorem Offends.underlineLength_eq (h : Offends mode before tail e) :
    e.underlineLength = e.length := by
  obtain ⟨lexeme, rest, rfl, hlength, hfeed, hreturn⟩ := h.exists_lexeme
  have hcolumn : e.position.column = before.lastLine.length + 1 := by
    rw [h.position, Text.length_lastLine]
    rfl
  have hpos := e.length_pos
  rw [LexError.underlineLength, hcolumn]
  rcases hreturn with hone | hreturn
  · simp only [hone]
    omega
  · -- the last character of the lexeme is no carriage return, so nothing of it is cut off
    obtain ⟨init, x, rfl⟩ : ∃ init x, lexeme = init ++ [x] := by
      refine List.eq_nil_or_concat' lexeme |>.resolve_left ?_
      rintro rfl
      simp at hlength
      omega
    have hx : x ≠ '\r' := by
      rintro rfl
      exact hreturn (by simp)
    have htake : ((init ++ [x]) ++ rest).takeWhile (· ≠ '\n') =
        init ++ x :: rest.takeWhile (· ≠ '\n') := by
      rw [List.takeWhile_append_of_pos (Text.all_ne_lineFeed hfeed)]
      simp
    have hshown := Text.length_le_trimEnd hx (before.lastLine ++ init)
      (rest.takeWhile (· ≠ '\n'))
    rw [List.append_assoc, ← htake, ← h.sourceLine_eq, List.length_append] at hshown
    rw [List.length_append, List.length_singleton] at hlength
    omega

/-- **The range of an error.** -/
theorem Offends.marks (h : Offends mode before tail e) :
    (Diagnostic.ofLexError e).Marks (before ++ tail) e := by
  have hunderline := h.underlineLength_eq
  obtain ⟨lexeme, rest, rfl, hlength, hfeed, -⟩ := h.exists_lexeme
  have hpos := e.length_pos
  have hline : (Diagnostic.ofLexError e).line = before.count '\n' := by
    show e.position.line - 1 = _
    rw [h.position]
    show 1 + (before.count '\n' : Int) - 1 = _
    omega
  have hstart : (Diagnostic.ofLexError e).startCharacter = before.lastLine.length := by
    show e.position.column - 1 = _
    rw [h.position, Text.length_lastLine]
    show (before.lastLineLength : Int) + 1 - 1 = _
    omega
  have hend : (Diagnostic.ofLexError e).endCharacter = (before.lastLine ++ lexeme).length := by
    show (Diagnostic.ofLexError e).startCharacter + e.underlineLength = _
    rw [hstart, hunderline, List.length_append, hlength]
    omega
  have hoffset : e.position.offset = before.length := by
    rw [h.position]
    rfl
  have hbehind : e.position.offset + e.length = (before ++ lexeme).length := by
    rw [hoffset, List.length_append, hlength]
    omega
  have htake : (lexeme ++ rest).takeWhile (· ≠ '\n') = lexeme ++ rest.takeWhile (· ≠ '\n') :=
    List.takeWhile_append_of_pos (Text.all_ne_lineFeed hfeed)
  refine ⟨rfl, rfl, rfl, ?_, ?_, ?_, ?_, before.lastLine ++ (lexeme ++ rest.takeWhile (· ≠ '\n')),
    ?_, ?_, ?_⟩
  · rw [hline]
    omega
  · rw [hline, Text.length_lines, List.count_append]
    omega
  · rw [hstart]
    omega
  · rw [hstart, hend, List.length_append]
    omega
  · rw [hline, Int.toNat_natCast, Text.getElem?_lines, htake]
  · rw [hend]
    simp only [List.length_append]
    omega
  · rw [hstart, hend, Text.slice_append, hbehind, hoffset, Text.slice_append]

/-! ## The diagnostics of a text -/

namespace Diagnostic

theorem ofText_eq_nil_iff (text : Text) :
    ofText text = [] ↔ ∃ tokens, tokenize {} text = .ok tokens := by
  rw [ofText]
  cases tokenize {} text with
  | ok tokens => simp
  | error e => simp

theorem ofText_of_error {text : Text} {e : LexError} (h : tokenize {} text = .error e) :
    ofText text = [ofLexError e] ∧ (ofLexError e).Marks text e := by
  obtain ⟨c, hoffends⟩ := exists_cut_of_error h
  have hmarks := hoffends.marks
  rw [c.before_append_tail] at hmarks
  refine ⟨?_, hmarks⟩
  rw [ofText, h]

end Diagnostic

/-! ## Steps -/

/-- The document that a step is about. -/
def DocumentEvent.uri : DocumentEvent → Text
  | .opened uri _ | .changed uri _ => uri

/-- The text that a step brings. -/
def DocumentEvent.text : DocumentEvent → Text
  | .opened _ text | .changed _ text => text

namespace Workspace

variable {σ : Type}

/-- One step: whatever is stored, the answer depends on the step alone. -/
theorem handle_fst (w : Workspace σ) (s : σ) (event : DocumentEvent) :
    (w.handle s event).1 = ⟨event.uri, Diagnostic.ofText event.text⟩ := by
  cases event with
  | opened uri text =>
      show w.validate (w.store s uri text) uri = _
      rw [validate, w.text_store]
      rfl
  | changed uri text =>
      show w.validate (w.store s uri text) uri = _
      rw [validate, w.text_store]
      rfl

theorem handleAll_eq_map (w : Workspace σ) (s : σ) (events : List DocumentEvent) :
    w.handleAll s events =
      events.map fun event => ⟨event.uri, Diagnostic.ofText event.text⟩ := by
  induction events generalizing s with
  | nil => rfl
  | cons event events ih =>
      rw [List.map_cons, ← ih (w.handle s event).2, ← handle_fst w s event]
      rfl

/-- **Diagnostics are the first error of the text.** Whatever keeps the documents, and whatever
it has stored before, each step is answered by one publication, for its own document, and what
that says depends on the text of the step alone. It is empty exactly if the text has tokens;
otherwise it is one diagnostic, which marks the error that lexing the text ends with. -/
theorem handleAll_publishes (w : Workspace σ) (s : σ) (events : List DocumentEvent) :
    w.handleAll s events =
      events.map (fun event => ⟨event.uri, Diagnostic.ofText event.text⟩) ∧
    ∀ text, (Diagnostic.ofText text = [] ↔ ∃ tokens, tokenize {} text = .ok tokens) ∧
      ∀ e, tokenize {} text = .error e →
        ∃ d, Diagnostic.ofText text = [d] ∧ d.Marks text e := by
  refine ⟨handleAll_eq_map w s events, ?_⟩
  intro text
  refine ⟨Diagnostic.ofText_eq_nil_iff text, ?_⟩
  intro e herror
  exact ⟨_, Diagnostic.ofText_of_error herror⟩

/-- A document is opened and then changed. The line that is shown of its last text ends before
the carriage return that offends, and still one character of the line is marked. -/
theorem handleAll_publishes_return :
    let text : Text := "a\n b\r\r\n"
    let e : LexError :=
      { cause := .unknownToken
        message := "unknown token '\\r'"
        position := ⟨2, 3, 4⟩
        source := text
        length := 1 }
    tokenize {} text = .error e ∧
      ∃ d, overlay.handleAll (fun _ => []) [.opened "a" "b", .changed "a" text] =
        [⟨"a", []⟩, ⟨"a", [d]⟩] ∧ d.Marks text e := by
  intro text e
  have herror : tokenize {} text = .error e := by decide +kernel
  have hclean : ∃ tokens, tokenize {} ("b" : Text) = .ok tokens :=
    ⟨[⟨⟨.identifier, 1, 1⟩, some ['b']⟩, ⟨⟨.endOfInput, 1, 2⟩, none⟩], by decide +kernel⟩
  obtain ⟨hpublished, hmarks⟩ :=
    handleAll_publishes overlay (fun _ => []) [.opened "a" "b", .changed "a" text]
  obtain ⟨d, hd, hmarked⟩ := (hmarks text).2 e herror
  refine ⟨herror, d, ?_, hmarked⟩
  simp only [hpublished, List.map_cons, List.map_nil, DocumentEvent.uri, DocumentEvent.text,
    (hmarks "b").1.mpr hclean, hd]

end Workspace

end ScriptLex
