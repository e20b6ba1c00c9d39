import ScriptLex.Proofs.Diagnostics
import ScriptLex.Proofs.Escape
import ScriptLex.Proofs.Newline

/-!
# Snippets

The snippet of an error shows the line that the error is on and marks the offending lexeme under
it. The line is shown without the carriage returns that end it, and yet the mark is in the right
place: a lexeme that is cut off with them is one carriage return, the first of those that end the
line, since neither a lexeme nor a gap in front of it ends in one.
-/

namespace ScriptLex

open Gap (IsGap)

/-! ## Ends of lines -/

namespace Text

theorem lines_intercalate {ls : List Text} (hne : ls ≠ []) (h : ∀ l ∈ ls, '\n' ∉ l) :
    lines (List.intercalate ['\n'] ls) = ls := by
  induction ls with
  | nil => exact absurd rfl hne
  | cons l ls ih =>
      have hl : '\n' ∉ l := h l List.mem_cons_self
      cases ls with
      | nil => rw [List.intercalate_singleton, lines_of_notMem hl]
      | cons m ls =>
          rw [List.intercalate_cons_cons, List.append_assoc, List.singleton_append, lines_append,
            lines_of_notMem hl, ih (by simp) fun k hk => h k (List.mem_cons_of_mem l hk)]
          rfl

theorem trimEnd_prefix (c : Char) (t : Text) : t.trimEnd c <+: t :=
  List.rdropWhile_prefix _ t

/-- Copies of a character are all cut off, and nothing else if there is no more of it. -/
theorem trimEnd_append_copies {c : Char} {t : Text} (h : t.getLast? ≠ some c) (n : Nat) :
    (t ++ copies n c).trimEnd c = t := by
  have hcopies : ∀ x ∈ List.replicate n c, decide (x = c) = true := by
    intro x hx
    exact decide_eq_true (List.eq_of_mem_replicate hx)
  rw [trimEnd, List.reverse_append, List.reverse_replicate, List.dropWhile_append_of_pos hcopies]
  rcases List.eq_nil_or_concat' t with rfl | ⟨init, x, rfl⟩
  · rfl
  · have hx : x ≠ c := by
      rintro rfl
      exact h List.getLast?_concat
    rw [List.reverse_append, List.reverse_singleton, List.singleton_append,
      List.dropWhile_cons_of_neg (by simpa using hx), List.reverse_cons, List.reverse_reverse]

theorem getLast?_of_lastLine {t : Text} {c : Char} (h : t.lastLine.getLast? = some c) :
    t.getLast? = some c := by
  rcases lastLine_cases t with hnone | ⟨a, b, rfl, hb⟩
  · rwa [lastLine_of_notMem hnone] at h
  · rw [lastLine_append a hb] at h
    rw [List.getLast?_append, List.getLast?_cons, h]
    rfl

/-- A start of a text has the same slices as far as it goes. -/
theorem slice_of_prefix {p t : Text} (h : p <+: t) (m : Nat) {n : Nat} (hn : n ≤ p.length) :
    p.slice m n = t.slice m n := by
  obtain ⟨s, rfl⟩ := h
  rw [slice_natCast, slice_natCast, List.take_append_of_le_length hn]

/-- From the offset on there are only carriage returns up to the end of the line, and one at
least. -/
def ReturnsToLineEnd (t : Text) (offset : Int) : Prop :=
  ∃ n, (t.drop offset.toNat).takeWhile (· ≠ '\n') = copies (n + 1) '\r'

end Text

/-! ## What stands in front of an error -/

/-- A gap that ends in a carriage return ends in a line comment, which goes on to the end of its
line. -/
theorem Gap.IsGap.head?_of_getLast? {gap after : Text} (h : IsGap gap after)
    (hlast : gap.getLast? = some '\r') : ∀ c ∈ after.head?, c = '\n' := by
  induction h with
  | nil => cases hlast
  | @cons piece gap after hpiece hgap ih =>
      by_cases hnil : gap = []
      · subst hnil
        rw [List.append_nil] at hlast
        cases hpiece with
        | @blank c _ hc =>
            obtain rfl : c = '\r' := by simpa using hlast
            exact absurd hc (by decide)
        | @blockComment body => simp [List.getLast?_cons] at hlast
        | lineComment hbody =>
            intro c hc
            simpa using hbody.stop c hc
      · rw [List.getLast?_append_of_ne_nil _ hnil] at hlast
        exact ih hlast

theorem IsLexeme.getLast?_ne_return {join : Bool} {lexeme after : Text} {kind : Kind}
    {value : Option Text} (h : IsLexeme join lexeme kind value after) :
    lexeme.getLast? ≠ some '\r' := by
  rcases h.string_or_return_notMem with ⟨-, delim, body, -, hdelim, -, rfl⟩ | hnone
  · have hne : delim ≠ '\r' := ne_of_class hdelim (by decide)
    rw [← List.cons_append, List.getLast?_concat]
    simpa using hne
  · intro hlast
    exact hnone (List.mem_of_getLast? hlast)

variable {mode : Mode} {source before tail : Text} {e : LexError}

/-- Nothing in front of what offends ends in a carriage return. -/
theorem Cut.getLast?_before_ne_return {c : Cut mode.joinElseIf source}
    (h : Offends mode c.before c.tail e) : c.before.getLast? ≠ some '\r' := by
  intro hlast
  rw [Cut.before] at hlast
  by_cases hnil : c.gap = []
  · rw [hnil, List.append_nil] at hlast
    obtain ⟨s, hs, hlexeme⟩ := c.allCut.exists_isCut_of_getLast? hlast
    exact hs.lexeme.getLast?_ne_return hlexeme
  · rw [List.getLast?_append_of_ne_nil _ hnil] at hlast
    obtain ⟨lexeme, rest, htail, hlength, hfeed, -⟩ := h.exists_lexeme
    have hpos := e.length_pos
    cases lexeme with
    | nil =>
        rw [List.length_nil] at hlength
        omega
    | cons x lexeme =>
        have hx : x = '\n' :=
          c.isGap.head?_of_getLast? hlast x (by rw [htail]; rfl)
        exact hfeed (by rw [hx]; exact List.mem_cons_self)

/-! ## The line that is shown -/

theorem Offends.drop_offset (h : Offends mode before tail e) :
    e.source.drop e.position.offset.toNat = tail := by
  have hoffset : e.position.offset = before.length := by
    rw [h.position]
    rfl
  rw [h.source, hoffset, Int.toNat_natCast, List.drop_left]

theorem Offends.column_eq (h : Offends mode before tail e) :
    e.position.column = before.lastLine.length + 1 := by
  rw [h.position, Text.length_lastLine]
  rfl

/-- A line that does not go on with carriage returns alone has another character somewhere: it
goes on with the lexeme at least. -/
theorem Offends.exists_of_not_returns (h : Offends mode before tail e)
    (hnot : ¬ e.source.ReturnsToLineEnd e.position.offset) :
    ∃ c ∈ tail.takeWhile (· ≠ '\n'), c ≠ '\r' := by
  by_contra hall
  push Not at hall
  apply hnot
  rw [Text.ReturnsToLineEnd, h.drop_offset]
  obtain ⟨lexeme, rest, rfl, hlength, hfeed, -⟩ := h.exists_lexeme
  have hpos := e.length_pos
  refine ⟨((lexeme ++ rest).takeWhile (· ≠ '\n')).length - 1, ?_⟩
  rw [List.eq_replicate_iff]
  refine ⟨?_, hall⟩
  rw [List.takeWhile_append_of_pos (Text.all_ne_lineFeed hfeed), List.length_append]
  omega

/-- The shown line has all of the lexeme if any character from there on is no carriage
return. -/
theorem Offends.length_le_sourceLine (h : Offends mode before tail e)
    (hshown : ∃ c ∈ tail.takeWhile (· ≠ '\n'), c ≠ '\r') :
    before.lastLine.length + e.length ≤ e.sourceLine.length := by
  by_cases hone : e.length = 1
  · obtain ⟨c, hc, hreturn⟩ := hshown
    obtain ⟨u, v, hsplit⟩ := List.append_of_mem hc
    have hlength := Text.length_le_trimEnd hreturn (before.lastLine ++ u) v
    rw [List.append_assoc, ← hsplit, ← h.sourceLine_eq, List.length_append] at hlength
    omega
  · -- a longer lexeme would have fewer carets if it were not shown
    have hunderline := h.underlineLength_eq
    have hcolumn := h.column_eq
    have hpos := e.length_pos
    rw [LexError.underlineLength] at hunderline
    omega

/-- The shown line has the lexeme where the column says. -/
theorem Offends.slice_sourceLine (h : Offends mode before tail e)
    (hshown : ∃ c ∈ tail.takeWhile (· ≠ '\n'), c ≠ '\r') :
    e.sourceLine.slice (e.position.column - 1) (e.position.column - 1 + e.length) =
      (before ++ tail).slice e.position.offset (e.position.offset + e.length) := by
  have hcolumn : e.position.column - 1 = (before.lastLine.length : Nat) := by
    rw [h.column_eq]
    omega
  have hend : (before.lastLine.length : Int) + e.length =
      (before.lastLine.length + e.length : Nat) := by omega
  obtain ⟨line, hline, -, hslice⟩ := h.marks.range
  have hstart : (Diagnostic.ofLexError e).startCharacter = e.position.column - 1 := rfl
  have hstop : (Diagnostic.ofLexError e).endCharacter =
      e.position.column - 1 + e.underlineLength := rfl
  have htrim : e.sourceLine = line.trimEnd '\r' := by
    have hpos : 0 < e.position.line := by
      have hnonneg : 0 ≤ e.position.line - 1 := h.marks.line_nonneg
      omega
    have hline' : (before ++ tail).lines[(e.position.line - 1).toNat]? = some line := hline
    rw [LexError.sourceLine, if_pos hpos, h.source, hline']
  rw [← hslice, hstart, hstop, h.underlineLength_eq, hcolumn, hend, htrim]
  apply Text.slice_of_prefix (Text.trimEnd_prefix '\r' line)
  rw [← htrim]
  exact h.length_le_sourceLine hshown

/-- A lexeme that is not shown is a carriage return, and all of the line in front of it is
shown. -/
theorem Offends.of_returns {n : Nat} (h : Offends mode before tail e)
    (hbefore : before.getLast? ≠ some '\r')
    (hreturns : tail.takeWhile (· ≠ '\n') = Text.copies (n + 1) '\r') :
    e.sourceLine = before.lastLine ∧ e.length = 1 := by
  constructor
  · have hlast : before.lastLine.getLast? ≠ some '\r' :=
      fun hlast => hbefore (Text.getLast?_of_lastLine hlast)
    rw [h.sourceLine_eq, hreturns, Text.trimEnd_append_copies hlast]
  · obtain ⟨lexeme, rest, rfl, hlength, hfeed, hone | hreturn⟩ := h.exists_lexeme
    · exact hone
    · rw [List.takeWhile_append_of_pos (Text.all_ne_lineFeed hfeed)] at hreturns
      have hpos := e.length_pos
      cases lexeme with
      | nil =>
          rw [List.length_nil] at hlength
          omega
      | cons x lexeme =>
          obtain ⟨rfl, -⟩ := List.cons.inj hreturns
          exact absurd List.mem_cons_self hreturn

/-! ## Five lines -/

theorem Offends.lineFeed_notMem_message (h : Offends mode before tail e) : '\n' ∉ e.message := by
  have hreason := h.reason
  split at hreason
  next => rw [hreason.1]; decide
  next => rw [hreason.1]; decide
  next => rw [hreason.1]; decide
  next =>
    obtain ⟨c, hmessage, -⟩ := hreason
    rw [hmessage, List.mem_append, not_or]
    exact ⟨by decide, Quoted.lineFeed_notMem_quote [c]⟩
  next => exact hreason.elim
  next => exact hreason.elim

theorem Offends.lineFeed_notMem_sourceLine (h : Offends mode before tail e) :
    '\n' ∉ e.sourceLine := by
  rw [h.sourceLine_eq]
  intro hfeed
  have hmem := (Text.trimEnd_prefix '\r' _).subset hfeed
  rcases List.mem_append.mp hmem with hlast | hrest
  · rw [Text.lastLine, List.mem_reverse] at hlast
    simpa using List.mem_takeWhile_imp hlast
  · simpa using List.mem_takeWhile_imp hrest

namespace LexError

theorem lines_format {filename : Text} (hname : '\n' ∉ filename) (hmessage : '\n' ∉ e.message)
    (hline : '\n' ∉ e.sourceLine) :
    let line := Decimal.ofInt e.position.line
    let gutter := Text.copies line.length ' '
    (e.format filename).lines =
      [ "error: " ++ e.message,
        gutter ++ " --> " ++ filename ++ ':' :: line ++
          ':' :: Decimal.ofInt (max 1 e.position.column),
        gutter ++ " |",
        line ++ " | " ++ e.sourceLine,
        gutter ++ " | " ++ Text.copies e.indent ' ' ++ Text.copies e.underlineLength '^' ] := by
  intro line gutter
  have hnumeral : ∀ n, '\n' ∉ Decimal.ofInt n := Decimal.notMem_ofInt (by decide) (by decide)
  rw [format, Text.lines_intercalate (by simp)]
  simp only [List.forall_mem_cons]
  refine ⟨?_, ?_, ?_, ?_, ?_, by simp⟩
  · simpa using hmessage
  · simp [hname, hnumeral]
  · simp
  · simp [hline, hnumeral]
  · simp

/-- One line under another: `shown` ends with the line of the error, and behind `blanks` is the
place under the column of the error. There is no caret before that. -/
structure Aligned (e : LexError) (shown blanks : Text) : Prop where
  margin : ∃ margin, shown = margin ++ e.sourceLine ∧
    (blanks.length : Int) = margin.length + (e.position.column - 1)
  caret_notMem : '^' ∉ blanks

/-- **Snippets point at the offending text.** The carets are as many as the lexeme has characters.
The snippet has five lines, and the run of carets in the last of them starts where the one above
shows the column of the error. There the lexeme is shown, unless it is a carriage return with
nothing but carriage returns behind it on its line: then the shown line ends in front of it, and
the one caret stands just behind that. -/
theorem format_points_at_lexeme (mode : Mode) (source filename : Text) (e : LexError)
    (herror : tokenize mode source = .error e) (hname : '\n' ∉ filename) :
    e.underlineLength = e.length ∧
    ∃ message place rule shown blanks : Text,
      (e.format filename).lines =
        [message, place, rule, shown, blanks ++ Text.copies e.length '^'] ∧
      e.Aligned shown blanks ∧
      (¬ source.ReturnsToLineEnd e.position.offset →
        e.sourceLine.slice (e.position.column - 1) (e.position.column - 1 + e.length) =
          source.slice e.position.offset (e.position.offset + e.length)) ∧
      (source.ReturnsToLineEnd e.position.offset →
        (e.sourceLine.length : Int) = e.position.column - 1 ∧ e.length = 1 ∧
          blanks.length = shown.length) := by
  obtain ⟨c, h⟩ := exists_cut_of_error herror
  have hunderline := h.underlineLength_eq
  have hcolumn := h.column_eq
  have hindent : (e.indent : Int) = e.position.column - 1 := by
    rw [indent]
    omega
  have hsource : e.source = source := by rw [h.source, c.before_append_tail]
  have hlines := lines_format hname h.lineFeed_notMem_message h.lineFeed_notMem_sourceLine
  rw [hunderline] at hlines
  refine ⟨hunderline, _, _, _, _, _, hlines, ⟨⟨_, rfl, ?_⟩, ?_⟩, ?_, ?_⟩
  · simp only [List.length_append, List.length_replicate]
    omega
  · simp
  · intro hnot
    rw [← hsource] at hnot
    rw [← c.before_append_tail]
    exact h.slice_sourceLine (h.exists_of_not_returns hnot)
  · rintro ⟨n, hreturns⟩
    rw [← hsource, h.drop_offset] at hreturns
    obtain ⟨hshown, hone⟩ := h.of_returns (Cut.getLast?_before_ne_return h) hreturns
    have hlength : (e.sourceLine.length : Int) = e.position.column - 1 := by
      rw [hshown]
      omega
    refine ⟨hlength, hone, ?_⟩
    simp only [List.length_append, List.length_replicate]
    omega

/-- Of two carriage returns that end a line the first is refused, and the line is shown up to
there. -/
theorem format_points_at_return :
    let source : Text := "a\n b\r\r\n"
    let e : LexError :=
      { cause := .unknownToken
        message := "unknown token '\\r'"
        position := ⟨2, 3, 4⟩
        source := source
        length := 1 }
    tokenize {} source = .error e ∧ source.ReturnsToLineEnd 4 ∧
      ∃ message place rule shown blanks : Text,
        (e.format "a.gml").lines = [message, place, rule, shown, blanks ++ ['^']] ∧
          blanks.length = shown.length := by
  intro source e
  have herror : tokenize {} source = .error e := by decide +kernel
  have hreturns : source.ReturnsToLineEnd 4 := ⟨1, by decide +kernel⟩
  obtain ⟨-, message, place, rule, shown, blanks, hlines, -, -, hreturn⟩ :=
    format_points_at_lexeme {} source "a.gml" e herror (by decide)
  exact ⟨herror, hreturns, message, place, rule, shown, blanks, hlines, (hreturn hreturns).2.2⟩

end LexError

end ScriptLex
