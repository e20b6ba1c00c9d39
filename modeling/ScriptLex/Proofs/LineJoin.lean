import ScriptLex.Proofs.Lookahead
import ScriptLex.Proofs.Scan

/-!
# Joining sources at a line feed

A line feed is a point where lexing starts afresh. If the text before it has tokens of its
own, then the joined source has these, the line feed, and what the text behind it has by
itself, further down: its tokens, or its error.
-/

namespace ScriptLex

/-- A token `lines` lines further down. -/
def ValuedToken.below (lines : Int) (t : ValuedToken) : ValuedToken :=
  { t with token := { t.token with line := t.token.line + lines } }

/-- The second error shows what the first one shows, `lines` lines and `chars` characters
further down. -/
structure LexError.Below (lines chars : Int) (e e' : LexError) : Prop where
  cause : e'.cause = e.cause
  message : e'.message = e.message
  length : e'.length = e.length
  column : e'.position.column = e.position.column
  sourceLine : e'.sourceLine = e.sourceLine
  underlineLength : e'.underlineLength = e.underlineLength
  line : e'.position.line = e.position.line + lines
  offset : e'.position.offset = e.position.offset + chars

/-! ## The place behind a line feed -/

/-- The number that a line of the text behind `a` and a line feed has in the whole. -/
theorem Text.line_append_lineFeed (a : Text) (line : Int) :
    1 + ((a ++ ['\n']).count '\n' : Int) + line - 1 = line + (1 + a.count '\n') := by
  rw [List.count_append, List.count_singleton_self]
  omega

theorem Text.lastLineLength_append_lineFeed (a : Text) :
    Text.lastLineLength (a ++ ['\n']) = 0 := by
  rw [Text.lastLineLength_concat, if_pos rfl]

theorem ValuedToken.moved_append_lineFeed (a : Text) :
    ValuedToken.moved (1 + (a ++ ['\n']).count '\n') (a ++ ['\n']).lastLineLength =
      ValuedToken.below (1 + a.count '\n') := by
  funext t
  rw [moved, below, Text.line_append_lineFeed, Text.lastLineLength_append_lineFeed]
  simp

theorem Position.moved_append_lineFeed (a : Text) (p : Position) :
    p.moved (1 + (a ++ ['\n']).count '\n') (a ++ ['\n']).lastLineLength (a ++ ['\n']).length =
      ⟨p.line + (1 + a.count '\n'), p.column, p.offset + (a.length + 1)⟩ := by
  rw [moved, Text.line_append_lineFeed, Text.lastLineLength_append_lineFeed]
  simp

/-- The lines of the joined source are those of `a`, and then those of `b`. -/
theorem LexError.sourceLine_joined (e e' : LexError) {a b : Text} (hsource : e.source = b)
    (hsource' : e'.source = a ++ '\n' :: b) (hpos : 0 < e.position.line)
    (hline : e'.position.line = e.position.line + (1 + a.count '\n')) :
    e'.sourceLine = e.sourceLine := by
  have hpos' : 0 < e'.position.line := by omega
  have hindex : (e'.position.line - 1).toNat =
      a.lines.length + (e.position.line - 1).toNat := by
    rw [hline, Text.length_lines]
    omega
  rw [sourceLine, sourceLine, if_pos hpos, if_pos hpos', hsource, hsource', Text.lines_append,
    hindex, List.getElem?_append_right (Nat.le_add_right _ _), Nat.add_sub_cancel_left]

/-- An error of `b` is found below, where `b` stands behind `a` and a line feed. -/
theorem LexError.below_moved {e : LexError} {before a b : Text} (hsource : e.source = b)
    (hposition : e.position = Position.behind before) :
    LexError.Below (1 + a.count '\n') (a.length + 1) e
      (e.moved (1 + (a ++ ['\n']).count '\n') (a ++ ['\n']).lastLineLength
        (a ++ ['\n']).length (a ++ ['\n'] ++ b)) := by
  have hmoved := Position.moved_append_lineFeed a e.position
  have hpos : 0 < e.position.line := by
    rw [hposition]
    show 0 < 1 + (before.count '\n' : Int)
    omega
  have hsourceLine := LexError.sourceLine_joined e (e.moved _ _ _ _) hsource
    (List.append_assoc a ['\n'] b) hpos (congrArg Position.line hmoved)
  have hcolumn := congrArg Position.column hmoved
  refine ⟨rfl, rfl, rfl, hcolumn, hsourceLine, ?_, congrArg Position.line hmoved,
    congrArg Position.offset hmoved⟩
  rw [underlineLength, underlineLength, hsourceLine]
  rw [show (e.moved _ _ _ _).position.column = e.position.column from hcolumn]
  rfl

/-! ## Cuts of joined sources -/

theorem isLexeme_lineFeed (join : Bool) (after : Text) :
    IsLexeme join ['\n'] .lineFeed none after := by
  have hlongest : Symbol.Longest Symbol.script ⟨['\n'], .lineFeed⟩ ('\n' :: after) := by
    refine ⟨Symbol.script_lineFeed, List.prefix_append ['\n'] after, ?_⟩
    intro s hs hstarts
    obtain ⟨c, r, hpattern, -⟩ := Symbol.script_head hs
    rw [hpattern] at hstarts
    obtain ⟨rfl, -⟩ := List.cons_prefix_cons.mp hstarts
    rw [Symbol.script_newline s hs (by simp [hpattern])]
  exact .symbol hlongest (by simp) (by simp)

namespace Cut

variable {join : Bool} {a b : Text}

theorem before_eq_source (c : Cut join a) (hc : c.tail = []) : c.before = a := by
  have ha := c.before_append_tail
  rwa [hc, List.append_nil] at ha

/-- The line feed between two sources is a lexeme, and the last gap of the first one stands
before it. -/
def joinLines (c : Cut join a) (hc : c.tail = []) (d : Cut join b) :
    Cut join (a ++ '\n' :: b) where
  segments := c.segments ++ ⟨c.gap, ['\n'], .lineFeed, none⟩ :: d.segments
  gap := d.gap
  tail := d.tail
  source_eq := by
    have ha := c.before_eq_source hc
    nth_rewrite 1 [← ha, d.source_eq]
    simp [before, Segment.text]
  allCut := by
    have hgap := c.isGap
    have hcut := c.allCut
    rw [hc] at hgap hcut
    rw [List.append_nil] at hcut
    refine Segment.allCut_append.mpr ⟨?_, ⟨?_, isLexeme_lineFeed join _⟩, d.allCut⟩
    · -- the segments of `a` do not see what stands behind the line feed
      rw [Segment.texts_cons, Segment.text]
      simpa using hcut.append_lineFeed _
    · exact hgap.of_firstLineIn (Text.append_lineFeed_firstLineIn [] _)
  isGap := d.isGap

theorem before_joinLines (c : Cut join a) (hc : c.tail = []) (d : Cut join b) :
    (c.joinLines hc d).before = (a ++ ['\n']) ++ d.before := by
  have hjoined : (c.joinLines hc d).before = (c.before ++ ['\n']) ++ d.before := by
    simp [before, joinLines, Segment.text]
  rw [hjoined, before_eq_source c hc]

/-- The stream of the joined source. -/
theorem stream_joinLines (c : Cut join a) (hc : c.tail = []) (d : Cut join b) :
    (c.joinLines hc d).stream =
      Segment.tokens [] c.segments ++
        .startingAt (Position.behind c.before) .lineFeed none ::
          d.stream.map (.below (1 + a.count '\n')) := by
  have hbelow := ValuedToken.moved_append_lineFeed a
  -- the line feed leaves nothing on the line, so the segments of `d` keep their columns
  have htokens : Segment.tokens (a ++ ['\n']) d.segments =
      (Segment.tokens [] d.segments).map (.below (1 + a.count '\n')) := by
    rw [← hbelow, ← Segment.tokens_behind, List.append_nil]
  have hseen : Segment.texts c.segments ++ (c.gap ++ ['\n']) = a ++ ['\n'] := by
    rw [← List.append_assoc, ← before, before_eq_source c hc]
  have hsegments : Segment.tokens [] (c.joinLines hc d).segments =
      Segment.tokens [] c.segments ++ .startingAt (Position.behind c.before) .lineFeed none ::
        Segment.tokens (a ++ ['\n']) d.segments := by
    rw [joinLines, Segment.tokens_append, List.nil_append, Segment.tokens, Segment.text, hseen]
    rfl
  rw [stream, hsegments, before_joinLines, ValuedToken.startingAt_behind_append, hbelow,
    htokens, stream, List.map_append]
  simp

end Cut

/-! ## Lexing joined sources -/

/-- **A line feed synchronises.** If `a` has tokens, no string of it being left open, then a
line feed behind `a` is a token at the place where `a` ended. Before it stand the tokens of
`a`, behind it those of `b`, as many lines further down as there are before `b`. If `b` is
refused, the joined source is refused with the same error, further down. -/
theorem tokenize_append_lineFeed (mode : Mode) (a b : Text) (tokens : List ValuedToken)
    (h : tokenize { mode with lenientStrings := false } a = .ok tokens) :
    ∃ (init : List ValuedToken) (line column : Int),
      tokens = init ++ [⟨⟨.endOfInput, line, column⟩, none⟩] ∧
      (∀ behind, tokenize mode b = .ok behind →
        tokenize mode (a ++ '\n' :: b) =
          .ok (init ++ ⟨⟨.lineFeed, line, column⟩, none⟩ ::
            behind.map (.below (1 + a.count '\n')))) ∧
      ∀ e, tokenize mode b = .error e →
        ∃ e', tokenize mode (a ++ '\n' :: b) = .error e' ∧
          LexError.Below (1 + a.count '\n') (a.length + 1) e e' := by
  obtain ⟨c, hends, rfl⟩ : ∃ c : Cut mode.joinElseIf a,
      Ends { mode with lenientStrings := false } c.tail ∧ c.stream = tokens := exists_cut_of_ok h
  -- no string may be left open, so nothing of `a` remains behind its last gap
  have hc : c.tail = [] := by
    rcases hends with htail | ⟨hlenient, -⟩
    · exact htail
    · cases hlenient
  refine ⟨Segment.tokens [] c.segments, (Position.behind c.before).line,
    (Position.behind c.before).column, rfl, ?_, ?_⟩
  · intro behind hb
    obtain ⟨d, hd, rfl⟩ := exists_cut_of_ok hb
    rw [Cut.tokenize_of_ends (Cut.joinLines c hc d) hd, Cut.stream_joinLines]
    rfl
  · intro e hb
    obtain ⟨d, hd⟩ := exists_cut_of_error hb
    have hsource : e.source = b := hd.source.trans d.before_append_tail
    refine ⟨_, Cut.tokenize_of_offends (Cut.joinLines c hc d) ?_,
      LexError.below_moved hsource hd.position⟩
    rw [Cut.before_joinLines]
    have hmoved := hd.behind (a ++ ['\n'])
    rw [d.before_append_tail] at hmoved
    exact hmoved

/-- An `else` and an `if` on the next line stay apart, and the colour behind them is refused
where it stands. -/
theorem tokenize_else_lineFeed_if :
    tokenize {} ("else" : Text) =
        .ok [⟨⟨.elseWord, 1, 1⟩, none⟩, ⟨⟨.endOfInput, 1, 5⟩, none⟩] ∧
      ∃ (init : List ValuedToken) (line column : Int),
        [(⟨⟨.elseWord, 1, 1⟩, none⟩ : ValuedToken), ⟨⟨.endOfInput, 1, 5⟩, none⟩] =
          init ++ [⟨⟨.endOfInput, line, column⟩, none⟩] ∧
        (∀ behind, tokenize {} (" if $c0" : Text) = .ok behind →
          tokenize {} ("else" ++ '\n' :: " if $c0" : Text) =
            .ok (init ++ ⟨⟨.lineFeed, line, column⟩, none⟩ :: behind.map (.below (1 + 0)))) ∧
        ∀ e, tokenize {} (" if $c0" : Text) = .error e →
          ∃ e', tokenize {} ("else" ++ '\n' :: " if $c0" : Text) = .error e' ∧
            LexError.Below (1 + 0) (4 + 1) e e' :=
  ⟨by decide +kernel, tokenize_append_lineFeed {} "else" " if $c0" _ (by decide +kernel)⟩

end ScriptLex
