import ScriptLex.Proofs.Cut
import ScriptLex.Proofs.Scanner

/-!
# Scanning along a cut

One scan in front of a segment gives its token and stops behind it; in front of a tail it
gives the end of the input or the error that the tail calls for. From these three cases a
whole run follows: the tokens of a source are those of its cut.
-/

namespace ScriptLex

open Gap (IsGap)

/-! ## One scan -/

/-- An error is known by what it shows. -/
theorem LexError.spanning_eq {e : LexError} {cause : Cause} {message source : Text}
    {position : Position} {length : Nat} (hcause : e.cause = cause) (hmessage : e.message = message)
    (hposition : e.position = position) (hsource : e.source = source)
    (hlength : e.length = length) : spanning cause message position source length = e := by
  have hpos := e.length_pos
  cases e
  subst hcause hmessage hposition hsource hlength
  simp only [spanning, mk.injEq, true_and]
  omega

namespace Cursor

theorem scanHead_ends {mode : Mode} {tail : Text} (h : Ends mode tail) (before : Text) :
    scanHead mode before tail =
      (.ok (.startingAt (Position.behind before) .endOfInput none), spent (before ++ tail)) := by
  rcases h with rfl | ⟨hmode, hopen⟩
  · rfl
  · have hfits : Head.openString.Fits mode tail := hopen
    simp only [scanHead, hfits.ofText.2, hmode, if_true]

theorem scanHead_offends {mode : Mode} {before tail : Text} {e : LexError}
    (h : Offends mode before tail e) :
    ∃ c, scanHead mode before tail = (.error (.offends e), c) := by
  have hreason := h.reason
  split at hreason
  next hcause =>
    obtain ⟨hmessage, hlength, hfits⟩ := hreason
    refine ⟨spent (before ++ tail), ?_⟩
    simp only [scanHead, hfits.ofText.2]
    rw [← LexError.spanning_eq hcause hmessage h.position h.source hlength]
    rfl
  next hcause =>
    obtain ⟨hmessage, hlength, hmode, hfits⟩ := hreason
    refine ⟨spent (before ++ tail), ?_⟩
    simp only [scanHead, hfits.ofText.2, hmode, Bool.false_eq_true, if_false]
    rw [← LexError.spanning_eq hcause hmessage h.position h.source hlength]
    rfl
  next hcause =>
    obtain ⟨hmessage, digits, hlength, hfits⟩ := hreason
    refine ⟨between before tail, ?_⟩
    simp only [scanHead, hfits.ofText.2]
    rw [LexError.spanning_eq hcause hmessage h.position h.source hlength]
  next hcause =>
    obtain ⟨c, hmessage, hlength, hfits⟩ := hreason
    refine ⟨between before tail, ?_⟩
    simp only [scanHead, hfits.ofText.2]
    rw [← LexError.spanning_eq hcause hmessage h.position h.source hlength]
    rfl
  next => exact hreason.elim
  next => exact hreason.elim

/-- In front of a segment. -/
theorem scanToken_segment {mode : Mode} {s : Segment} {after : Text}
    (h : s.IsCut mode.joinElseIf after) (before : Text) :
    (between before (s.text ++ after)).scanToken mode =
      (.ok (s.token before), between (before ++ s.text) after) := by
  rw [Segment.text, List.append_assoc, scanToken_gap h.gap, scanToken_head h.lexeme.afterPiece?,
    scanHead_lexeme rfl h.lexeme.ofText, List.append_assoc]
  rfl

/-- In front of a tail that ends the stream. -/
theorem scanToken_ends {mode : Mode} {gap tail : Text} (hgap : IsGap gap tail)
    (h : Ends mode tail) (before : Text) :
    (between before (gap ++ tail)).scanToken mode =
      (.ok (.startingAt (Position.behind (before ++ gap)) .endOfInput none),
        spent (before ++ (gap ++ tail))) := by
  rw [scanToken_gap hgap, scanToken_head h.stops.afterPiece?, scanHead_ends h, List.append_assoc]

/-- In front of a tail that offends. -/
theorem scanToken_offends {mode : Mode} {gap tail before : Text} {e : LexError}
    (hgap : IsGap gap tail) (h : Offends mode (before ++ gap) tail e) :
    ∃ c, (between before (gap ++ tail)).scanToken mode = (.error (.offends e), c) := by
  rw [scanToken_gap hgap, scanToken_head h.stops.afterPiece?]
  exact scanHead_offends h

end Cursor

/-! ## One pull -/

namespace Lexer

/-- The lexer has consumed `before`, has `unread` in front of it and has not failed. -/
structure Stands (lx : Lexer) (before unread : Text) : Prop where
  cursor : lx.cursor = .between before unread
  failure : lx.failure = none

/-- The lexer has read the end of `source` and has not failed. -/
structure Ended (lx : Lexer) (source : Text) : Prop where
  cursor : lx.cursor = .spent source
  failure : lx.failure = none

theorem stands_ofSource (source : Text) (mode : Mode) (filename : Text) :
    (ofSource source mode filename).Stands [] source :=
  ⟨Cursor.between_nil source, rfl⟩

variable {lx : Lexer} {before : Text}

theorem pullValued_of_ok (hfailure : lx.failure = none) {t : ValuedToken} {c : Cursor}
    (hscan : lx.cursor.scanToken lx.mode = (.ok t, c)) :
    lx.pullValued =
      (.ok t, { lx with cursor := c, last := some t.token, value := t.value }) := by
  simp [pullValued, pull, hfailure, hscan]

theorem pullValued_of_error (hfailure : lx.failure = none) {stop : Stop} {c : Cursor}
    (hscan : lx.cursor.scanToken lx.mode = (.error stop, c)) :
    lx.pullValued =
      (.error (stop.error c), { lx with cursor := c, failure := some (stop.error c) }) := by
  simp [pullValued, pull, hfailure, hscan]

theorem pullValued_of_failure {e : LexError} (hfailure : lx.failure = some e) :
    lx.pullValued = (.error e, lx) := by
  simp [pullValued, pull, hfailure]

theorem Stands.pull_segment {s : Segment} {after : Text} (h : lx.Stands before (s.text ++ after))
    (hcut : s.IsCut lx.mode.joinElseIf after) :
    ∃ next, lx.pullValued = (.ok (s.token before), next) ∧ next.mode = lx.mode ∧
      next.Stands (before ++ s.text) after := by
  have hscan := Cursor.scanToken_segment hcut before
  rw [← h.cursor] at hscan
  exact ⟨_, pullValued_of_ok h.failure hscan, rfl, rfl, h.failure⟩

theorem Stands.pull_ends {gap tail : Text} (h : lx.Stands before (gap ++ tail))
    (hgap : IsGap gap tail) (hends : Ends lx.mode tail) :
    ∃ next, lx.pullValued =
        (.ok (.startingAt (Position.behind (before ++ gap)) .endOfInput none), next) ∧
      next.Ended (before ++ (gap ++ tail)) := by
  have hscan := Cursor.scanToken_ends hgap hends before
  rw [← h.cursor] at hscan
  exact ⟨_, pullValued_of_ok h.failure hscan, rfl, h.failure⟩

theorem Stands.pull_offends {gap tail : Text} {e : LexError}
    (h : lx.Stands before (gap ++ tail)) (hgap : IsGap gap tail)
    (hoffends : Offends lx.mode (before ++ gap) tail e) :
    ∃ next, lx.pullValued = (.error e, next) ∧ next.failure = some e := by
  obtain ⟨c, hscan⟩ := Cursor.scanToken_offends hgap hoffends
  rw [← h.cursor] at hscan
  exact ⟨_, pullValued_of_error h.failure hscan, rfl⟩

/-- The end can be pulled again. -/
theorem Ended.pull {source : Text} (h : lx.Ended source) :
    ∃ next, lx.pullValued =
        (.ok (.startingAt (Position.behind source) .endOfInput none), next) ∧
      next.Ended source := by
  have hscan := Cursor.scanToken_spent lx.mode source
  rw [← h.cursor] at hscan
  exact ⟨_, pullValued_of_ok h.failure hscan, h.cursor, h.failure⟩

/-! ## Whole runs -/

/-- What `n` pulls come to, and the lexer behind them. -/
def pulls : (n : Nat) → Lexer → List Outcome × Lexer
  | 0, lx => ([], lx)
  | n + 1, lx => (lx.pullValued.1 :: (pulls n lx.pullValued.2).1, (pulls n lx.pullValued.2).2)

theorem take_succ_of_error {e : LexError} {next : Lexer}
    (h : lx.pullValued = (.error e, next)) (n : Nat) :
    take (n + 1) lx = ⟨[], some e, next⟩ := by
  unfold pullValued at h
  rw [take]
  split at h
  next => simp at h
  next hpull =>
    obtain ⟨he, rfl⟩ := Prod.mk.inj h
    rw [hpull, Except.error.inj he]

theorem take_succ_of_ok {t : ValuedToken} {next : Lexer}
    (h : lx.pullValued = (.ok t, next)) (n : Nat) :
    take (n + 1) lx =
      if t.token.kind = .endOfInput then ⟨[t], none, next⟩
      else ⟨t :: (take n next).tokens, (take n next).failure, (take n next).lexer⟩ := by
  unfold pullValued at h
  rw [take]
  split at h
  next hpull =>
    obtain ⟨ht, rfl⟩ := Prod.mk.inj h
    obtain rfl := Except.ok.inj ht
    rw [hpull]
  next => simp at h

/-- Pulling along the segments: each gives its token, and then the lexer stands behind
them. -/
theorem Stands.take_segments {after : Text} {segments : List Segment}
    (h : lx.Stands before (Segment.texts segments ++ after))
    (hcut : Segment.AllCut lx.mode.joinElseIf after segments) :
    ∃ next, next.mode = lx.mode ∧ next.Stands (before ++ Segment.texts segments) after ∧
      ∀ n, take (segments.length + n) lx =
        ⟨Segment.tokens before segments ++ (take n next).tokens, (take n next).failure,
          (take n next).lexer⟩ := by
  induction segments generalizing lx before with
  | nil => exact ⟨lx, rfl, by simpa using h, fun n => by simp [Segment.tokens]⟩
  | cons s rest ih =>
      rw [Segment.texts_cons, List.append_assoc] at h
      obtain ⟨mid, hpull, hmid, hstands⟩ := h.pull_segment hcut.1
      obtain ⟨next, hnext, hstands', htake⟩ := ih hstands (hmid ▸ hcut.2)
      refine ⟨next, hnext.trans hmid, by simpa using hstands', fun n => ?_⟩
      have hkind : (s.token before).token.kind ≠ .endOfInput :=
        hcut.1.lexeme.kind_ne_endOfInput
      rw [List.length_cons, Nat.add_right_comm, take_succ_of_ok hpull, if_neg hkind, htake]
      rfl

end Lexer

/-- One pull more than there are segments reaches the tail. -/
theorem Cut.exists_run {mode : Mode} {source : Text} (c : Cut mode.joinElseIf source)
    (filename : Text) :
    ∃ (next : Lexer) (n : Nat), next.mode = mode ∧
      next.Stands (Segment.texts c.segments) (c.gap ++ c.tail) ∧
      (Lexer.ofSource source mode filename).run =
        ⟨Segment.tokens [] c.segments ++ (Lexer.take (n + 1) next).tokens,
          (Lexer.take (n + 1) next).failure, (Lexer.take (n + 1) next).lexer⟩ := by
  have hstands : (Lexer.ofSource source mode filename).Stands []
      (Segment.texts c.segments ++ (c.gap ++ c.tail)) := by
    rw [← c.source_eq]
    exact Lexer.stands_ofSource source mode _
  obtain ⟨next, hmode, hnext, htake⟩ := hstands.take_segments c.allCut
  -- the limit of a run is enough, since no lexeme is empty
  have hlength : c.segments.length ≤ source.length := by
    have hsource := congrArg List.length c.source_eq
    have hsegments := Segment.length_le_of_allCut c.allCut
    rw [List.length_append] at hsource
    omega
  obtain ⟨n, hn⟩ := Nat.exists_eq_add_of_le hlength
  refine ⟨next, n, hmode, hnext, ?_⟩
  rw [← htake, Lexer.run, show (Lexer.ofSource source mode _).cursor = .between [] source from
    Cursor.between_nil source, Cursor.unread_between, hn, Nat.add_assoc]

/-- A run along a cut whose tail ends the stream. -/
theorem Cut.run_of_ends {mode : Mode} {source : Text} (c : Cut mode.joinElseIf source)
    (h : Ends mode c.tail) (filename : Text) :
    ∃ last, (Lexer.ofSource source mode filename).run = ⟨c.stream, none, last⟩ ∧
      last.Ended source := by
  obtain ⟨next, n, hmode, hstands, hrun⟩ := c.exists_run filename
  obtain ⟨last, hpull, hended⟩ := hstands.pull_ends c.isGap (by rw [hmode]; exact h)
  rw [← c.source_eq] at hended
  refine ⟨last, ?_, hended⟩
  rw [hrun, Lexer.take_succ_of_ok hpull n]
  rfl

/-- A run along a cut whose tail offends. -/
theorem Cut.run_of_offends {mode : Mode} {source : Text} (c : Cut mode.joinElseIf source)
    {e : LexError} (h : Offends mode c.before c.tail e) (filename : Text) :
    ∃ last, (Lexer.ofSource source mode filename).run =
        ⟨Segment.tokens [] c.segments, some e, last⟩ ∧
      last.failure = some e := by
  obtain ⟨next, n, hmode, hstands, hrun⟩ := c.exists_run filename
  obtain ⟨last, hpull, hfailed⟩ := hstands.pull_offends c.isGap (by rw [hmode]; exact h)
  refine ⟨last, ?_, hfailed⟩
  rw [hrun, Lexer.take_succ_of_error hpull n, List.append_nil]

/-- A source whose tail ends the stream has the tokens of its cut. -/
theorem Cut.tokenize_of_ends {mode : Mode} {source : Text} (c : Cut mode.joinElseIf source)
    (h : Ends mode c.tail) : tokenize mode source = .ok c.stream := by
  obtain ⟨last, hrun, -⟩ := c.run_of_ends h LexError.defaultFilename
  rw [tokenize, hrun]

/-- A source whose tail offends has no tokens, but that error. -/
theorem Cut.tokenize_of_offends {mode : Mode} {source : Text} (c : Cut mode.joinElseIf source)
    {e : LexError} (h : Offends mode c.before c.tail e) : tokenize mode source = .error e := by
  obtain ⟨last, hrun, -⟩ := c.run_of_offends h LexError.defaultFilename
  rw [tokenize, hrun]

/-- The tokens that lexing yields up to the end of the input or the first error. -/
def yielded (mode : Mode) (source : Text) : List ValuedToken :=
  (Lexer.ofSource source mode LexError.defaultFilename).run.tokens

theorem Cut.yielded_of_ends {mode : Mode} {source : Text} (c : Cut mode.joinElseIf source)
    (h : Ends mode c.tail) : yielded mode source = c.stream := by
  obtain ⟨last, hrun, -⟩ := c.run_of_ends h LexError.defaultFilename
  rw [yielded, hrun]

theorem Cut.yielded_of_offends {mode : Mode} {source : Text} (c : Cut mode.joinElseIf source)
    {e : LexError} (h : Offends mode c.before c.tail e) :
    yielded mode source = Segment.tokens [] c.segments := by
  obtain ⟨last, hrun, -⟩ := c.run_of_offends h LexError.defaultFilename
  rw [yielded, hrun]

/-- Lexing comes out as the tail of the one cut says. -/
theorem exists_cut_of_tokenize (mode : Mode) (source : Text) :
    ∃ c : Cut mode.joinElseIf source,
      Ends mode c.tail ∧ tokenize mode source = .ok c.stream ∨
      ∃ e, Offends mode c.before c.tail e ∧ tokenize mode source = .error e := by
  obtain ⟨c, hstops⟩ := exists_cut_stops mode source
  refine ⟨c, ?_⟩
  rcases hstops.ends_or_offends c.before with hends | ⟨e, hoffends⟩
  · exact .inl ⟨hends, c.tokenize_of_ends hends⟩
  · exact .inr ⟨e, hoffends, c.tokenize_of_offends hoffends⟩

theorem exists_cut_of_ok {mode : Mode} {source : Text} {tokens : List ValuedToken}
    (h : tokenize mode source = .ok tokens) :
    ∃ c : Cut mode.joinElseIf source, Ends mode c.tail ∧ c.stream = tokens := by
  obtain ⟨c, ⟨hends, hok⟩ | ⟨e, -, herror⟩⟩ := exists_cut_of_tokenize mode source
  · exact ⟨c, hends, Except.ok.inj (hok.symm.trans h)⟩
  · rw [h] at herror
    cases herror

theorem exists_cut_of_error {mode : Mode} {source : Text} {e : LexError}
    (h : tokenize mode source = .error e) :
    ∃ c : Cut mode.joinElseIf source, Offends mode c.before c.tail e := by
  obtain ⟨c, ⟨-, hok⟩ | ⟨e', hoffends, herror⟩⟩ := exists_cut_of_tokenize mode source
  · rw [h] at hok
    cases hok
  · obtain rfl := Except.error.inj (herror.symm.trans h)
    exact ⟨c, hoffends⟩

end ScriptLex
